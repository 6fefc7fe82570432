import DeviceBridge.Proofs.Bridge.Run
import DeviceBridge.Proofs.Controller.Site

/-!
# DeviceBridge.Proofs.Logging

Which failures are logged. A bridge or a controller that is refused by the stack or the storage logs
that once, under the name of an operation, and what it logs is what it returns or lies right behind
it. Where the request itself cannot be met, nothing is logged, and nothing is logged when all goes
well (`Reporting`). What is put together from reporting work reports, since work that succeeds has
logged nothing.

Three refusals of the storage are passed on without a word (`logged_once`): all that a bridge meets
when it looks for the marks of old bridges, the one that a reset meets when it keeps the new unique
id, and the one that a controller meets when the file of its location has no name for a namespace.
-/

namespace DeviceBridge

open Json (Value)

variable {ε σ α β : Type}

/-! ## Reports -/

/-- Work that can log. -/
class Logs (ε σ : Type) where
  /-- What has been logged. -/
  log : σ → List LogEntry
  /-- The failures under which a refusal may be logged; none for a request that cannot be met. -/
  behind : ε → List Failure

/-- The log tells of the end of work that has failed: of a refusal of the stack or the storage in
one entry, of another one in none. -/
def Reports [Logs ε σ] (operations : List String) (s : σ) (e : ε) (s' : σ) : Prop :=
  match Logs.behind σ e with
  | [] => Logs.log ε s' = Logs.log ε s
  | f :: fs => ∃ operation ∈ operations, ∃ failure ∈ f :: fs,
      Logs.log ε s' = Logs.log ε s ++ [⟨operation, failure⟩]

/-- Work that logs its refusals under the names of some operations, and nothing else. -/
def Reporting [Logs ε σ] (operations : List String) (x : EStateM ε σ α) : Prop :=
  ∀ s, After x s (fun _ s' => Logs.log ε s' = Logs.log ε s) (fun e s' => Reports operations s e s')

/-- A refusal of the stack or the storage of which nothing is logged. -/
def Unreported [Logs ε σ] (s : σ) (e : ε) (s' : σ) : Prop :=
  Logs.behind σ e ≠ [] ∧ Logs.log ε s' = Logs.log ε s

/-- Work that logs nothing, and that only the stack and the storage refuse. -/
def Silent [Logs ε σ] (x : EStateM ε σ α) : Prop :=
  ∀ s, After x s (fun _ s' => Logs.log ε s' = Logs.log ε s) (fun e s' => Unreported s e s')

section
variable [Logs ε σ] {operations operations' : List String} {x : EStateM ε σ α} {s s₁ s' : σ} {e : ε}

theorem reports_of_nil (he : Logs.behind σ e = []) (h : Logs.log ε s' = Logs.log ε s) :
    Reports operations s e s' := by
  unfold Reports
  rw [he]
  exact h

theorem reports_of_mem {failure : Failure} {operation : String} (ho : operation ∈ operations)
    (hf : failure ∈ Logs.behind σ e)
    (h : Logs.log ε s' = Logs.log ε s ++ [⟨operation, failure⟩]) : Reports operations s e s' := by
  unfold Reports
  split
  · next hnil => rw [hnil] at hf; cases hf
  · next hcons => exact ⟨operation, ho, failure, hcons ▸ hf, h⟩

/-- Only what is logged before matters. -/
theorem Reports.of_log (h : Reports operations s₁ e s') (hs : Logs.log ε s₁ = Logs.log ε s) :
    Reports operations s e s' := by
  unfold Reports at h ⊢
  rw [hs] at h
  exact h

/-- Of what comes afterwards only what is logged matters. -/
theorem Reports.of_log_after {s'' : σ} (h : Reports operations s e s')
    (hs : Logs.log ε s'' = Logs.log ε s') : Reports operations s e s'' := by
  unfold Reports at h ⊢
  rw [hs]
  exact h

theorem Reports.mono (h : Reports operations s e s') (hsub : operations ⊆ operations') :
    Reports operations' s e s' := by
  unfold Reports at h ⊢
  split at h
  · exact h
  · obtain ⟨operation, ho, hrest⟩ := h
    exact ⟨operation, hsub ho, hrest⟩

theorem Reporting.mono (h : Reporting operations x) (hsub : operations ⊆ operations') :
    Reporting operations' x := fun s =>
  (h s).mono (fun _ _ h => h) fun _ _ h => h.mono hsub

theorem reporting_pure (a : α) : Reporting operations (pure a : EStateM ε σ α) := fun _ =>
  after_pure rfl

theorem reporting_get : Reporting operations (get : EStateM ε σ σ) := fun _ => after_get rfl

theorem reporting_throw (he : Logs.behind σ e = []) :
    Reporting operations (throw e : EStateM ε σ α) := fun _ => after_throw (reports_of_nil he rfl)

theorem reporting_modify {f : σ → σ} (h : ∀ s, Logs.log ε (f s) = Logs.log ε s) :
    Reporting operations (modify f : EStateM ε σ PUnit) := fun s => after_modify (h s)

/-- The first part of a sequence has logged nothing when the second one starts. -/
theorem reporting_bind {f : α → EStateM ε σ β} (h : Reporting operations x)
    (hf : ∀ a, Reporting operations (f a)) : Reporting operations (x >>= f) := fun s =>
  after_bind ((h s).imp fun a s₁ hs₁ =>
    (hf a s₁).mono (fun _ _ h => h.trans hs₁) fun _ _ h => h.of_log hs₁)

theorem silent_pure (a : α) : Silent (pure a : EStateM ε σ α) := fun _ => after_pure rfl

theorem silent_get : Silent (get : EStateM ε σ σ) := fun _ => after_get rfl

theorem silent_bind {f : α → EStateM ε σ β} (h : Silent x) (hf : ∀ a, Silent (f a)) :
    Silent (x >>= f) := fun s =>
  after_bind ((h s).imp fun a s₁ hs₁ =>
    (hf a s₁).mono (fun _ _ h => h.trans hs₁) fun _ _ h => ⟨h.1, h.2.trans hs₁⟩)

end

/-! ## Work of the host -/

namespace Host

/-- Work on the storage logs nothing. -/
theorem log_storing (wrap : StorageError → ε) (x : Storing α) (h : Host) :
    Leaves (storing wrap x) h (fun h' => h'.log = h.log) :=
  after_storing (.intro (fun _ _ _ => rfl) fun _ _ _ => rfl)

theorem log_changing (f : Stack → Except StackError Stack) (h : Host) :
    Leaves (changing f) h (fun h' => h'.log = h.log) :=
  after_changing (fun _ _ => rfl) fun _ _ => rfl

theorem log_createNode (config : ServerNodeConfig) (h : Host) :
    Leaves (createNode config) h (fun h' => h'.log = h.log) := by
  refine after_bind (after_get ?_)
  dsimp only
  cases h.stack.createFailure with
  | some text => exact after_bind (after_modify (after_throw rfl))
  | none =>
      exact after_bind ((log_storing _ _ h).imp fun _ _ hlog =>
        after_bind (after_modify (after_pure hlog)))

theorem log_eraseNode (i : Nat) (h : Host) :
    Leaves (eraseNode i) h (fun h' => h'.log = h.log) := by
  refine after_bind (after_get ?_)
  cases h.stack.nodes[i]? with
  | none => exact after_throw rfl
  | some n => exact after_bind (after_modify (log_storing _ _ _))

end Host

/-! ## The bridge -/

/-- The failures under which the refusal of a bridge may be logged. -/
def BridgeError.behind : BridgeError → List Failure
  | stack e => [.bridge (.stack e), .stack e]
  | storage e => [.bridge (.storage e)]
  | _ => []

instance : Logs BridgeError Site where
  log s := s.host.log
  behind := BridgeError.behind

namespace Bridge

variable {operation : String} {operations : List String}

theorem silent_storing (x : Storing α) : Silent (storing x) := fun _ =>
  after_storing (.intro (fun _ _ _ => rfl) fun _ _ _ => ⟨List.cons_ne_nil _ _, rfl⟩)

theorem silent_hosted {x : Hosted α} (hx : ∀ h, Leaves x h (fun h' => h'.log = h.log)) :
    Silent (hosted x) := fun s =>
  after_hosted ((hx s.host).mono (fun _ _ h => h) fun _ _ h => ⟨List.cons_ne_nil _ _, h⟩)

theorem reporting_delegating {x : Hosted α} (hx : ∀ h, Leaves x h (fun h' => h'.log = h.log)) :
    Reporting [operation] (delegating operation x) := fun s =>
  after_delegating ((hx s.host).mono (fun _ _ h => h) fun _ _ h =>
    reports_of_mem (.head _) (.tail _ (.head _)) (congrArg (· ++ [_]) h))

/-- A refusal is logged in the name of an operation, and nothing if the work is given up. -/
theorem reports_logEntries {s s' : Site} {e : BridgeError}
    (h : Unreported s e s' ∨ e = .overflow ∧ s'.host.log = s.host.log) :
    Reports [operation] s e
      { s' with host := s'.host.recordAll (logEntries operation e) } := by
  obtain ⟨hbehind, hlog⟩ | ⟨rfl, hlog⟩ := h
  · have hentry := congrArg (· ++ [⟨operation, .bridge e⟩]) hlog
    cases e with
    | stack e => exact reports_of_mem (.head _) (.head _) hentry
    | storage e => exact reports_of_mem (.head _) (.head _) hentry
    | _ => exact absurd rfl hbehind
  · exact reports_of_nil rfl ((List.append_nil _).trans hlog)

/-- Silent work in the name of an operation reports. -/
theorem reporting_logging {x : Bridging α} (hx : Silent x) :
    Reporting [operation] (logging operation x) := fun s =>
  after_logging ((hx s).mono (fun _ _ h => h) fun _ _ h => reports_logEntries (.inl h))

theorem reporting_update (f : Bridge → Bridge) : Reporting operations (update f) :=
  reporting_modify fun _ => rfl

theorem reporting_heldNode : Reporting operations heldNode := by
  refine reporting_bind reporting_get fun s => ?_
  cases s.bridge.node with
  | some i => exact reporting_pure i
  | none => exact reporting_throw rfl

/-! ### Making and closing a node -/

theorem silent_isLegacy : Silent isLegacy := by
  refine silent_bind silent_get fun s => silent_bind (silent_storing _) fun marked => ?_
  cases marked with
  | false => exact silent_pure false
  | true => exact silent_bind (silent_storing _) fun started => silent_pure (!started)

theorem silent_resolveUniqueId (bits : RandomBits) : Silent (resolveUniqueId bits) := by
  refine silent_bind silent_get fun s => silent_bind (silent_storing _) fun kept => ?_
  cases kept with
  | some id => exact silent_pure id
  | none =>
      refine silent_bind silent_isLegacy fun legacy => ?_
      cases legacy with
      | false => exact silent_pure (UniqueId.random bits)
      | true => exact silent_pure UniqueId.legacy

theorem silent_furnish (node : Nat) (id : UniqueId) : Silent (furnish node id) :=
  silent_bind (silent_hosted (Host.log_changing _)) fun _ =>
    silent_bind silent_get fun _ => silent_storing _

@[simp] theorem log_abandon (node : Nat) (s : Site) :
    (abandon node s).host.log = s.host.log := by
  rw [abandon_eq_stateAfter]
  exact (Host.log_changing _ s.host).stateAfter

theorem silent_buildNode (bits : RandomBits) : Silent (buildNode bits) := by
  refine silent_bind (silent_resolveUniqueId bits) fun id => silent_bind silent_get fun s =>
    silent_bind (silent_hosted (Host.log_createNode _)) fun node s' => ?_
  exact after_furnish_or ((silent_furnish node id s').mono (fun _ _ h => h) fun _ _ h =>
    ⟨h.1, (log_abandon node _).trans h.2⟩)

theorem reporting_init (bits : RandomBits) : Reporting ["init"] (init bits) := by
  refine reporting_bind reporting_get fun s => ?_
  split
  · exact reporting_throw rfl
  · exact reporting_bind (reporting_logging (silent_buildNode bits)) fun _ => reporting_update _

theorem reporting_close : Reporting ["close"] close := fun s => by
  unfold After close
  cases s.bridge.node with
  | none => exact rfl
  | some node =>
      have hlog := Host.log_changing (·.onNode node ServerNode.close) s.host
      dsimp only
      cases hx : Host.changing (·.onNode node ServerNode.close) s.host with
      | ok _ h => exact hlog.of_ok hx
      | error e h =>
          have hh : h.log = s.host.log := hlog.of_error hx
          cases e with
          | alreadyClosed id => exact hh
          | _ => exact reports_of_mem (.head _) (.tail _ (.head _)) (congrArg (· ++ [_]) hh)

/-- What a reset does before it keeps the new unique id. -/
def clear (bits : RandomBits) : Bridging Unit := do
  close
  init bits
  let node ← heldNode
  delegating "initializeBridge" (Host.eraseNode node)
  close

/-- Keeps a unique id made from random bits. -/
def keepFresh (bits : RandomBits) : Bridging Unit := do
  storing ((← get).bridge.appContext.set uniqueIdKey (.string (UniqueId.random bits).text))

theorem silent_keepFresh (bits : RandomBits) : Silent (keepFresh bits) :=
  silent_bind silent_get fun _ => silent_storing _

theorem renew_true (bits resetBits : RandomBits) :
    renew true bits resetBits = (do clear bits; keepFresh resetBits; init resetBits) := by
  simp only [renew, startOver, clear, keepFresh, bind_assoc, if_true]

theorem reporting_clear (bits : RandomBits) :
    Reporting ["close", "init", "initializeBridge"] (clear bits) :=
  reporting_bind (reporting_close.mono (by simp)) fun _ =>
    reporting_bind ((reporting_init bits).mono (by simp)) fun _ =>
      reporting_bind reporting_heldNode fun _ =>
        reporting_bind ((reporting_delegating (Host.log_eraseNode _)).mono (by simp)) fun _ =>
          reporting_close.mono (by simp)

/-! ### The other requests -/

theorem reporting_addEndpoint (deviceType : String) (id : EndpointId) (info : DeviceInfo)
    (attributes : List (String × Value)) :
    Reporting ["addEndpoint"] (addEndpoint deviceType id info attributes) := by
  refine reporting_bind reporting_get fun s => ?_
  dsimp only
  split
  · exact reporting_throw rfl
  · cases s.bridge.node with
    | none => exact reporting_throw rfl
    | some node =>
        cases DeviceType.parse deviceType with
        | error e => exact reporting_throw rfl
        | ok type =>
            exact reporting_bind (reporting_delegating (Host.log_changing _)) fun _ =>
              reporting_update _

theorem reporting_setEndpointState (id : EndpointId) (cluster name : String) (value : Value) :
    Reporting ["setEndpointState"] (setEndpointState id cluster name value) := by
  refine reporting_bind reporting_get fun s => ?_
  cases s.bridge.devices.get? id with
  | none => exact reporting_pure ()
  | some d => exact reporting_delegating (Host.log_changing _)

/-- Keeping a time is silent, also when it is given up. -/
theorem after_recordLastStart_log (now : Int64) (s : Site) :
    After (recordLastStart now) s (fun _ s' => s'.host.log = s.host.log)
      (fun e s' => Unreported s e s' ∨ e = .overflow ∧ s'.host.log = s.host.log) := by
  refine after_bind (after_get (after_bind ((silent_storing _ s).mono (fun kept s₁ h₁ => ?_)
    fun _ _ h₁ => .inl h₁)))
  cases nextStart kept now with
  | none => exact after_throw (.inr ⟨rfl, h₁⟩)
  | some time =>
      exact (silent_storing _ s₁).mono (fun _ _ h => h.trans h₁)
        fun _ _ h => .inl ⟨h.1, h.2.trans h₁⟩

theorem reporting_start (now : Int64) : Reporting ["startBridge"] (start now) := by
  refine reporting_bind reporting_get fun s => ?_
  split
  · exact reporting_throw rfl
  · exact reporting_bind reporting_heldNode fun _ =>
      reporting_bind (reporting_delegating (Host.log_changing _)) fun _ =>
        fun s => after_logging ((after_recordLastStart_log now s).mono (fun _ _ h => h)
          fun _ _ h => reports_logEntries h)

theorem reporting_openWindow : Reporting ["openCommissioningWindow"] openWindow := by
  refine reporting_bind reporting_heldNode fun node =>
    reporting_bind (reporting_delegating (Host.log_changing _)) fun _ =>
      reporting_modify fun s => ?_
  dsimp only
  split <;> rfl

theorem reporting_closeWindow : Reporting ["closeCommissioningWindow"] closeWindow :=
  reporting_bind reporting_heldNode fun _ =>
    reporting_bind (reporting_delegating (Host.log_changing _)) fun _ => reporting_update _

theorem reporting_removeFabric (index : UInt8) : Reporting ["removeFabric"] (removeFabric index) :=
  reporting_bind reporting_heldNode fun _ => reporting_delegating (Host.log_changing _)

end Bridge

/-- The names under which refusals of a request are logged. -/
def Request.operations : Request → List String
  | init _ => ["init"]
  | close => ["close"]
  | renew .. => ["close", "init", "initializeBridge"]
  | addEndpoint .. => ["addEndpoint"]
  | setEndpointState .. => ["setEndpointState"]
  | start _ => ["startBridge"]
  | openWindow => ["openCommissioningWindow"]
  | closeWindow => ["closeCommissioningWindow"]
  | removeFabric _ => ["removeFabric"]

/-- A request fails where it keeps the unique id that a reset has made. -/
def Request.LosesId (s : Site) (e : BridgeError) (s' : Site) : Request → Prop
  | renew true bits resetBits =>
    ∃ s₁, Bridge.clear bits s = .ok () s₁ ∧ Bridge.keepFresh resetBits s₁ = .error e s'
  | _ => False

theorem Bridge.reporting_renew_false (bits resetBits : RandomBits) :
    Reporting ["close", "init", "initializeBridge"] (renew false bits resetBits) :=
  reporting_bind (reporting_close.mono (by simp)) fun _ =>
    reporting_bind ((reporting_init bits).mono (by simp)) fun _ => reporting_pure ()

theorem Bridge.after_renew_true_log (bits resetBits : RandomBits) (s : Site) :
    After (renew true bits resetBits) s (fun _ s' => s'.host.log = s.host.log)
      (fun e s' => ((Request.renew true bits resetBits).LosesId s e s' → Unreported s e s') ∧
        (¬ (Request.renew true bits resetBits).LosesId s e s' →
          Reports ["close", "init", "initializeBridge"] s e s')) := by
  have hclear := reporting_clear bits s
  rw [renew_true]
  refine after_bind (.intro (fun _ s₁ h₁ => ?_) fun e s' h' =>
    ⟨fun ⟨s₁, h₁, _⟩ => ?_, fun _ => hclear.of_error h'⟩)
  · have hlog : s₁.host.log = s.host.log := hclear.of_ok h₁
    have hkeep := silent_keepFresh resetBits s₁
    refine after_bind (.intro (fun _ s₂ h₂ => ?_) fun e s' h' =>
      ⟨fun _ => ?_, fun hkept => absurd ⟨s₁, h₁, h'⟩ hkept⟩)
    · have hlog₂ : s₂.host.log = s.host.log := (hkeep.of_ok h₂).trans hlog
      refine (reporting_init resetBits s₂).mono (fun _ _ h => h.trans hlog₂) fun e s' h =>
        ⟨fun ⟨s₁', h₁', h'⟩ => ?_, fun _ => (h.of_log hlog₂).mono (by simp)⟩
      -- the id has been kept by now
      obtain ⟨-, rfl⟩ := EStateM.Result.ok.inj (h₁.symm.trans h₁')
      cases h₂.symm.trans h'
    · exact ⟨(hkeep.of_error h').1, (hkeep.of_error h').2.trans hlog⟩
  · cases h'.symm.trans h₁

/-- A request reports, but for the loss of a new unique id, of which nothing is logged. -/
theorem Request.after_work_log (r : Request) (s : Site) :
    After r.work s (fun _ s' => s'.host.log = s.host.log)
      (fun e s' => (r.LosesId s e s' → Unreported s e s') ∧
        (¬ r.LosesId s e s' → Reports r.operations s e s')) := by
  have hreports {r : Request} (hr : Reporting r.operations r.work)
      (hkept : ∀ e s', ¬ r.LosesId s e s') :
      After r.work s (fun _ s' => s'.host.log = s.host.log)
        (fun e s' => (r.LosesId s e s' → Unreported s e s') ∧
          (¬ r.LosesId s e s' → Reports r.operations s e s')) :=
    (hr s).mono (fun _ _ h => h) fun e s' h => ⟨fun hlost => absurd hlost (hkept e s'), fun _ => h⟩
  cases r with
  | init bits => exact hreports (Bridge.reporting_init bits) fun _ _ h => h
  | close => exact hreports Bridge.reporting_close fun _ _ h => h
  | addEndpoint deviceType id info attributes =>
      exact hreports (Bridge.reporting_addEndpoint deviceType id info attributes) fun _ _ h => h
  | setEndpointState id cluster name value =>
      exact hreports (Bridge.reporting_setEndpointState id cluster name value) fun _ _ h => h
  | start now => exact hreports (Bridge.reporting_start now) fun _ _ h => h
  | openWindow => exact hreports Bridge.reporting_openWindow fun _ _ h => h
  | closeWindow => exact hreports Bridge.reporting_closeWindow fun _ _ h => h
  | removeFabric index => exact hreports (Bridge.reporting_removeFabric index) fun _ _ h => h
  | renew reset bits resetBits =>
      cases reset with
      | false => exact hreports (Bridge.reporting_renew_false bits resetBits) fun _ _ h => h
      | true => exact Bridge.after_renew_true_log bits resetBits s

/-! ## The controller -/

/-- The failures under which the refusal of a controller may be logged. -/
def ControllerError.behind : ControllerError → List Failure
  | noController e => [.stack e]
  | stack e => [.stack e]
  | storage e => [.storage e]
  | _ => []

instance : Logs ControllerError ControllerSite where
  log s := s.host.log
  behind := ControllerError.behind

namespace ControllerNode

theorem log_changing (i : Nat) (f : StackController → Except StackError (α × StackController))
    (h : Host) : Leaves (changing i f) h (fun h' => h'.log = h.log) := by
  unfold Leaves After changing
  cases h.stack.onController i f <;> rfl

theorem reporting_delegating {operation : String} {wrap : StackError → ControllerError}
    (hwrap : ∀ e, .stack e ∈ (wrap e).behind) {x : Hosted α}
    (hx : ∀ h, Leaves x h (fun h' => h'.log = h.log)) :
    Reporting [operation] (delegating operation wrap x) := fun s =>
  after_delegating ((hx s.host).mono (fun _ _ h => h) fun e _ hlog =>
    reports_of_mem (.head _) (hwrap e) (congrArg (· ++ [_]) hlog))

@[simp] theorem log_abandon (i : Nat) (s : ControllerSite) :
    (abandon i s).host.log = s.host.log := by
  rw [abandon_eq]
  rfl

@[simp] theorem log_release (s : ControllerSite) : (release s).host.log = s.host.log := by
  rw [release_eq]
  rfl

theorem reporting_convertStorage : Reporting ["initialize"] convertStorage := by
  refine reporting_bind reporting_get fun s t => after_onHost ?_
  have hlog := Host.log_storing (ε := StorageError) (fun e => e)
    (Legacy.convert s.node.config.storageLocation) t.host
  exact .within .storage (by cases Host.storing _ _ t.host <;> rfl)
    (hlog.mono (fun _ _ h => h) fun e h hh =>
      reports_of_mem (.head _) (.head _) (congrArg (· ++ [_]) hh))

theorem reporting_construct (c : Conversion) : Reporting ["initialize"] (construct c) :=
  reporting_bind reporting_get fun _ =>
    reporting_bind (reporting_delegating (fun _ => .head _) (Host.log_changing _)) fun _ =>
      reporting_pure _

/-- What initializing does before it looks for the store: the storage and the number of the
controller. -/
def prepare : Controlling (Conversion × Nat) := do
  modify release
  let c ← convertStorage
  let i ← construct c
  return (c, i)

theorem reporting_prepare : Reporting ["initialize"] prepare :=
  reporting_bind (reporting_modify log_release) fun _ =>
    reporting_bind reporting_convertStorage fun c =>
      reporting_bind (reporting_construct c) fun i => reporting_pure (c, i)

/-- The file of the location has no name that a namespace could have, which is found out only after
everything else has succeeded. -/
def Nameless (s : ControllerSite) (e : ControllerError) : Prop :=
  ∃ c i s₁ x, prepare s = .ok (c, i) s₁ ∧ Namespace.parse c.outputDir c.id = .error x ∧
    e = .storage x

/-- Of a missing store nothing is logged, of a controller that does not start once. -/
theorem after_launch_log (i : Nat) (c : Conversion) (s : ControllerSite) :
    After (launch i c) s (fun _ s' => s'.host.log = s.host.log)
      (fun e s' =>
        (∃ x, Namespace.parse c.outputDir c.id = .error x ∧ e = .storage x ∧
          Unreported s e s') ∨
        (∃ space, Namespace.parse c.outputDir c.id = .ok space) ∧
          Reports ["initialize"] s e s') := by
  refine after_bind (after_onHost (Host.after_storing ?_))
  cases hspace : Namespace.parse c.outputDir c.id with
  | error x => exact after_throw (.inl ⟨x, rfl, rfl, List.cons_ne_nil _ _, rfl⟩)
  | ok space =>
      have hstart : Reporting ["initialize"] (delegating "initialize" .stack (starting i)) :=
        reporting_delegating (fun _ => .head _) (log_changing i _)
      exact after_pure (after_bind ((hstart _).mono (fun _ _ h => after_pure h)
        fun e s' h => .inr ⟨⟨space, rfl⟩, h⟩))

theorem setUp_eq : setUp = (do
    let (c, i) ← prepare
    let store ← (fun s =>
      match launch i c s with
      | .ok store s => .ok store s
      | .error e s => .error e (abandon i s) : Controlling Context)
    modify fun s =>
      { s with node := { s.node with controller := some i, store := some store } }) := by
  simp only [prepare, bind_assoc, pure_bind]
  rfl

/-- Initializing reports, but for a file without a name, of which nothing is logged. -/
theorem after_setUp_log (s : ControllerSite) :
    After setUp s (fun _ s' => s'.host.log = s.host.log)
      (fun e s' => (Nameless s e → Unreported s e s') ∧
        (¬ Nameless s e → Reports ["initialize"] s e s')) := by
  have hprepare := reporting_prepare s
  rw [setUp_eq]
  refine after_bind (.intro (fun ⟨c, i⟩ s₁ h₁ => ?_) fun e s' h' =>
    ⟨fun ⟨c, i, s₁, x, h₁, _⟩ => ?_, fun _ => hprepare.of_error h'⟩)
  · have hlog : s₁.host.log = s.host.log := hprepare.of_ok h₁
    refine after_bind (after_launch_or ((after_launch_log i c s₁).mono
      (fun _ _ h => after_modify (h.trans hlog)) fun e s' h => ⟨fun hless => ?_, fun hnamed => ?_⟩))
    · rcases h with ⟨x, -, -, h⟩ | ⟨⟨space, hspace⟩, -⟩
      · exact ⟨h.1, (log_abandon i s').trans (h.2.trans hlog)⟩
      · obtain ⟨c', i', s₁', x, h₁', hx, -⟩ := hless
        cases h₁.symm.trans h₁'
        cases hspace.symm.trans hx
    · rcases h with ⟨x, hx, he, -⟩ | ⟨-, h⟩
      · exact absurd ⟨c, i, s₁, x, h₁, hx, he⟩ hnamed
      · exact (h.of_log hlog).of_log_after (log_abandon i s')
  · cases h'.symm.trans h₁

theorem reporting_close : Reporting ["close"] close := by
  refine reporting_bind reporting_get fun s => ?_
  cases s.node.controller with
  | none => exact reporting_pure ()
  | some i => exact reporting_delegating (fun _ => .head _) (log_changing i _)

theorem reporting_getNode (r : NodeRef) (options : Option ConnectOptions) :
    Reporting ["getNode"] (getNode r options) := by
  refine reporting_bind reporting_get fun s => ?_
  cases s.node.controller with
  | none => exact reporting_throw rfl
  | some i =>
      cases r.resolve with
      | error e => exact reporting_throw rfl
      | ok id =>
          refine reporting_bind (reporting_delegating (fun _ => .head _) (log_changing i _))
            fun devices => ?_
          cases devices with
          | some devices => exact reporting_pure _
          | none => exact reporting_throw rfl

theorem reporting_commissionedNodes : Reporting [] commissionedNodes := by
  refine reporting_bind reporting_get fun s => ?_
  cases s.node.controller with
  | none => exact reporting_pure []
  | some i =>
      dsimp only
      cases s.host.stack.controllers[i]? with
      | none => exact reporting_pure []
      | some c => exact reporting_pure _

end ControllerNode

/-- A refusal of the stack or the storage is logged once, in an entry that names the operation and
holds what is returned or what lies right behind it; nothing else is logged. This holds of every
request to a bridge, unless a reset fails where it keeps the new unique id, and of everything that a
controller is asked for, unless the file of its location has no name for a namespace. Of these two,
and of all that is refused when a bridge looks for the marks of old bridges, nothing is logged. -/
theorem logged_once (r : Request) (s : Site) (c : ControllerSite) :
    After r.work s (fun _ s' => s'.host.log = s.host.log)
        (fun e s' => (r.LosesId s e s' → Unreported s e s') ∧
          (¬ r.LosesId s e s' → Reports r.operations s e s')) ∧
      Silent Bridge.isLegacy ∧
      After ControllerNode.setUp c (fun _ c' => c'.host.log = c.host.log)
        (fun e c' => (ControllerNode.Nameless c e → Unreported c e c') ∧
          (¬ ControllerNode.Nameless c e → Reports ["initialize"] c e c')) ∧
      Reporting ["close"] ControllerNode.close ∧
      (∀ n options, Reporting ["getNode"] (ControllerNode.getNode n options)) ∧
      Reporting [] ControllerNode.commissionedNodes :=
  ⟨r.after_work_log s, Bridge.silent_isLegacy, ControllerNode.after_setUp_log c,
    ControllerNode.reporting_close, ControllerNode.reporting_getNode,
    ControllerNode.reporting_commissionedNodes⟩

/-- A bridge in whose namespace an array stands for the document of the stack. -/
def Site.withArray : Site where
  host := { disk := { tree := [(["s"], .directory), (["s", "bridge-0"], .directory),
    (["s", "bridge-0", "root.json"], .file (.text "[]"))] } }
  bridge := { config := { storagePath := ⟨"s"⟩ } }

example : succeeds Bridge.isLegacy Site.withArray = false ∧
    (stateAfter Bridge.isLegacy Site.withArray).host.log.length = 0 := by decide +kernel

end DeviceBridge
