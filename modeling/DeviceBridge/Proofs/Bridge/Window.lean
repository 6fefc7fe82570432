import DeviceBridge.Proofs.Bridge.Run
import DeviceBridge.Proofs.Bridge.Site

/-!
# DeviceBridge.Proofs.Bridge.Window

The end of a commissioning window is told at most once and never too late. Apart from opening a
window, a step leaves the window and the events as they are or closes the open window and tells of
it (`Site.act_window`); a listener does so only for its own generation. Along a run the generations
that are told of therefore ascend (`Site.ascending_announcements`), and there are no more of them
than windows that were opened (`Site.events_le_openings`).
-/

namespace DeviceBridge

/-! ## Work that opens no window -/

/-- The window and the events are as they were, or the open window has been closed and its end told
of. -/
structure Bridge.Rests (b b' : Bridge) : Prop where
  generation : b'.window.generation = b.window.generation
  listeners : b'.listeners = b.listeners
  told : b'.window.isOpen = b.window.isOpen ∧ b'.events = b.events ∨
    b.window.isOpen = true ∧ b'.window.isOpen = false ∧
      b'.events = b.events ++ [.commissioningWindowClosed]

namespace Bridge

theorem Rests.refl (b : Bridge) : b.Rests b := ⟨rfl, rfl, .inl ⟨rfl, rfl⟩⟩

theorem Rests.trans {b b' b'' : Bridge} (h : b.Rests b') (h' : b'.Rests b'') : b.Rests b'' := by
  refine ⟨h'.generation.trans h.generation, h'.listeners.trans h.listeners, ?_⟩
  rcases h.told with ⟨ho, he⟩ | ⟨ho, hc, he⟩
  · rw [← ho, ← he]
    exact h'.told
  · rcases h'.told with ⟨ho', he'⟩ | ⟨ho', -, -⟩
    · exact .inr ⟨ho, ho'.trans hc, he'.trans he⟩
    · rw [hc] at ho'
      contradiction

theorem rests_markWindowClosed (generation : Nat) (b : Bridge) :
    b.Rests (markWindowClosed generation b) := by
  unfold markWindowClosed
  split
  · next h => exact ⟨rfl, rfl, .inr ⟨h.1, rfl, rfl⟩⟩
  · exact .refl b

theorem rests_forget (b : Bridge) : b.Rests b.forget := by
  have h := rests_markWindowClosed b.window.generation
    { b with node := none, devices := [], uniqueId := none }
  exact ⟨h.generation, h.listeners, h.told⟩

/-- Work that opens no window. -/
def Quiet {α : Type} (x : Bridging α) : Prop :=
  ∀ s, Leaves x s fun s' => s.bridge.Rests s'.bridge

variable {α β : Type}

theorem quiet_bind {x : Bridging α} {f : α → Bridging β} (h : Quiet x) (hf : ∀ a, Quiet (f a)) :
    Quiet (x >>= f) := fun s =>
  after_bind ((h s).mono
    (fun a s₁ h₁ => (hf a s₁).mono (fun _ _ h₂ => h₁.trans h₂) (fun _ _ h₂ => h₁.trans h₂))
    (fun _ _ h₁ => h₁))

theorem quiet_pure (a : α) : Quiet (pure a) := fun s => after_pure (.refl s.bridge)

theorem quiet_get : Quiet get := fun s => after_get (.refl s.bridge)

theorem quiet_throw (e : BridgeError) : Quiet (throw e : Bridging α) := fun s =>
  after_throw (.refl s.bridge)

theorem quiet_update {f : Bridge → Bridge} (h : ∀ b : Bridge, b.Rests (f b)) : Quiet (update f) :=
  fun s => after_modify (h s.bridge)

theorem quiet_onHost (x : EStateM BridgeError Host α) : Quiet (onHost x) := fun s =>
  after_onHost (.intro (fun _ _ _ => .refl s.bridge) fun _ _ _ => .refl s.bridge)

theorem quiet_storing (x : Storing α) : Quiet (storing x) := quiet_onHost _

theorem quiet_hosted (x : Hosted α) : Quiet (hosted x) := quiet_onHost _

theorem quiet_delegating (operation : String) (x : Hosted α) : Quiet (delegating operation x) :=
  quiet_onHost _

theorem quiet_logging {x : Bridging α} (operation : String) (h : Quiet x) :
    Quiet (logging operation x) := fun s => after_logging (h s)

theorem quiet_heldNode : Quiet heldNode := by
  refine quiet_bind quiet_get fun s => ?_
  cases s.bridge.node with
  | some i => exact quiet_pure i
  | none => exact quiet_throw _

/-! ## Which work opens no window -/

theorem quiet_resolveUniqueId (bits : RandomBits) : Quiet (resolveUniqueId bits) := by
  have hlegacy : Quiet isLegacy := by
    refine quiet_bind quiet_get fun s => quiet_bind (quiet_storing _) fun marked => ?_
    cases marked
    · exact quiet_pure false
    · exact quiet_bind (quiet_storing _) fun _ => quiet_pure _
  refine quiet_bind quiet_get fun s => quiet_bind (quiet_storing _) fun kept => ?_
  cases kept with
  | some id => exact quiet_pure id
  | none =>
      refine quiet_bind hlegacy fun legacy => ?_
      cases legacy <;> exact quiet_pure _

theorem quiet_furnish (node : Nat) (id : UniqueId) : Quiet (furnish node id) :=
  quiet_bind (quiet_hosted _) fun _ => quiet_bind quiet_get fun _ => quiet_storing _

theorem quiet_init (bits : RandomBits) : Quiet (init bits) := by
  have hbuild : Quiet (buildNode bits) := by
    refine quiet_bind (quiet_resolveUniqueId bits) fun id => quiet_bind quiet_get fun s =>
      quiet_bind (quiet_hosted _) fun node => fun s => ?_
    exact after_furnish_or ((quiet_furnish node id s).mono (fun _ _ h => h) fun _ s' h => by
      rw [bridge_abandon]
      exact h)
  refine quiet_bind quiet_get fun s => ?_
  cases s.bridge.node.isSome with
  | true => exact quiet_throw _
  | false =>
      exact quiet_bind (quiet_logging _ hbuild) fun _ => quiet_update fun b =>
        ⟨rfl, rfl, .inl ⟨rfl, rfl⟩⟩

theorem quiet_close : Quiet close := fun s => by
  refine .intro (fun a s' hx => ?_) (fun e s' hx => ?_) <;>
  · unfold close at hx
    split at hx
    · cases hx <;> exact rests_forget s.bridge
    · split at hx <;> cases hx <;> exact rests_forget s.bridge

theorem quiet_renew (reset : Bool) (bits resetBits : RandomBits) :
    Quiet (renew reset bits resetBits) := by
  have hstart : Quiet (startOver resetBits) :=
    quiet_bind quiet_heldNode fun node => quiet_bind (quiet_delegating _ _) fun _ =>
      quiet_bind quiet_close fun _ => quiet_bind quiet_get fun s =>
        quiet_bind (quiet_storing _) fun _ => quiet_init resetBits
  refine quiet_bind quiet_close fun _ => quiet_bind (quiet_init bits) fun _ => ?_
  cases reset
  · exact quiet_pure _
  · exact hstart

theorem quiet_addEndpoint (deviceType : String) (id : EndpointId) (info : DeviceInfo)
    (attributes : List (String × Json.Value)) :
    Quiet (addEndpoint deviceType id info attributes) := by
  refine quiet_bind quiet_get fun s => ?_
  dsimp only
  cases s.bridge.devices.contains id with
  | true => exact quiet_throw _
  | false =>
      cases s.bridge.node with
      | none => exact quiet_throw _
      | some node =>
          cases DeviceType.parse deviceType with
          | error e => exact quiet_throw _
          | ok type =>
              exact quiet_bind (quiet_delegating _ _) fun _ => quiet_update fun b =>
                ⟨rfl, rfl, .inl ⟨rfl, rfl⟩⟩

theorem quiet_setEndpointState (id : EndpointId) (cluster name : String) (value : Json.Value) :
    Quiet (setEndpointState id cluster name value) := by
  refine quiet_bind quiet_get fun s => ?_
  cases s.bridge.devices.get? id with
  | none => exact quiet_pure _
  | some d => exact quiet_delegating _ _

theorem quiet_start (now : Int64) : Quiet (start now) := by
  have hrecord : Quiet (recordLastStart now) :=
    quiet_bind quiet_get fun s => quiet_bind (quiet_storing _) fun _ =>
      keepStart_of quiet_storing (quiet_throw _) _ _
  refine quiet_bind quiet_get fun s => ?_
  cases s.bridge.devices.isEmpty with
  | true => exact quiet_throw _
  | false =>
      exact quiet_bind quiet_heldNode fun _ => quiet_bind (quiet_delegating _ _) fun _ =>
        quiet_logging _ hrecord

theorem quiet_closeWindow : Quiet closeWindow :=
  quiet_bind quiet_heldNode fun _ => quiet_bind (quiet_delegating _ _) fun _ =>
    quiet_update fun b => rests_markWindowClosed b.window.generation b

theorem quiet_removeFabric (index : UInt8) : Quiet (removeFabric index) :=
  quiet_bind quiet_heldNode fun _ => quiet_delegating _ _

/-- Apart from opening a window, no request opens one. -/
theorem quiet_work {r : Request} (h : r ≠ .openWindow) : Quiet r.work := by
  cases r with
  | init bits => exact quiet_init bits
  | close => exact quiet_close
  | renew reset bits resetBits => exact quiet_renew reset bits resetBits
  | addEndpoint deviceType id info attributes =>
      exact quiet_addEndpoint deviceType id info attributes
  | setEndpointState id cluster name value => exact quiet_setEndpointState id cluster name value
  | start now => exact quiet_start now
  | openWindow => exact absurd rfl h
  | closeWindow => exact quiet_closeWindow
  | removeFabric index => exact quiet_removeFabric index

/-- Opening a window makes a new generation, unless it fails. -/
theorem after_openWindow (s : Site) :
    After openWindow s
      (fun _ s' => s'.bridge.window = ⟨true, s.bridge.window.generation + 1⟩ ∧
        s'.bridge.events = s.bridge.events)
      (fun _ s' => s'.bridge = s.bridge) := by
  refine after_bind (after_heldNode (fun i _ => after_bind (after_delegating ?_)) fun _ => rfl)
  refine Host.after_changing (fun st hst => ?_) fun _ _ => rfl
  obtain ⟨n, n', hn, hopen, rfl⟩ := Stack.onNode_eq_ok_iff.mp hst
  -- The node has a window now, so that there is something to listen to.
  obtain ⟨k, hk⟩ : ∃ k, n'.window = some k := by
    unfold ServerNode.openWindow at hopen
    split at hopen
    · contradiction
    · exact ⟨_, by rw [← Except.ok.inj hopen]⟩
  have hlookup : ((s.host.stack.nodes.set i n')[i]?).bind ServerNode.window = some k := by
    rw [List.getElem?_set_self (List.getElem?_eq_some_iff.mp hn).1, Option.bind_some, hk]
  refine after_modify ?_
  dsimp only
  rw [hlookup]
  exact ⟨rfl, rfl⟩

end Bridge

/-! ## Steps -/

namespace Site

/-- The generation in whose name a step tells of the end of a window: a listener speaks for its own,
everything else for the newest. -/
def speaker (s : Site) : Action → Nat
  | .deliver k =>
    match s.bridge.listeners[k]? with
    | some l => l.generation
    | none => s.bridge.window.generation
  | _ => s.bridge.window.generation

/-- The generations of which a step tells, one for each event that it adds. -/
def announced (s : Site) (a : Action) : List Nat :=
  List.replicate ((s.act a).bridge.events.length - s.bridge.events.length) (s.speaker a)

/-- How many windows a step opens. -/
def opens (s : Site) : Action → Nat
  | .request .openWindow =>
    match Bridge.openWindow s with
    | .ok _ _ => 1
    | .error _ _ => 0
  | _ => 0

/-- What a step can do to the window and the events. -/
inductive WindowStep (s : Site) (a : Action) : Prop
  | rests (ho : s.opens a = 0) (hw : (s.act a).bridge.window = s.bridge.window)
      (he : (s.act a).bridge.events = s.bridge.events)
  | tells (ho : s.opens a = 0) (hopen : s.bridge.window.isOpen = true)
      (hw : (s.act a).bridge.window = ⟨false, s.bridge.window.generation⟩)
      (he : (s.act a).bridge.events = s.bridge.events ++ [.commissioningWindowClosed])
      (hs : s.speaker a = s.bridge.window.generation)
  | opens (ho : s.opens a = 1)
      (hw : (s.act a).bridge.window = ⟨true, s.bridge.window.generation + 1⟩)
      (he : (s.act a).bridge.events = s.bridge.events)

theorem windowStep_of_rests {s : Site} {a : Action} (ho : s.opens a = 0)
    (hs : s.speaker a = s.bridge.window.generation)
    (h : s.bridge.Rests (s.act a).bridge) : s.WindowStep a := by
  have hgen := h.generation
  rcases h.told with ⟨hw, he⟩ | ⟨hopen, hw, he⟩
  · refine .rests ho ?_ he
    cases hb : (s.act a).bridge.window
    cases hb' : s.bridge.window
    simp_all
  · refine .tells ho hopen ?_ he hs
    cases hb : (s.act a).bridge.window
    simp_all

theorem windowStep_deliver (s : Site) (k : Nat) : s.WindowStep (.deliver k) := by
  have hact : s.act (.deliver k) = Bridge.deliver k s := rfl
  unfold Bridge.deliver at hact
  cases hl : s.bridge.listeners[k]? with
  | none =>
      rw [hl] at hact
      exact .rests rfl (by rw [hact]) (by rw [hact])
  | some l =>
      have hspeaker : s.speaker (.deliver k) = l.generation := by simp only [speaker, hl]
      rw [hl] at hact
      dsimp only at hact
      split at hact
      · unfold Bridge.markWindowClosed at hact
        split at hact
        · next h =>
          refine .tells rfl h.1 ?_ (by rw [hact]) (hspeaker.trans h.2.symm)
          rw [hact]
        · exact .rests rfl (by rw [hact]) (by rw [hact])
      · exact .rests rfl (by rw [hact]) (by rw [hact])

/-- What each step does to the window and the events. -/
theorem act_window (s : Site) (a : Action) : s.WindowStep a := by
  cases a with
  | deliver k => exact windowStep_deliver s k
  | incident i => exact .rests rfl rfl rfl
  | outside t => exact .rests rfl rfl rfl
  | request r =>
      by_cases hr : r = .openWindow
      · subst hr
        have hafter := Bridge.after_openWindow s
        have hact : s.act (.request .openWindow) = stateAfter Bridge.openWindow s := rfl
        unfold stateAfter at hact
        cases hx : Bridge.openWindow s with
        | ok u s' =>
            rw [hx] at hact
            obtain ⟨hw, he⟩ := hafter.of_ok hx
            exact .opens (by simp only [opens, hx]) (by rw [hact, hw]) (by rw [hact, he])
        | error e s' =>
            rw [hx] at hact
            have hb := hafter.of_error hx
            exact .rests (by simp only [opens, hx]) (by rw [hact, hb]) (by rw [hact, hb])
      · refine windowStep_of_rests ?_ rfl (Bridge.quiet_work hr s).stateAfter
        unfold opens
        split
        · next h => exact absurd (Action.request.inj h) hr
        · rfl

/-- A listener for another generation than the newest changes neither the window nor the events. -/
theorem act_deliver_of_ne {s : Site} {k : Nat} {l : Listener}
    (hl : s.bridge.listeners[k]? = some l) (hne : l.generation ≠ s.bridge.window.generation) :
    (s.act (.deliver k)).bridge.window = s.bridge.window ∧
      (s.act (.deliver k)).bridge.events = s.bridge.events := by
  cases s.act_window (.deliver k) with
  | rests ho hw he => exact ⟨hw, he⟩
  | tells ho hopen hw he hs =>
      simp only [speaker, hl] at hs
      exact absurd hs hne
  | opens ho hw he => contradiction

/-! ## Runs -/

/-- The generations of which a run tells, in order. -/
def announcements (s : Site) : List Action → List Nat
  | [] => []
  | a :: as => s.announced a ++ (s.act a).announcements as

/-- How many windows a run opens. -/
def openings (s : Site) : List Action → Nat
  | [] => 0
  | a :: as => s.opens a + (s.act a).openings as

theorem announced_of_events {s : Site} {a : Action}
    (he : (s.act a).bridge.events = s.bridge.events) : s.announced a = [] := by
  simp [announced, he]

/-- A step tells of the newest generation only. -/
theorem eq_generation_of_mem_announced {s : Site} {a : Action} {g : Nat} (h : g ∈ s.announced a) :
    g = s.bridge.window.generation := by
  cases s.act_window a with
  | rests ho hw he | opens ho hw he => simp [announced_of_events he] at h
  | tells ho hopen hw he hs => rw [List.eq_of_mem_replicate h, hs]

/-- All events are those announced: one each. -/
theorem events_run (s : Site) (as : List Action) :
    (s.run as).bridge.events = s.bridge.events ++
      List.replicate (s.announcements as).length .commissioningWindowClosed := by
  induction as generalizing s with
  | nil => simp [announcements]
  | cons a as ih =>
      rw [run_cons, ih, announcements, List.length_append, ← List.replicate_append_replicate,
        ← List.append_assoc]
      congr 1
      cases s.act_window a with
      | rests ho hw he | opens ho hw he => simp [announced_of_events he, he]
      | tells ho hopen hw he hs => simp [announced, he]

theorem generation_run (s : Site) (as : List Action) :
    (s.run as).bridge.window.generation = s.bridge.window.generation + s.openings as := by
  induction as generalizing s with
  | nil => rfl
  | cons a as ih =>
      rw [run_cons, ih, openings]
      cases s.act_window a with
      | rests ho hw he =>
          rw [ho, hw]
          omega
      | tells ho hopen hw he hs | opens ho hw he =>
          simp only [ho, hw]
          omega

/-- No event without a window, and none for the window that is open. -/
theorem events_le_openings (s : Site) (as : List Action) :
    (s.run as).bridge.events.length + (s.run as).bridge.window.isOpen.toNat ≤
      s.bridge.events.length + s.bridge.window.isOpen.toNat + s.openings as := by
  induction as generalizing s with
  | nil => exact Nat.le_refl _
  | cons a as ih =>
      refine Nat.le_trans (ih (s.act a)) ?_
      rw [openings]
      cases s.act_window a with
      | rests ho hw he =>
          rw [ho, hw, he]
          omega
      | tells ho hopen hw he hs =>
          rw [ho, hw, he, hopen, List.length_append]
          simp only [Bool.toNat_true, Bool.toNat_false, List.length_singleton]
          omega
      | opens ho hw he =>
          rw [ho, hw, he]
          simp only [Bool.toNat_true]
          omega

/-- A run tells of generations from the present one on; of that one only while its window is
open. -/
theorem le_of_mem_announcements {s : Site} {as : List Action} {g : Nat}
    (h : g ∈ s.announcements as) :
    s.bridge.window.generation + 1 ≤ g + s.bridge.window.isOpen.toNat ∧
      g ≤ (s.run as).bridge.window.generation := by
  induction as generalizing s with
  | nil => simp [announcements] at h
  | cons a as ih =>
      rw [announcements] at h
      rw [run_cons]
      cases s.act_window a with
      | rests ho hw he =>
          rw [announced_of_events he, List.nil_append] at h
          rw [← hw]
          exact ih h
      | opens ho hw he =>
          rw [announced_of_events he, List.nil_append] at h
          obtain ⟨hlow, hhigh⟩ := ih h
          rw [hw] at hlow
          simp only [Bool.toNat_true] at hlow
          exact ⟨by omega, hhigh⟩
      | tells ho hopen hw he hs =>
          rcases List.mem_append.mp h with h | h
          · obtain rfl := eq_generation_of_mem_announced h
            have hrun := generation_run (s.act a) as
            rw [hw] at hrun
            rw [hopen]
            exact ⟨Nat.le_refl _, by rw [hrun]; exact Nat.le_add_right _ _⟩
          · obtain ⟨hlow, hhigh⟩ := ih h
            rw [hw] at hlow
            simp only [Bool.toNat_false] at hlow
            exact ⟨by omega, hhigh⟩

/-- Along a run the generations that are told of ascend, so that each is told of at most once. -/
theorem ascending_announcements (s : Site) (as : List Action) :
    (s.announcements as).Pairwise (· < ·) := by
  induction as generalizing s with
  | nil => exact List.Pairwise.nil
  | cons a as ih =>
      rw [announcements]
      cases s.act_window a with
      | rests ho hw he | opens ho hw he =>
          rw [announced_of_events he]
          exact ih (s.act a)
      | tells ho hopen hw he hs =>
          refine List.pairwise_append.mpr ⟨?_, ih (s.act a), fun g hg g' hg' => ?_⟩
          · simp [announced, he]
          · obtain rfl := eq_generation_of_mem_announced hg
            have hlow := (le_of_mem_announcements hg').1
            rw [hw] at hlow
            simp only [Bool.toNat_false] at hlow
            omega

/-- The end of a window is told at most once and never too late. Whatever happens to a new bridge
and in whatever order its listeners get their turns, each opened generation is told of at most once,
and only while it is the newest; a listener of an older one changes nothing; and there are never
more events than windows that were opened and are open no more. -/
theorem window_told_once (h : Host) (c : BridgeConfig) (as : List Action) :
    let start : Site := ⟨h, { config := c }⟩
    let s := start.run as
    s.bridge.events =
        List.replicate (start.announcements as).length .commissioningWindowClosed ∧
      (start.announcements as).Pairwise (· < ·) ∧
      (∀ g ∈ start.announcements as, 0 < g ∧ g ≤ start.openings as) ∧
      (∀ a, ∀ g ∈ s.announced a, g = s.bridge.window.generation) ∧
      (∀ k l, s.bridge.listeners[k]? = some l → l.generation ≠ s.bridge.window.generation →
        (s.act (.deliver k)).bridge.window = s.bridge.window ∧
          (s.act (.deliver k)).bridge.events = s.bridge.events) ∧
      s.bridge.window.generation = start.openings as ∧
      s.bridge.events.length + (if s.bridge.window.isOpen then 1 else 0) ≤ start.openings as := by
  intro start s
  have hgen : s.bridge.window.generation = start.openings as := by
    have := generation_run start as
    simpa [start] using this
  refine ⟨?_, ascending_announcements start as, fun g hg => ?_, fun a g hg => ?_,
    fun k l hl hne => act_deliver_of_ne hl hne, hgen, ?_⟩
  · simpa [start] using events_run start as
  · obtain ⟨hlow, hhigh⟩ := le_of_mem_announcements hg
    rw [← hgen]
    exact ⟨by simp [start] at hlow; omega, hhigh⟩
  · exact eq_generation_of_mem_announced hg
  · have hle := events_le_openings start as
    cases hopen : s.bridge.window.isOpen <;> simp [start, s, hopen] at hle ⊢ <;> omega

end Site

end DeviceBridge
