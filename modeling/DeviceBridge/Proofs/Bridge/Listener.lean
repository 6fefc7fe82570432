import DeviceBridge.Proofs.Bridge.Lifecycle
import DeviceBridge.Proofs.Bridge.Registry
import DeviceBridge.Proofs.Stack.Window

/-!
# DeviceBridge.Proofs.Bridge.Listener

Whoever waits for the end of the newest window is not lost. While the bridge takes its window for
open, it holds a node that owes a notification for that window, and a listener of the newest
generation is pending which waits for just that notification; a bridge that takes its window for
closed holds no node with an open one (`Site.Attended`). Every step preserves this
(`Site.attended_act`): work that opens no window does because of what it leaves of each node
(`NodesSettle`).
-/

namespace DeviceBridge

/-- The end of the newest window is waited for. -/
structure Site.Attended (s : Site) : Prop where
  generation : ∀ l ∈ s.bridge.listeners, l.generation ≤ s.bridge.window.generation
  unheld : s.bridge.node = none → s.bridge.window.isOpen = false
  held : ∀ i, s.bridge.node = some i →
    ∃ n, s.nodes[i]? = some n ∧ (s.bridge.window.isOpen = false → n.window = none)
  awaited : s.bridge.window.isOpen = true →
    ∃ i n k, s.bridge.node = some i ∧ s.nodes[i]? = some n ∧ n.Owes k ∧
      ⟨i, k, s.bridge.window.generation⟩ ∈ s.bridge.listeners ∧
      ∀ l ∈ s.bridge.listeners, l.generation = s.bridge.window.generation →
        l = ⟨i, k, s.bridge.window.generation⟩

namespace Site

/-- A new bridge waits for nothing. -/
theorem attended_new (h : Host) (c : BridgeConfig) : Site.Attended ⟨h, { config := c }⟩ where
  generation l hl := by contradiction
  unheld _ := rfl
  held i hi := by contradiction
  awaited ho := by contradiction

variable {s s' : Site}

theorem Attended.of_settle (h : s.Attended) (hnode : s'.bridge.node = s.bridge.node)
    (hw : s'.bridge.window = s.bridge.window) (hl : s'.bridge.listeners = s.bridge.listeners)
    (hn : NodesSettle s.nodes s'.nodes) : s'.Attended where
  generation l hmem := by
    rw [hw]
    exact h.generation l (hl ▸ hmem)
  unheld hnone := by
    rw [hw]
    exact h.unheld (hnode ▸ hnone)
  held i hi := by
    obtain ⟨m, hm, hshut⟩ := h.held i (hnode ▸ hi)
    obtain ⟨n, hn, hmn⟩ := hn i m hm
    exact ⟨n, hn, fun hc => hmn.shut (hshut (hw ▸ hc))⟩
  awaited ho := by
    obtain ⟨i, m, k, hi, hm, howes, hmem, hall⟩ := h.awaited (hw ▸ ho)
    obtain ⟨n, hn, hmn⟩ := hn i m hm
    rw [hw, hl]
    exact ⟨i, n, k, hnode.trans hi, hn, hmn.owes k howes, hmem, hall⟩

theorem Attended.of_host (h : s.Attended) {h' : Host}
    (hn : NodesSettle s.nodes h'.stack.nodes) : Site.Attended { s with host := h' } :=
  h.of_settle rfl rfl rfl hn

/-- A window that is closed is not waited for. -/
theorem Attended.of_closed (hc : s.bridge.window.isOpen = false)
    (hg : ∀ l ∈ s.bridge.listeners, l.generation ≤ s.bridge.window.generation)
    (hn : ∀ i, s.bridge.node = some i → ∃ n, s.nodes[i]? = some n ∧ n.window = none) :
    s.Attended where
  generation := hg
  unheld _ := hc
  held i hi := by
    obtain ⟨n, hn, hw⟩ := hn i hi
    exact ⟨n, hn, fun _ => hw⟩
  awaited ho := by
    rw [hc] at ho
    contradiction

/-- The listener of the newest generation is not ready before the window has closed. -/
theorem Attended.windowless_of_isReady (h : s.Attended) {l : Listener}
    (hl : l ∈ s.bridge.listeners) (ho : s.bridge.window.isOpen = true)
    (hg : l.generation = s.bridge.window.generation)
    (hr : Bridge.isReady s.host.stack l = true) :
    ∀ i, s.bridge.node = some i → ∃ n, s.nodes[i]? = some n ∧ n.window = none := by
  obtain ⟨i, n, k, hi, hn, howes, -, hall⟩ := h.awaited ho
  obtain rfl := hall l hl hg
  intro j hj
  obtain rfl := Option.some.inj (hi.symm.trans hj)
  have hresolved : n.notifications.isResolved k = true := by
    simpa [Bridge.isReady, Stack.isResolved, hn] using hr
  have hw := howes.isSome_window
  rw [hresolved] at hw
  exact ⟨n, hn, by simpa using hw⟩

end Site

/-! ## Work of the stack -/

/-- Work after which every node has settled. -/
def Host.Settling {ε α : Type} (x : EStateM ε Host α) : Prop :=
  ∀ h, Leaves x h fun h' => NodesSettle h.stack.nodes h'.stack.nodes

namespace Host

theorem settling_onNode (i : Nat) {f : ServerNode → Except StackError ServerNode}
    (hf : ∀ m n, f m = .ok n → m.Settles n) : Settling (changing (·.onNode i f)) := by
  refine fun _ => after_changing (fun st hst => ?_) fun _ _ => .refl _
  obtain ⟨m, n, hm, hn, rfl⟩ := Stack.onNode_eq_ok_iff.mp hst
  exact .set hm (hf m n hn)

theorem settling_eraseNode (i : Nat) : Settling (eraseNode i) := by
  refine fun h => after_bind (after_get ?_)
  cases h.stack.nodes[i]? with
  | none => exact after_throw (.refl _)
  | some n =>
      have hstop : NodesSettle h.stack.nodes (h.stack.updateNode i ServerNode.stopErased).nodes :=
        .modify (f := ServerNode.stopErased) (fun _ => ServerNode.settles_of_eq rfl rfl) i _
      exact after_bind (after_modify (after_storing
        (.intro (fun _ _ _ => hstop) fun _ _ _ => hstop)))

/-- A node that is made has no window. -/
theorem settling_createNode (config : ServerNodeConfig) (h : Host) :
    After (createNode config) h
      (fun i h' => NodesSettle h.stack.nodes h'.stack.nodes ∧
        ∃ n, h'.stack.nodes[i]? = some n ∧ n.window = none)
      (fun _ h' => NodesSettle h.stack.nodes h'.stack.nodes) := by
  refine after_bind (after_get ?_)
  dsimp only
  cases h.stack.createFailure with
  | some text => exact after_bind (after_modify (after_throw (.refl _)))
  | none =>
      refine after_bind (after_storing (.intro (fun _ _ _ => ?_) fun _ _ _ => .refl _))
      exact after_bind (after_modify (after_pure
        ⟨.append _ _, _, List.getElem?_concat_length, rfl⟩))

end Host

/-- What happens to the stack without the bridge opens no window. -/
theorem Incident.settling (i : Incident) : Host.Settling i.work := by
  cases i with
  | refuseNode text => exact fun h => after_modify (.refl _)
  | closeNode node => exact Host.settling_onNode node fun m n => ServerNode.settles_close
  | eraseNode node => exact Host.settling_eraseNode node
  | endWindow node =>
      exact Host.settling_onNode node fun m n hn =>
        Except.ok.inj hn ▸ ServerNode.settles_endWindow m
  | setCommissioned node commissioned =>
      exact Host.settling_onNode node fun m n hn =>
        Except.ok.inj hn ▸ ServerNode.settles_of_eq rfl rfl
  | addFabric node f =>
      exact Host.settling_onNode node fun m n hn =>
        Except.ok.inj hn ▸ ServerNode.settles_of_eq rfl rfl

/-! ## Work of the bridge -/

namespace Bridge

/-- Work that loses nobody who waits. -/
abbrev Attentive {α : Type} (x : Bridging α) : Prop := Maintains Site.Attended x

variable {α β : Type}

theorem attentive_update {f : Bridge → Bridge} (hn : ∀ b : Bridge, (f b).node = b.node)
    (hw : ∀ b : Bridge, (f b).window = b.window)
    (hl : ∀ b : Bridge, (f b).listeners = b.listeners) : Attentive (update f) := fun s hs =>
  after_update (hs.of_settle (hn s.bridge) (hw s.bridge) (hl s.bridge) (.refl _))

theorem attentive_storing (x : Storing α) : Attentive (storing x) := fun _ hs =>
  after_storing (.intro (fun _ _ _ => hs.of_host (.refl _)) fun _ _ _ => hs.of_host (.refl _))

theorem attentive_delegating (operation : String) {x : Hosted α} (hx : Host.Settling x) :
    Attentive (delegating operation x) := fun s hs =>
  after_delegating ((hx s.host).mono (fun _ _ h => hs.of_host h) fun _ _ h => hs.of_host h)

theorem attentive_logging {x : Bridging α} (operation : String) (hx : Attentive x) :
    Attentive (logging operation x) := fun s hs =>
  after_logging ((hx s hs).mono (fun _ _ h => h) fun _ _ h => h.of_host (.refl _))

theorem attentive_heldNode : Attentive heldNode := fun _ hs =>
  after_heldNode (fun _ _ => hs) fun _ => hs

/-! ## Making a node -/

variable {s : Site}

/-- The node that a bridge makes has no window. -/
theorem after_buildNode_window (bits : RandomBits) (s : Site) :
    After (buildNode bits) s
      (fun r s' => s'.bridge = s.bridge ∧ NodesSettle s.nodes s'.nodes ∧
        ∃ n, s'.nodes[r.1]? = some n ∧ n.window = none)
      (fun _ s' => s'.bridge = s.bridge ∧ NodesSettle s.nodes s'.nodes) := by
  have hfurnish (i : Nat) (id : UniqueId) (s : Site) : Leaves (furnish i id) s fun s' =>
      s'.bridge = s.bridge ∧ NodesSettle s.nodes s'.nodes := by
    have hadd := Host.settling_onNode i (f := (·.addAggregator aggregatorId))
      fun m n => ServerNode.settles_addAggregator
    refine after_bind (after_hosted ((hadd s.host).mono (fun _ h₁ hn => ?_) fun _ _ hn =>
      ⟨rfl, hn⟩))
    exact after_bind (after_get (after_storing (.intro (fun _ _ _ => ⟨rfl, hn⟩)
      fun _ _ _ => ⟨rfl, hn⟩)))
  have habandon (i : Nat) (s : Site) : NodesSettle s.nodes (abandon i s).nodes := by
    rw [abandon_eq_stateAfter]
    exact (Host.settling_onNode i (f := ServerNode.close)
      (fun m n => ServerNode.settles_close) s.host).stateAfter
  refine after_bind ((after_resolveUniqueId bits s).mono (fun id s₁ h₁ => ?_) fun _ s₁ h₁ =>
    ⟨h₁.bridge, .of_eq (congrArg Stack.nodes h₁.stack)⟩)
  obtain ⟨⟨hb₁, hst₁, -, -⟩, -⟩ := h₁
  have hn₁ : NodesSettle s.nodes s₁.nodes := .of_eq (congrArg Stack.nodes hst₁)
  refine after_bind (after_get (after_bind (after_hosted ((Host.settling_createNode _ _).mono
    (fun i h₂ h => ?_) fun _ _ h => ⟨hb₁, hn₁.trans h⟩))))
  obtain ⟨hn, n, hi, hw⟩ := h
  have hn₂ := hn₁.trans hn
  refine after_furnish_or ((hfurnish i id { s₁ with host := h₂ }).mono (fun _ s₃ h₃ => ?_)
    fun _ s₃ h₃ => ?_)
  · obtain ⟨n', hi', hn'⟩ := h₃.2 i n hi
    exact ⟨h₃.1.trans hb₁, hn₂.trans h₃.2, n', hi', hn'.shut hw⟩
  · exact ⟨bridge_abandon.trans (h₃.1.trans hb₁), hn₂.trans (h₃.2.trans (habandon i s₃))⟩

theorem attentive_init (bits : RandomBits) : Attentive (init bits) := by
  refine fun s hs => after_bind (after_get ?_)
  cases hnode : s.bridge.node with
  | some i => exact after_throw hs
  | none =>
      have hc := hs.unheld hnode
      refine after_bind (after_logging ((after_buildNode_window bits s).mono (fun r s₁ h₁ => ?_)
        fun _ s₁ h₁ => ?_))
      · obtain ⟨hb, -, n, hi, hw⟩ := h₁
        refine after_update (.of_closed (hb ▸ hc) (hb ▸ hs.generation) fun i hri => ?_)
        obtain rfl := Option.some.inj hri
        exact ⟨n, hi, hw⟩
      · exact hs.of_settle (by rw [h₁.1]) (by rw [h₁.1]) (by rw [h₁.1]) h₁.2

/-! ## Requests -/

theorem attentive_close : Attentive close := by
  have hforget (b : Bridge) (h : Host)
      (hg : ∀ l ∈ b.listeners, l.generation ≤ b.window.generation) :
      Site.Attended ⟨h, b.forget⟩ :=
    .of_closed (isOpen_forget b) (by simpa using hg) (by simp)
  refine fun s hs => (after_close s).mono (fun _ s' h => ?_) fun _ s' h => ?_
  all_goals
    have hs' := hforget s.bridge s'.host hs.generation
    rw [← h.1] at hs'
    exact hs'

theorem attentive_renew (reset : Bool) (bits resetBits : RandomBits) :
    Attentive (renew reset bits resetBits) := by
  have hstart : Attentive (startOver resetBits) :=
    maintains_bind attentive_heldNode fun node =>
      maintains_bind (attentive_delegating _ (Host.settling_eraseNode node)) fun _ =>
        maintains_bind attentive_close fun _ => maintains_bind maintains_get fun s =>
          maintains_bind (attentive_storing _) fun _ => attentive_init resetBits
  refine maintains_bind attentive_close fun _ => maintains_bind (attentive_init bits) fun _ => ?_
  cases reset
  · exact maintains_pure _
  · exact hstart

theorem attentive_addEndpoint (deviceType : String) (id : EndpointId) (info : DeviceInfo)
    (attributes : List (String × Json.Value)) :
    Attentive (addEndpoint deviceType id info attributes) := by
  refine maintains_bind maintains_get fun s => ?_
  dsimp only
  cases s.bridge.devices.contains id with
  | true => exact maintains_throw _
  | false =>
      cases s.bridge.node with
      | none => exact maintains_throw _
      | some node =>
          cases DeviceType.parse deviceType with
          | error e => exact maintains_throw _
          | ok type =>
              exact maintains_bind
                (attentive_delegating _ (Host.settling_onNode node fun m n =>
                  ServerNode.settles_onAggregator))
                fun _ => attentive_update (fun _ => rfl) (fun _ => rfl) fun _ => rfl

theorem attentive_setEndpointState (id : EndpointId) (cluster name : String)
    (value : Json.Value) : Attentive (setEndpointState id cluster name value) := by
  refine maintains_bind maintains_get fun s => ?_
  cases s.bridge.devices.get? id with
  | none => exact maintains_pure _
  | some d =>
      exact attentive_delegating _ (Host.settling_onNode d.node fun m n =>
        ServerNode.settles_onAggregator)

theorem attentive_start (now : Int64) : Attentive (start now) := by
  have hrecord : Attentive (recordLastStart now) :=
    maintains_bind maintains_get fun s => maintains_bind (attentive_storing _) fun _ =>
      keepStart_of attentive_storing (maintains_throw _) _ _
  refine maintains_bind maintains_get fun s => ?_
  cases s.bridge.devices.isEmpty with
  | true => exact maintains_throw _
  | false =>
      exact maintains_bind attentive_heldNode fun node =>
        maintains_bind (attentive_delegating _ (Host.settling_onNode node fun _ _ =>
          ServerNode.settles_start)) fun _ => attentive_logging _ hrecord

theorem attentive_removeFabric (index : UInt8) : Attentive (removeFabric index) :=
  maintains_bind attentive_heldNode fun node =>
    attentive_delegating _ (Host.settling_onNode node fun _ _ => ServerNode.settles_removeFabric)

/-- The listener of a window that is opened waits for the notification that this window owes. -/
theorem attentive_openWindow : Attentive openWindow := by
  refine fun s hs => after_bind (after_heldNode (fun i hi => ?_) fun _ => hs)
  refine after_bind (after_delegating (Host.after_changing (fun st hst => ?_) fun e _ =>
    hs.of_host (.refl _)))
  obtain ⟨m, n, hm, hn, rfl⟩ := Stack.onNode_eq_ok_iff.mp hst
  obtain ⟨k, hk, howes⟩ := ServerNode.owes_openWindow hn
  have hget : (s.nodes.set i n)[i]? = some n :=
    List.getElem?_set_self (List.getElem?_eq_some_iff.mp hm).1
  refine after_modify ?_
  dsimp only
  rw [hget, Option.bind_some, hk]
  refine ⟨fun l hl => ?_, fun hnone => ?_, fun j hj => ?_, fun _ => ?_⟩
  · rcases List.mem_append.mp hl with hl | hl
    · exact Nat.le_succ_of_le (hs.generation l hl)
    · obtain rfl := List.mem_singleton.mp hl
      exact Nat.le_refl _
  · exact absurd (hi.symm.trans hnone) (by simp)
  · obtain rfl := Option.some.inj (hi.symm.trans hj)
    exact ⟨n, hget, fun hc => by contradiction⟩
  · refine ⟨i, n, k, hi, hget, howes, List.mem_append_right _ (List.mem_singleton_self _), ?_⟩
    intro l hl hg
    rcases List.mem_append.mp hl with hl | hl
    · have hle := hs.generation l hl
      simp only at hg
      omega
    · exact List.mem_singleton.mp hl

theorem attentive_closeWindow : Attentive closeWindow := by
  refine fun s hs => after_bind (after_heldNode (fun i hi => ?_) fun _ => hs)
  refine after_bind (after_delegating (Host.after_changing (fun st hst => ?_) fun e _ =>
    hs.of_host (.refl _)))
  obtain ⟨m, n, hm, hn, rfl⟩ := Stack.onNode_eq_ok_iff.mp hst
  obtain rfl := Except.ok.inj hn
  refine after_update (.of_closed (isOpen_markWindowClosed_self _) ?_ fun j hj => ?_)
  · simpa using hs.generation
  · obtain rfl : i = j := by simpa [hi] using hj
    exact ⟨_, List.getElem?_set_self (List.getElem?_eq_some_iff.mp hm).1,
      ServerNode.window_endWindow m⟩

theorem attentive_work (r : Request) : Attentive r.work := by
  cases r with
  | init bits => exact attentive_init bits
  | close => exact attentive_close
  | renew reset bits resetBits => exact attentive_renew reset bits resetBits
  | addEndpoint deviceType id info attributes =>
      exact attentive_addEndpoint deviceType id info attributes
  | setEndpointState id cluster name value =>
      exact attentive_setEndpointState id cluster name value
  | start now => exact attentive_start now
  | openWindow => exact attentive_openWindow
  | closeWindow => exact attentive_closeWindow
  | removeFabric index => exact attentive_removeFabric index

/-! ## Listeners -/

/-- A listener that gets its turn is not the one that is waited for, unless the window has
closed. -/
theorem attended_deliver {s : Site} (hs : s.Attended) (k : Nat) : (deliver k s).Attended := by
  unfold deliver
  cases hl : s.bridge.listeners[k]? with
  | none => exact hs
  | some l =>
      dsimp only
      split
      · next hr =>
        have hmem : l ∈ s.bridge.listeners := List.mem_of_getElem? hl
        have hrest : ∀ l' ∈ s.bridge.listeners.eraseIdx k, l' ∈ s.bridge.listeners :=
          fun l' => List.mem_of_mem_eraseIdx
        unfold markWindowClosed
        split
        · next h =>
          exact .of_closed rfl (fun l' hl' => hs.generation l' (hrest l' hl'))
            (hs.windowless_of_isReady hmem h.1 h.2.symm hr)
        · next h =>
          refine ⟨fun l' hl' => hs.generation l' (hrest l' hl'), hs.unheld, hs.held, fun ho => ?_⟩
          obtain ⟨i, n, j, hi, hn, howes, hwaits, hall⟩ := hs.awaited ho
          refine ⟨i, n, j, hi, hn, howes, ?_, fun l' hl' => hall l' (hrest l' hl')⟩
          -- The listener that leaves is of another generation than the one that stays.
          refine (List.mem_eraseIdx_iff_getElem?).mpr ?_
          obtain ⟨m, hm⟩ := List.getElem?_of_mem hwaits
          refine ⟨m, fun hmk => h ⟨ho, ?_⟩, hm⟩
          rw [hmk, hl] at hm
          rw [Option.some.inj hm]
      · exact hs

end Bridge

/-! ## Runs -/

namespace Site

theorem attended_act {s : Site} (hs : s.Attended) (a : Action) : (s.act a).Attended := by
  cases a with
  | request r => exact (Bridge.attentive_work r s hs).stateAfter
  | deliver k => exact Bridge.attended_deliver hs k
  | incident i => exact hs.of_host (i.settling s.host).stateAfter
  | outside t => exact hs.of_settle rfl rfl rfl (.refl _)

theorem attended_run {s : Site} (hs : s.Attended) (as : List Action) : (s.run as).Attended := by
  induction as generalizing s with
  | nil => exact hs
  | cons a as ih => exact ih (attended_act hs a)

end Site

end DeviceBridge
