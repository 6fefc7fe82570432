import DeviceBridge.Proofs.Bridge.Overtaking

/-!
# DeviceBridge.Proofs.Bridge.Agreement

The bridge and the stack keep the state of the window twice. As long as every listener gets its turn
as soon as it is ready, the two agree whenever no listener is ready (`Site.Attended.agrees`), and
the events can be counted: there is one for each window that was opened, except for those in whose
place the next one was opened and for the one that is still open (`Site.window_accounted`).
-/

namespace DeviceBridge

namespace Site

/-- No pending listener is ready. -/
def Quiescent (s : Site) : Prop :=
  ∀ l ∈ s.bridge.listeners, Bridge.isReady s.host.stack l = false

/-- Whether the bridge holds a node whose window is open in the stack. -/
def windowIsOpen (s : Site) : Bool :=
  match s.bridge.node with
  | none => false
  | some i => ((s.nodes[i]?).bind ServerNode.window).isSome

/-- Listeners that are ready get their turn before anything else happens. -/
def Prompt (s : Site) : Action → Prop
  | .deliver _ => True
  | _ => s.Quiescent

instance (s : Site) : Decidable s.Quiescent :=
  inferInstanceAs (Decidable (∀ l ∈ s.bridge.listeners, Bridge.isReady s.host.stack l = false))

instance (s : Site) (a : Action) : Decidable (s.Prompt a) :=
  match a with
  | .deliver _ => inferInstanceAs (Decidable True)
  | .request _ | .incident _ | .outside _ => inferInstanceAs (Decidable s.Quiescent)

/-- How many windows a step opens in place of one that is still open in the stack. -/
def reopens (s : Site) (a : Action) : Nat := if s.windowIsOpen then s.opens a else 0

/-- How many windows a run opens in place of one that is still open in the stack. -/
def reopenings (s : Site) : List Action → Nat
  | [] => 0
  | a :: as => s.reopens a + (s.act a).reopenings as

/-- Once all ready listeners have had their turns, the bridge takes its window for open just when it
is. -/
theorem Attended.agrees {s : Site} (hs : s.Attended) (hq : s.Quiescent) :
    s.bridge.window.isOpen = s.windowIsOpen := by
  unfold windowIsOpen
  cases ho : s.bridge.window.isOpen with
  | true =>
      obtain ⟨i, n, k, hi, hn, howes, hl, -⟩ := hs.awaited ho
      have hpending : n.notifications.isResolved k = false := by
        simpa [Bridge.isReady, Stack.isResolved, hn] using hq _ hl
      simp [hi, hn, howes.isSome_window, hpending]
  | false =>
      cases hi : s.bridge.node with
      | none => rfl
      | some i =>
          obtain ⟨n, hn, hshut⟩ := hs.held i hi
          simp [hn, hshut ho]

/-! ## Letting the ready listeners have their turns -/

theorem listeners_foldl_markWindowClosed (ls : List Listener) (b : Bridge) :
    (ls.foldl (fun b l => Bridge.markWindowClosed l.generation b) b).listeners = b.listeners := by
  induction ls generalizing b with
  | nil => rfl
  | cons l ls ih => simp [ih]

/-- Behind listeners that are not ready, those that are get their turns one after the other. -/
theorem run_deliveries (h : Host) (rest front : List Listener) (b : Bridge)
    (hb : b.listeners = front ++ rest) :
    ∃ ks : List Nat, run ⟨h, b⟩ (ks.map .deliver) = ⟨h,
      (rest.filter (Bridge.isReady h.stack ·)).foldl
        (fun b l => Bridge.markWindowClosed l.generation b)
        { b with listeners := front ++ rest.filter (!Bridge.isReady h.stack ·) }⟩ := by
  induction rest generalizing front b with
  | nil => exact ⟨[], by simp [← hb]⟩
  | cons l rest ih =>
      cases hl : Bridge.isReady h.stack l with
      | false =>
          obtain ⟨ks, hks⟩ := ih (front ++ [l]) b (by simp [hb])
          exact ⟨ks, by simpa [hl] using hks⟩
      | true =>
          have hact : act ⟨h, b⟩ (.deliver front.length) = ⟨h,
              Bridge.markWindowClosed l.generation { b with listeners := front ++ rest }⟩ := by
            simp [act, Bridge.deliver, hb, hl, List.eraseIdx_append_of_length_le]
          obtain ⟨ks, hks⟩ := ih front
            (Bridge.markWindowClosed l.generation { b with listeners := front ++ rest }) (by simp)
          refine ⟨front.length :: ks, ?_⟩
          rw [List.map_cons, run_cons, hact, hks]
          simp [hl, Bridge.markWindowClosed_withListeners]

/-- Delivering all ready listeners is to let each have its turn, after which none is ready. -/
theorem deliverReady_eq_run (s : Site) :
    (∃ ks : List Nat, Bridge.deliverReady s = s.run (ks.map .deliver)) ∧
      (Bridge.deliverReady s).Quiescent := by
  refine ⟨?_, fun l hl => ?_⟩
  · obtain ⟨ks, hks⟩ := run_deliveries s.host s.bridge.listeners [] s.bridge rfl
    exact ⟨ks, hks.symm⟩
  · unfold Bridge.deliverReady at hl ⊢
    dsimp only at hl ⊢
    rw [listeners_foldl_markWindowClosed] at hl
    simpa using (List.mem_filter.mp hl).2

/-! ## Counting the events -/

/-- All events along a run are accounted for. -/
theorem events_add_overtaken (s : Site) (as : List Action) :
    (s.run as).bridge.events.length + (s.overtaken as).length +
        (s.run as).bridge.window.isOpen.toNat =
      s.bridge.events.length + s.bridge.window.isOpen.toNat + s.openings as := by
  induction as generalizing s with
  | nil => rfl
  | cons a as ih =>
      have hrest := ih (s.act a)
      rw [run_cons, overtaken, openings, List.length_append]
      cases s.act_window a with
      | rests ho hw he =>
          simp only [hw, he] at hrest
          simp [overtakes, ho]
          omega
      | tells ho hopen hw he hs =>
          simp [hw, he] at hrest
          simp [overtakes, ho, hopen]
          omega
      | opens ho hw he =>
          simp [hw, he] at hrest
          cases hopen : s.bridge.window.isOpen <;> simp [overtakes, ho, hopen] <;> omega

/-- While listeners are prompt, a window is overtaken just when the next one is opened in its
place. -/
theorem length_overtakes {s : Site} (hs : s.Attended) {a : Action} (h : s.Prompt a) :
    (s.overtakes a).length = s.reopens a := by
  unfold overtakes reopens
  cases s.act_window a with
  | rests ho hw he | tells ho hopen hw he hs => simp [ho]
  | opens ho hw he =>
      have hq : s.Quiescent := by
        cases a with
        | deliver k => contradiction
        | request r => exact h
        | incident i => exact h
        | outside t => exact h
      rw [ho, hs.agrees hq]
      cases s.windowIsOpen <;> rfl

theorem length_overtaken {s : Site} (hs : s.Attended) {as : List Action}
    (h : s.Admits Prompt as) : (s.overtaken as).length = s.reopenings as := by
  induction as generalizing s with
  | nil => rfl
  | cons a as ih =>
      rw [overtaken, reopenings, List.length_append, length_overtakes hs h.1,
        ih (attended_act hs a) h.2]

/-- Whatever happens to a new bridge whose listeners get their turns as soon as they are ready: once
none is ready, the bridge takes its window for open just when the node that it holds has an open
one; a commissioner is told so, unless the node has joined no fabric, when it always lets itself be
commissioned; and there is one event for each opened window, apart from those in whose place the
next one was opened and from the one that is open. -/
theorem window_accounted (h : Host) (c : BridgeConfig) (as : List Action) :
    let start : Site := ⟨h, { config := c }⟩
    let s := start.run as
    start.Admits Prompt as → s.Quiescent →
      (s.bridge.window.isOpen = true ↔
        ∃ i n, s.bridge.node = some i ∧ s.nodes[i]? = some n ∧ n.window.isSome = true) ∧
      (∀ i, s.bridge.node = some i → ∃ n, s.nodes[i]? = some n ∧
        Bridge.commissioningState s =
          .ok ⟨n.commissioning.pairingCodes, !n.commissioned || n.window.isSome⟩ s) ∧
      s.bridge.events.countP BridgeEvent.isWindowClosed + start.reopenings as +
          (if s.bridge.window.isOpen then 1 else 0) = start.openings as := by
  intro start s hprompt hq
  have hs : s.Attended := attended_run (attended_new h c) as
  have hagrees := hs.agrees hq
  refine ⟨?_, fun i hi => ?_, ?_⟩
  · rw [hagrees]
    unfold windowIsOpen
    cases hi : s.bridge.node with
    | none => simp
    | some i => cases hn : s.nodes[i]? <;> simp [hn]
  · obtain ⟨n, hn, -⟩ := hs.held i hi
    have hopen : s.bridge.window.isOpen = n.window.isSome := by
      simpa [windowIsOpen, hi, hn] using hagrees
    have hstate : Bridge.commissioningState s =
        .ok ⟨n.commissioning.pairingCodes, !n.commissioned || s.bridge.window.isOpen⟩ s := by
      have hget : (get : Bridging Site) s = .ok s s := rfl
      unfold Bridge.commissioningState Bridge.heldNode
      simp [bind, EStateM.bind, hget, hi, hn, pure, EStateM.pure, ServerNode.commissioning]
    exact ⟨n, hn, hopen ▸ hstate⟩
  · have hevents : s.bridge.events =
        List.replicate (start.announcements as).length .commissioningWindowClosed := by
      simpa [start] using events_run start as
    have hcount : s.bridge.events.length + (start.overtaken as).length +
        s.bridge.window.isOpen.toNat = 0 + 0 + start.openings as := events_add_overtaken start as
    have hovertaken : (start.overtaken as).length = start.reopenings as :=
      length_overtaken (attended_new h c) hprompt
    have hall : s.bridge.events.countP BridgeEvent.isWindowClosed = s.bridge.events.length := by
      rw [hevents, List.countP_replicate, if_pos (by rfl), List.length_replicate]
    have hopen : (if s.bridge.window.isOpen then 1 else 0) = s.bridge.window.isOpen.toNat := by
      cases s.bridge.window.isOpen <;> rfl
    omega

/-- One window expires, the next is closed on request, and a third gives way to a fourth; each
listener gets its turn at once. -/
def promptListeners : List Action :=
  [.request (.init ⟨0, 0⟩), .request .openWindow, .incident (.endWindow 0), .deliver 0,
    .request .openWindow, .request .closeWindow, .deliver 0, .request .openWindow,
    .request .openWindow, .deliver 0]

/-- Of four windows two are told of: one gave way to the last, and that one is open. -/
theorem window_accounted_of_prompt :
    let s := newBridge.run promptListeners
    newBridge.Admits Prompt promptListeners ∧ s.Quiescent ∧ s.bridge.window.isOpen = true ∧
      newBridge.openings promptListeners = 4 ∧ newBridge.reopenings promptListeners = 1 ∧
      s.bridge.events.countP BridgeEvent.isWindowClosed = 2 := by
  have hprompt : newBridge.Admits Prompt promptListeners := by decide +kernel
  have hquiescent : (newBridge.run promptListeners).Quiescent := by decide +kernel
  have hopen : (newBridge.run promptListeners).bridge.window.isOpen = true := by decide +kernel
  have hopenings : newBridge.openings promptListeners = 4 := by decide +kernel
  have hreopenings : newBridge.reopenings promptListeners = 1 := by decide +kernel
  have haccounted := window_accounted newBridge.host newBridge.bridge.config promptListeners
  rw [show (⟨newBridge.host, { config := newBridge.bridge.config }⟩ : Site) = newBridge from rfl]
    at haccounted
  have hcount := (haccounted hprompt hquiescent).2.2
  rw [hopenings, hreopenings, if_pos hopen] at hcount
  exact ⟨hprompt, hquiescent, hopen, hopenings, hreopenings, by omega⟩

end Site

end DeviceBridge
