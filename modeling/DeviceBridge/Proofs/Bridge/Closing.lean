import DeviceBridge.Proofs.Bridge.Occurrence

/-!
# DeviceBridge.Proofs.Bridge.Closing

Closing a bridge always succeeds, and it tells of the end of the window exactly if the bridge took
the window for open (`Site.close_tells_once`). The listener of that window may be faster, as the
stack closes the node before the bridge closes its own view: forgetting and delivering commute
(`Bridge.forget_deliver`), so whoever comes first tells the world and the other is silent. A closed
bridge stays as it is until it is asked for something else.
-/

namespace DeviceBridge

namespace Bridge

/-! ## Forgetting -/

theorem markWindowClosed_of_closed {b : Bridge} (h : b.window.isOpen = false) (generation : Nat) :
    markWindowClosed generation b = b :=
  if_neg fun hopen => by rw [h] at hopen; exact Bool.false_ne_true hopen.1

/-- The end of an open window is told of, and nothing else. -/
theorem events_forget (b : Bridge) : b.forget.events =
    b.events ++ if b.window.isOpen then [.commissioningWindowClosed] else [] := by
  unfold forget markWindowClosed
  cases b.window.isOpen <;> simp

/-- There is nothing to forget. -/
structure Blank (b : Bridge) : Prop where
  node : b.node = none
  devices : b.devices = []
  uniqueId : b.uniqueId = none
  closed : b.window.isOpen = false

theorem blank_forget (b : Bridge) : b.forget.Blank :=
  ⟨node_forget b, devices_forget b, uniqueId_forget b, isOpen_forget b⟩

theorem Blank.forget_eq {b : Bridge} (h : b.Blank) : b.forget = b := by
  have hb : { b with node := none, devices := [], uniqueId := none } = b := by
    rw [← h.node, ← h.devices, ← h.uniqueId]
  unfold forget
  rw [hb]
  exact markWindowClosed_of_closed h.closed _

/-- Forgetting closes the window, of whatever generation a listener has closed it before. -/
theorem forget_markWindowClosed (generation : Nat) (b : Bridge) :
    (markWindowClosed generation b).forget = b.forget := by
  unfold markWindowClosed
  split
  · next h =>
    unfold forget markWindowClosed
    simp [h.1]
  · rfl

theorem forget_withListeners (b : Bridge) (ls : List Listener) :
    { b with listeners := ls }.forget = { b.forget with listeners := ls } :=
  markWindowClosed_withListeners b.window.generation
    { b with node := none, devices := [], uniqueId := none } ls

/-- Whether the bridge forgets before or after a listener has had its turn does not matter. -/
theorem forget_deliver (k : Nat) (s : Site) :
    deliver k { s with bridge := s.bridge.forget } =
      { deliver k s with bridge := (deliver k s).bridge.forget } := by
  unfold deliver
  dsimp only
  rw [listeners_forget]
  cases s.bridge.listeners[k]? with
  | none => rfl
  | some l =>
      dsimp only
      split
      · have hclosed := markWindowClosed_of_closed
          (b := { s.bridge.forget with listeners := s.bridge.listeners.eraseIdx k })
          (isOpen_forget s.bridge) l.generation
        refine congrArg (Site.mk s.host) (hclosed.trans ?_)
        rw [forget_markWindowClosed]
        exact (forget_withListeners s.bridge _).symm
      · rfl

theorem forget_run (ks : List Nat) (s : Site) :
    Site.run { s with bridge := s.bridge.forget } (ks.map .deliver) =
      { s.run (ks.map .deliver) with bridge := (s.run (ks.map .deliver)).bridge.forget } := by
  induction ks generalizing s with
  | nil => rfl
  | cons k ks ih =>
      rw [List.map_cons, Site.run_cons, Site.run_cons, ← ih]
      exact congrArg (Site.run · _) (forget_deliver k s)

/-! ## Closing -/

/-- The stack closes the node that the bridge holds. -/
def release (s : Site) : Site :=
  match s.bridge.node with
  | none => s
  | some node => abandon node s

/-- The bridge is closed, and listeners in places get their turns after the stack has closed the
node and before the bridge has forgotten it. -/
def closeAmid (ks : List Nat) (s : Site) : Site :=
  let s := (release s).run (ks.map .deliver)
  { s with bridge := s.bridge.forget }

@[simp] theorem bridge_release (s : Site) : (release s).bridge = s.bridge := by
  unfold release
  split
  · rfl
  · exact bridge_abandon

@[simp] theorem disk_release (s : Site) : (release s).host.disk = s.host.disk := by
  unfold release
  split
  · rfl
  · exact disk_abandon

@[simp] theorem log_release (s : Site) : (release s).host.log = s.host.log := by
  unfold release
  split
  · rfl
  · next i _ =>
    have hclose : Leaves (Host.changing (·.onNode i ServerNode.close)) s.host
        fun h => h.log = s.host.log := Host.after_changing (fun _ _ => rfl) fun _ _ => rfl
    rw [abandon_eq_stateAfter]
    exact hclose.stateAfter

/-- Closing a bridge whose node is there, if it holds one, has the node closed and forgets it. -/
theorem close_eq {s : Site}
    (h : ∀ i, s.bridge.node = some i → ∃ n, s.nodes[i]? = some n) :
    close s = .ok () { release s with bridge := s.bridge.forget } := by
  unfold close release
  cases hi : s.bridge.node with
  | none => rfl
  | some i =>
      obtain ⟨n, hn⟩ := h i hi
      dsimp only
      rw [abandon_eq_stateAfter]
      unfold stateAfter Host.changing
      dsimp only
      cases hc : s.host.stack.onNode i ServerNode.close with
      | ok st => rfl
      | error e =>
          obtain ⟨hnone, -⟩ | ⟨m, -, hclosed⟩ := Stack.onNode_eq_error_iff.mp hc
          · rw [hn] at hnone
            contradiction
          · obtain ⟨-, rfl⟩ := ServerNode.closed_of_close_eq_error hclosed
            rfl

/-- Closing a bridge that has nothing to forget changes nothing. -/
theorem Blank.close_eq {s : Site} (h : s.bridge.Blank) : close s = .ok () s := by
  unfold close
  rw [h.node]
  exact congrArg (EStateM.Result.ok ()) (congrArg (Site.mk s.host) h.forget_eq)

/-- Listeners that get their turns while the bridge is being closed might as well get them
afterwards. -/
theorem closeAmid_eq (ks : List Nat) (s : Site) :
    closeAmid ks s = Site.run { release s with bridge := s.bridge.forget } (ks.map .deliver) := by
  have h := forget_run ks (release s)
  rw [bridge_release] at h
  exact h.symm

end Bridge

/-! ## A closed bridge -/

namespace Site

/-- The bridge is as it was, apart from who is waiting. -/
def Rests (b : Bridge) (s : Site) : Prop := ∃ ls, s.bridge = { b with listeners := ls }

variable {b : Bridge} {s : Site}

theorem Rests.deliver (hb : b.Blank) (h : s.Rests b) (k : Nat) : (Bridge.deliver k s).Rests b := by
  obtain ⟨ls, hls⟩ := h
  unfold Bridge.deliver
  split
  · exact ⟨ls, hls⟩
  · split
    · refine ⟨s.bridge.listeners.eraseIdx k, ?_⟩
      rw [hls]
      exact Bridge.markWindowClosed_of_closed
        (b := { b with listeners := ls.eraseIdx k }) hb.closed _
    · exact ⟨ls, hls⟩

/-- A closed bridge rests until it is asked for something. -/
theorem Rests.undergo (hb : b.Blank) (h : s.Rests b) {os : List Occurrence}
    (hos : ∀ o ∈ os, ∀ r, o ≠ .act (.request r)) : (s.undergo os).Rests b := by
  induction os generalizing s with
  | nil => exact h
  | cons o os ih =>
      refine ih ?_ fun o' ho' => hos o' (List.mem_cons_of_mem o ho')
      cases o with
      | make config => exact h
      | operate node p => exact h
      | act a =>
          cases a with
          | request r => exact absurd rfl (hos _ List.mem_cons_self r)
          | deliver k => exact h.deliver hb k
          | incident i => exact h
          | outside t => exact h

theorem Rests.blank (hb : b.Blank) (h : s.Rests b) : s.bridge.Blank := by
  obtain ⟨ls, hls⟩ := h
  rw [hls]
  exact ⟨hb.node, hb.devices, hb.uniqueId, hb.closed⟩

/-- Closing always succeeds, and it tells once. Whatever happened to a bridge, and whatever others
did to its node: (a) closing it succeeds, without a log entry and without touching the files; (b) an
event tells of the end of the window if the bridge took it for open, and there is none otherwise;
(c) the bridge has no node, no devices, no unique id and no open window then, and closing it again
changes nothing; (d) listeners that get their turns between the end of the node and that of the
bridge's own view leave everything as if they had got them afterwards; (e) until the bridge is asked
for something, no further event is sent, whatever happens and whichever listeners get their turns,
and closing it once more changes nothing. -/
theorem close_tells_once (h : Host) (c : BridgeConfig) (os : List Occurrence) :
    let s : Site := undergo ⟨h, { config := c }⟩ os
    ∃ s', Bridge.close s = .ok () s' ∧ s'.host.disk = s.host.disk ∧ s'.host.log = s.host.log ∧
      s'.bridge.events =
        s.bridge.events ++ (if s.bridge.window.isOpen then [.commissioningWindowClosed] else []) ∧
      (s'.bridge.node = none ∧ s'.bridge.devices = [] ∧ s'.bridge.uniqueId = none ∧
        s'.bridge.window.isOpen = false) ∧
      Bridge.close s' = .ok () s' ∧
      (∀ ks : List Nat, Bridge.closeAmid ks s = s'.run (ks.map .deliver)) ∧
      ∀ later : List Occurrence, (∀ o ∈ later, ∀ r, o ≠ .act (.request r)) →
        (s'.undergo later).bridge.events = s'.bridge.events ∧
        Bridge.close (s'.undergo later) = .ok () (s'.undergo later) := by
  intro s
  have hblank : s.bridge.forget.Blank := Bridge.blank_forget s.bridge
  refine ⟨_, Bridge.close_eq fun i => exists_held_undergo h c os, Bridge.disk_release s,
    Bridge.log_release s, Bridge.events_forget s.bridge,
    ⟨hblank.node, hblank.devices, hblank.uniqueId, hblank.closed⟩, hblank.close_eq,
    fun ks => Bridge.closeAmid_eq ks s, fun later hlater => ?_⟩
  have hrests : Rests s.bridge.forget
      (undergo { Bridge.release s with bridge := s.bridge.forget } later) :=
    Rests.undergo hblank ⟨s.bridge.forget.listeners, rfl⟩ hlater
  refine ⟨?_, (hrests.blank hblank).close_eq⟩
  obtain ⟨ls, hls⟩ := hrests
  rw [hls]

end Site

end DeviceBridge
