import DeviceBridge.Proofs.Bridge.Listener
import DeviceBridge.Proofs.Bridge.Window

/-!
# DeviceBridge.Proofs.Bridge.Overtaking

Which windows end without a word. A window is overtaken if the next one is opened while the bridge
still takes it for open. Each opened generation is told of, or overtaken, or still taken for open,
and only one of these (`Site.count_run`). A window that has closed in the stack is taken for open
until its listener gets its turn, and so it can still be overtaken; the listener then finds a newer
generation, and nobody is told (`Site.told_unless_overtaken`).
-/

namespace DeviceBridge.Site

/-- The generation that a step overtakes, if there is one. -/
def overtakes (s : Site) (a : Action) : List Nat :=
  if s.opens a = 1 ∧ s.bridge.window.isOpen then [s.bridge.window.generation] else []

/-- The generations that a run overtakes, in order. -/
def overtaken (s : Site) : List Action → List Nat
  | [] => []
  | a :: as => s.overtakes a ++ (s.act a).overtaken as

/-- Whether the bridge takes the window of a generation for open. -/
def takesForOpen (s : Site) (g : Nat) : Bool :=
  s.bridge.window.isOpen && s.bridge.window.generation == g

/-- A window is opened once, and from then on it is taken for open until it is told of or
overtaken. -/
theorem count_step (s : Site) (a : Action) (g : Nat) :
    (s.announced a).count g + (s.overtakes a).count g + ((s.act a).takesForOpen g).toNat =
      (s.takesForOpen g).toNat +
        if s.bridge.window.generation < g ∧ g ≤ (s.act a).bridge.window.generation
          then 1 else 0 := by
  have hnone : ¬ (s.bridge.window.generation < g ∧ g ≤ s.bridge.window.generation) := by omega
  have htoNat (b : Bool) : b.toNat = if b then 1 else 0 := by cases b <;> rfl
  cases s.act_window a with
  | rests ho hw he =>
      simp [announced_of_events he, overtakes, takesForOpen, ho, hw, hnone]
  | tells ho hopen hw he hs =>
      simp [announced, he, hs, overtakes, takesForOpen, ho, hw, hopen, hnone,
        List.count_singleton, htoNat]
  | opens ho hw he =>
      have hnew : (s.bridge.window.generation < g ∧ g ≤ s.bridge.window.generation + 1) ↔
          s.bridge.window.generation + 1 = g := by omega
      cases hopen : s.bridge.window.isOpen <;>
        simp [announced_of_events he, overtakes, takesForOpen, ho, hw, hopen, hnew,
          List.count_singleton, htoNat]

/-- Along a run each opened generation is told of, overtaken or still taken for open. -/
theorem count_run (s : Site) (as : List Action) (g : Nat) :
    (s.announcements as).count g + (s.overtaken as).count g + ((s.run as).takesForOpen g).toNat =
      (s.takesForOpen g).toNat +
        if s.bridge.window.generation < g ∧ g ≤ (s.run as).bridge.window.generation
          then 1 else 0 := by
  induction as generalizing s with
  | nil =>
      have hnone : ¬ (s.bridge.window.generation < g ∧ g ≤ s.bridge.window.generation) := by omega
      simp [announcements, overtaken, hnone]
  | cons a as ih =>
      have hstep := s.count_step a g
      have hrest := ih (s.act a)
      have hlow := generation_run s [a]
      have hhigh := generation_run (s.act a) as
      simp only [run_cons, run_nil] at hlow
      have hle : s.bridge.window.generation ≤ (s.act a).bridge.window.generation :=
        Nat.le.intro hlow.symm
      rw [announcements, overtaken, run_cons, List.count_append, List.count_append]
      grind

/-- While a generation is taken for open, a listener of it is pending. -/
theorem Attended.pending {s : Site} (hs : s.Attended) {g : Nat} (h : s.takesForOpen g = true) :
    ∃ l ∈ s.bridge.listeners, l.generation = g := by
  simp only [takesForOpen, Bool.and_eq_true, beq_iff_eq] at h
  obtain ⟨i, n, k, -, -, -, hl, -⟩ := hs.awaited h.1
  exact ⟨_, hl, h.2⟩

/-- Whatever happens to a new bridge and in whatever order its listeners get their turns: each
opened window whose listener has had its turn has been told of once, unless it was overtaken; then
it is never told of. -/
theorem told_unless_overtaken (h : Host) (c : BridgeConfig) (as : List Action) (g : Nat) :
    let start : Site := ⟨h, { config := c }⟩
    0 < g → g ≤ start.openings as →
      (∀ l ∈ (start.run as).bridge.listeners, l.generation ≠ g) →
      (start.run as).bridge.events =
          List.replicate (start.announcements as).length .commissioningWindowClosed ∧
        (start.announcements as).count g = if g ∈ start.overtaken as then 0 else 1 := by
  intro start hpos hle hdone
  have hevents : (start.run as).bridge.events =
      List.replicate (start.announcements as).length .commissioningWindowClosed := by
    simpa [start] using events_run start as
  have hgen : (start.run as).bridge.window.generation = start.openings as := by
    simpa [start] using generation_run start as
  have hnew : start.takesForOpen g = false := rfl
  have hshut : (start.run as).takesForOpen g = false := by
    refine Bool.eq_false_iff.mpr fun hopen => ?_
    obtain ⟨l, hl, hg⟩ := (attended_run (attended_new h c) as).pending hopen
    exact hdone l hl hg
  have hcount := count_run start as g
  rw [hgen, hshut, hnew, if_pos ⟨hpos, hle⟩] at hcount
  simp only [Bool.toNat_false] at hcount
  refine ⟨hevents, ?_⟩
  split
  · next hmem =>
    have hovertaken := List.one_le_count_iff.mpr hmem
    omega
  · next hmem =>
    rw [List.count_eq_zero_of_not_mem hmem] at hcount
    omega

/-- A new bridge on an empty disk. -/
def newBridge : Site := ⟨{}, { config := { storagePath := ⟨"s"⟩ } }⟩

/-- A window is opened and expires, and the next one is opened before the listener of the first gets
its turn. -/
def lateListener : List Action :=
  [.request (.init ⟨0, 0⟩), .request .openWindow, .incident (.endWindow 0), .request .openWindow,
    .deliver 0]

/-- A window that has expired is never told of if the next one is opened before its listener gets
its turn. -/
theorem untold_of_late_listener :
    let s := newBridge.run (lateListener.take 3)
    (s.nodes[0]?).bind ServerNode.window = none ∧ s.takesForOpen 1 = true ∧
      (∀ l ∈ (newBridge.run lateListener).bridge.listeners, l.generation ≠ 1) ∧
      (newBridge.announcements lateListener).count 1 = 0 := by
  have hopened : 1 ≤ newBridge.openings lateListener := by decide +kernel
  have hdone : ∀ l ∈ (newBridge.run lateListener).bridge.listeners, l.generation ≠ 1 := by
    decide +kernel
  have hovertaken : 1 ∈ newBridge.overtaken lateListener := by decide +kernel
  refine ⟨by decide +kernel, by decide +kernel, hdone, ?_⟩
  have htold := told_unless_overtaken newBridge.host newBridge.bridge.config lateListener 1
  rw [show (⟨newBridge.host, { config := newBridge.bridge.config }⟩ : Site) = newBridge from rfl]
    at htold
  rw [(htold (by decide) hopened hdone).2, if_pos hovertaken]

end DeviceBridge.Site
