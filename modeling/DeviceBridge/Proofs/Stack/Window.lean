import DeviceBridge.Proofs.Stack.ServerNode

/-!
# DeviceBridge.Proofs.Stack.Window

The commissioning window of a node and the notification that it owes. A notification is owed while
the window for which it was issued is open, and it is resolved when that window closes
(`ServerNode.Owes`). Apart from opening a window, whatever is done to a node opens none and leaves
that bond intact (`ServerNode.Settles`); this lifts to all nodes at once (`NodesSettle`).
-/

namespace DeviceBridge

/-- A notification is pending and the open window owes it, or it is resolved and no window is
open. -/
structure ServerNode.Owes (n : ServerNode) (k : Nat) : Prop where
  issued : k < n.notifications.count
  pending : n.window = some k ∧ n.notifications.isResolved k = false ∨
    n.window = none ∧ n.notifications.isResolved k = true

/-- No window has been opened, and what is owed is still owed or has been resolved. -/
structure ServerNode.Settles (m n : ServerNode) : Prop where
  shut : m.window = none → n.window = none
  owes : ∀ k, m.Owes k → n.Owes k

namespace Notifications

theorem isResolved_count (n : Notifications) : n.isResolved n.count = false := by
  simp [isResolved, count]

end Notifications

namespace ServerNode

theorem Owes.isSome_window {n : ServerNode} {k : Nat} (h : n.Owes k) :
    n.window.isSome = !n.notifications.isResolved k := by
  obtain ⟨hw, hr⟩ | ⟨hw, hr⟩ := h.pending <;> simp [hw, hr]

theorem Settles.refl (n : ServerNode) : n.Settles n := ⟨id, fun _ => id⟩

theorem Settles.trans {l m n : ServerNode} (h : l.Settles m) (h' : m.Settles n) : l.Settles n :=
  ⟨fun hl => h'.shut (h.shut hl), fun k hk => h'.owes k (h.owes k hk)⟩

variable {m n : ServerNode}

theorem settles_of_eq (hw : n.window = m.window) (hn : n.notifications = m.notifications) :
    m.Settles n :=
  ⟨fun h => hw.trans h, fun k h => ⟨hn ▸ h.issued, by rw [hw, hn]; exact h.pending⟩⟩

/-! ## Changes of a node -/

@[simp] theorem window_endWindow (n : ServerNode) : n.endWindow.window = none := by
  unfold endWindow
  cases h : n.window with
  | none => exact h
  | some k => rfl

@[simp] theorem count_endWindow (n : ServerNode) :
    n.endWindow.notifications.count = n.notifications.count := by
  unfold endWindow
  cases n.window with
  | none => rfl
  | some k => exact Notifications.count_resolve n.notifications k

theorem settles_endWindow (n : ServerNode) : n.Settles n.endWindow := by
  refine ⟨fun _ => window_endWindow n, fun k h => ⟨?_, .inr ⟨window_endWindow n, ?_⟩⟩⟩
  · rw [count_endWindow]
    exact h.issued
  · obtain ⟨hw, -⟩ | ⟨hw, hr⟩ := h.pending
    · simp [endWindow, hw, Notifications.isResolved_resolve, h.issued]
    · simpa [endWindow, hw] using hr

theorem settles_addAggregator {id : String} (h : m.addAggregator id = .ok n) : m.Settles n := by
  unfold addAggregator at h
  split at h
  · contradiction
  · split at h
    · contradiction
    · exact Except.ok.inj h ▸ settles_of_eq rfl rfl

theorem settles_onAggregator {f : Aggregator → Except StackError Aggregator}
    (h : m.onAggregator f = .ok n) : m.Settles n := by
  obtain ⟨a, b, -, -, rfl⟩ := onAggregator_eq_ok_iff.mp h
  exact settles_of_eq rfl rfl

theorem settles_start (h : m.start = .ok n) : m.Settles n := by
  unfold start at h
  split at h
  · contradiction
  · exact Except.ok.inj h ▸ settles_of_eq rfl rfl

theorem settles_close (h : m.close = .ok n) : m.Settles n := by
  unfold close at h
  split at h
  · contradiction
  · obtain rfl := Except.ok.inj h
    have hstop : m.Settles { m with closed := true, started := false } := settles_of_eq rfl rfl
    exact hstop.trans (settles_endWindow _)

theorem settles_removeFabric {index : UInt8} (h : m.removeFabric index = .ok n) :
    m.Settles n := by
  unfold removeFabric at h
  dsimp only at h
  split at h
  · contradiction
  · exact Except.ok.inj h ▸ settles_of_eq rfl rfl

/-- The window that is opened owes the notification that is issued for it. -/
theorem owes_openWindow (h : m.openWindow = .ok n) : ∃ k, n.window = some k ∧ n.Owes k := by
  unfold openWindow at h
  split at h
  · contradiction
  · obtain rfl := Except.ok.inj h
    refine ⟨_, rfl, by simp, .inl ⟨rfl, ?_⟩⟩
    rw [Notifications.isResolved_issue, ← count_endWindow m]
    exact Notifications.isResolved_count _

end ServerNode

/-! ## All nodes -/

/-- Every node settles, and none is forgotten. -/
def NodesSettle (ms ns : List ServerNode) : Prop :=
  ∀ (i : Nat) (m : ServerNode), ms[i]? = some m → ∃ n, ns[i]? = some n ∧ m.Settles n

namespace NodesSettle

variable {ls ms ns : List ServerNode}

theorem refl (ns : List ServerNode) : NodesSettle ns ns := fun _ m hm => ⟨m, hm, .refl m⟩

theorem of_eq (h : ns = ms) : NodesSettle ms ns := h ▸ .refl ms

theorem trans (h : NodesSettle ls ms) (h' : NodesSettle ms ns) : NodesSettle ls ns := by
  intro i l hl
  obtain ⟨m, hm, hlm⟩ := h i l hl
  obtain ⟨n, hn, hmn⟩ := h' i m hm
  exact ⟨n, hn, hlm.trans hmn⟩

theorem set {i : Nat} {m n : ServerNode} (hm : ms[i]? = some m) (h : m.Settles n) :
    NodesSettle ms (ms.set i n) := by
  intro j l hl
  by_cases hij : i = j
  · subst hij
    obtain rfl := Option.some.inj (hm.symm.trans hl)
    exact ⟨n, List.getElem?_set_self (List.getElem?_eq_some_iff.mp hm).1, h⟩
  · exact ⟨l, by rw [List.getElem?_set_ne hij, hl], .refl l⟩

theorem modify {f : ServerNode → ServerNode} (h : ∀ n : ServerNode, n.Settles (f n)) (i : Nat)
    (ns : List ServerNode) : NodesSettle ns (ns.modify i f) := by
  intro j n hn
  refine ⟨if i = j then f n else n, ?_, ?_⟩
  · rw [List.getElem?_modify, hn]
    simp
  · split
    · exact h n
    · exact .refl n

theorem append (ns : List ServerNode) (n : ServerNode) : NodesSettle ns (ns ++ [n]) :=
  fun i m hm => ⟨m, by rw [List.getElem?_append_left (List.getElem?_eq_some_iff.mp hm).1, hm],
    .refl m⟩

end NodesSettle

end DeviceBridge
