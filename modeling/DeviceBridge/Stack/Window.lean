/-!
# DeviceBridge.Stack.Window

Notifications that a commissioning window has closed. They are numbered in the order in which they
are issued, and each is pending until it is resolved once and for all.
-/

namespace DeviceBridge

/-- The notifications issued so far: whether each is resolved. -/
structure Notifications where
  resolved : List Bool := []
deriving DecidableEq

namespace Notifications

/-- How many notifications have been issued. -/
def count (n : Notifications) : Nat := n.resolved.length

/-- Issues a notification, which gets the next number. -/
def issue (n : Notifications) : Notifications := ⟨n.resolved ++ [false]⟩

/-- Resolves a notification. -/
def resolve (n : Notifications) (k : Nat) : Notifications := ⟨n.resolved.set k true⟩

/-- Whether a notification is resolved. -/
def isResolved (n : Notifications) (k : Nat) : Bool := (n.resolved[k]?).getD false

@[simp] theorem count_issue (n : Notifications) : n.issue.count = n.count + 1 := by
  simp [issue, count]

@[simp] theorem count_resolve (n : Notifications) (k : Nat) : (n.resolve k).count = n.count := by
  simp [resolve, count]

theorem isResolved_issue (n : Notifications) (k : Nat) :
    n.issue.isResolved k = n.isResolved k := by
  simp only [isResolved, issue]
  rcases Nat.lt_trichotomy k n.resolved.length with h | h | h
  · rw [List.getElem?_append_left h]
  · subst h; simp
  · rw [List.getElem?_eq_none (by simp; omega), List.getElem?_eq_none (by omega)]

theorem isResolved_resolve (n : Notifications) (k l : Nat) :
    (n.resolve k).isResolved l = (n.isResolved l || decide (k = l ∧ k < n.count)) := by
  simp only [isResolved, resolve, count, List.getElem?_set]
  by_cases h : k = l
  · subst h
    by_cases hk : k < n.resolved.length <;> simp [hk]
  · simp [h]

end Notifications

end DeviceBridge
