import DeviceBridge.Endpoint.Search
import Mathlib.Data.List.TakeWhile

/-!
# DeviceBridge.Proofs.Endpoint.Search

The search goes through the listing of the forest in pre-order: what it finds and whom it asks are
read off the listing (`PeerEndpoint.search_eq`), so the endpoints that it asks for their children
are just those that stand before the one that it finds (`PeerEndpoint.search_in_listing`).
-/

namespace DeviceBridge.PeerEndpoint

/-! ## The listing -/

theorem preorderAll_append (es fs : List PeerEndpoint) :
    preorderAll (es ++ fs) = preorderAll es ++ preorderAll fs := by
  induction es with
  | nil => simp [preorderAll]
  | cons e es ih => simp [preorderAll, ih]

/-- What follows an endpoint in the listing is what is listed once the endpoint has given way to its
children. -/
theorem preorderAll_cons (e : PeerEndpoint) (rest : List PeerEndpoint) :
    preorderAll (e :: rest) = e :: preorderAll (e.children ++ rest) := by
  cases e with
  | mk t n cs => simp [preorderAll, preorder, children, preorderAll_append]

mutual

/-- A tree is listed without omission or repetition. -/
theorem length_preorder : (e : PeerEndpoint) → (preorder e).length = e.size
  | mk t n cs => by
    have hchildren := length_preorderAll cs
    simp [preorder, size, hchildren]

/-- A forest is listed without omission or repetition. -/
theorem length_preorderAll : (es : List PeerEndpoint) → (preorderAll es).length = sizeAll es
  | [] => by simp [preorderAll, sizeAll]
  | e :: es => by
    have hfirst := length_preorder e
    have hrest := length_preorderAll es
    simp [preorderAll, sizeAll, hfirst, hrest]

end

/-! ## The search -/

/-- The pending endpoints stand for all that is still to be listed: the search finds the first one
there that has the number, and asks all that stand before it. -/
theorem search_eq (number : UInt16) (pending : List PeerEndpoint) :
    search number pending =
      ⟨(preorderAll pending).find? (·.number = number),
        (preorderAll pending).takeWhile (·.number ≠ number)⟩ := by
  fun_induction search number pending with
  | case1 => simp [preorderAll]
  | case2 e rest he => simp [preorderAll_cons, he]
  | case3 e rest he result ih => simp [preorderAll_cons, he, result, ih]

/-- A listing is parted at the first endpoint with a number, if there is one. -/
theorem find?_parts (number : UInt16) (listing : List PeerEndpoint) :
    (∃ before e after, listing = before ++ e :: after ∧ e.number = number ∧
      (∀ p ∈ before, p.number ≠ number) ∧
      listing.find? (·.number = number) = some e ∧
      listing.takeWhile (·.number ≠ number) = before) ∨
    (∀ p ∈ listing, p.number ≠ number) ∧
      listing.find? (·.number = number) = none ∧
      listing.takeWhile (·.number ≠ number) = listing := by
  cases hfind : listing.find? (·.number = number) with
  | some e =>
      left
      obtain ⟨he, before, after, rfl, hbefore⟩ := List.find?_eq_some_iff_append.mp hfind
      have hno : ∀ p ∈ before, p.number ≠ number := by simpa using hbefore
      have hyes : e.number = number := by simpa using he
      refine ⟨before, e, after, rfl, hyes, hno, rfl, ?_⟩
      rw [List.takeWhile_append_of_pos (by simpa using hno),
        List.takeWhile_cons_of_neg (by simp [hyes]), List.append_nil]
  | none =>
      right
      have hno : ∀ p ∈ listing, p.number ≠ number := by simpa using hfind
      exact ⟨hno, rfl, List.takeWhile_eq_self_iff.mpr (by simpa using hno)⟩

/-- In a forest of any shape, in which numbers may be repeated, the search ends with the first
endpoint of the listing that has the number, and it has asked the endpoints before that one for
their children, each once and in the order of the listing. If no endpoint has the number, nothing is
found and all have been asked. So no more endpoints are asked than there are. -/
theorem search_in_listing (roots : List PeerEndpoint) (number : UInt16) :
    ((∃ before e after, preorderAll roots = before ++ e :: after ∧ e.number = number ∧
        (∀ p ∈ before, p.number ≠ number) ∧
        find? roots number = some e ∧ (search number roots).expanded = before) ∨
      (∀ p ∈ preorderAll roots, p.number ≠ number) ∧
        find? roots number = none ∧ (search number roots).expanded = preorderAll roots) ∧
    (search number roots).expanded.length ≤ sizeAll roots := by
  have hsearch := search_eq number roots
  refine ⟨?_, ?_⟩
  · rw [find?, hsearch]
    exact find?_parts number (preorderAll roots)
  · rw [hsearch, ← length_preorderAll]
    exact (List.takeWhile_prefix _).length_le

end DeviceBridge.PeerEndpoint
