import DeviceBridge.Decimal.Shortest

/-!
# DeviceBridge.Proofs.Decimal

The decimal of a double that is not zero is not zero either: zero rounds to no other number
(`ne_zero_of_roundsTo`), so the search never ends at it.
-/

namespace DeviceBridge

namespace Decimal

theorem ratio_fst_ne_zero {m : Nat} (hm : m ≠ 0) (q k : Int) : (ratio m q k).1 ≠ 0 := by
  have hpos : 0 < m := Nat.pos_of_ne_zero hm
  have htwo : 0 < m <<< q.toNat := by
    rw [Nat.shiftLeft_eq]
    exact Nat.mul_pos hpos (Nat.pow_pos (by decide))
  have hten : 0 < Nat.pow 10 (-k).toNat := Nat.pow_pos (by decide)
  by_cases hq : 0 ≤ q
  · by_cases hk : 0 ≤ k
    · simpa only [ratio, hq, hk, if_true] using Nat.ne_of_gt htwo
    · simpa only [ratio, hq, hk, if_true, if_false] using
        Nat.ne_of_gt (Nat.mul_pos htwo hten)
  · by_cases hk : 0 ≤ k
    · simpa only [ratio, hq, hk, if_true, if_false] using hm
    · simpa only [ratio, hq, hk, if_false] using
        Nat.ne_of_gt (Nat.mul_pos hpos hten)

/-- Zero rounds to no other number. -/
theorem ne_zero_of_roundsTo {b : Binary} (hm : b.m ≠ 0) {d : Nat} {k : Int}
    (h : roundsTo b d k = true) : d ≠ 0 := by
  rintro rfl
  unfold roundsTo at h
  simp only [Nat.zero_mul, Nat.not_lt_zero, Nat.le_zero] at h
  split at h
  · generalize hlow : (if b.m = 0x10_0000_0000_0000 ∧ b.q ≠ -1074 then 4 * b.m - 1
      else 4 * b.m - 2) = low at h
    have hlow : low ≠ 0 := by
      rw [← hlow]
      split <;> omega
    simp [ratio_fst_ne_zero hlow] at h
  · simp at h

theorem ne_zero_of_onGrid? {b : Binary} (hm : b.m ≠ 0) {k : Int} {d : Nat}
    (h : onGrid? b k = some d) : d ≠ 0 := by
  unfold onGrid? at h
  simp only at h
  split at h
  · contradiction
  · next hbelow _ => exact Option.some.inj h ▸ ne_zero_of_roundsTo hm hbelow
  · exact Option.some.inj h ▸ Nat.succ_ne_zero _
  · next hbelow _ =>
    split at h
    · exact Option.some.inj h ▸ ne_zero_of_roundsTo hm hbelow
    · exact Option.some.inj h ▸ Nat.succ_ne_zero _

theorem digits_searchDown_ne_zero {b : Binary} (hm : b.m ≠ 0) (fuel : Nat) (k : Int) :
    (searchDown b fuel k).digits ≠ 0 := by
  induction fuel generalizing k with
  | zero => simp only [searchDown]; omega
  | succ fuel ih =>
      rw [searchDown]
      split
      · next d hd => exact ne_zero_of_onGrid? hm hd
      · exact ih (k - 1)

theorem digits_shortest_ne_zero {b : Binary} (hm : b.m ≠ 0) : (shortest b).digits ≠ 0 := by
  rw [shortest, if_neg hm]
  exact digits_searchDown_ne_zero hm 20 _

theorem digits_normalize_ne_zero {d : Decimal} (h : d.digits ≠ 0) : d.normalize.digits ≠ 0 := by
  fun_induction normalize d with
  | case1 d hd ih => exact ih (by simp only; omega)
  | case2 d hd => exact h

end Decimal

end DeviceBridge
