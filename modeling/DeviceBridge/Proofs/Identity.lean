import DeviceBridge.Identity

/-!
# DeviceBridge.Proofs.Identity

What a fresh unique id looks like, and how fresh it is. It has 32 hexadecimal digits, two of which
tell its version (`UniqueId.isVersion4_random`). Nothing but the bits that the version leaves free
tells it from another one, and all of them do (`UniqueId.random_eq_iff`): an id that was made before
is made again only from the same bits.
-/

namespace DeviceBridge

/-- The bits that the version of an id leaves free. -/
def RandomBits.free (bits : RandomBits) : RandomBits :=
  ⟨bits.high &&& 0xffffffffffff0fff, bits.low &&& 0x3fffffffffffffff⟩

namespace UniqueId

/-! ## Digits -/

/-- The hexadecimal digits, by their values. -/
def hexDigits : List Char := "0123456789abcdef".toList

theorem digitChar_mem {n : Nat} (h : n < 16) : Nat.digitChar n ∈ hexDigits :=
  (by decide : ∀ n < 16, Nat.digitChar n ∈ hexDigits) n h

theorem digitChar_inj {m n : Nat} (hm : m < 16) (hn : n < 16)
    (h : Nat.digitChar m = Nat.digitChar n) : m = n :=
  (by decide : ∀ m < 16, ∀ n < 16, Nat.digitChar m = Nat.digitChar n → m = n) m hm n hn h

theorem hexDigit_lt (w : UInt64) (i : Nat) : hexDigit w i < 16 := Nat.mod_lt _ (by decide)

theorem hexDigit_or (v w : UInt64) (i : Nat) :
    hexDigit (v ||| w) i = hexDigit v i ||| hexDigit w i := by
  unfold hexDigit
  rw [UInt64.toNat_or, Nat.shiftRight_or_distrib]
  exact Nat.or_mod_two_pow (n := 4)

theorem hexDigit_and (v w : UInt64) (i : Nat) :
    hexDigit (v &&& w) i = hexDigit v i &&& hexDigit w i := by
  unfold hexDigit
  rw [UInt64.toNat_and, Nat.shiftRight_and_distrib]
  exact Nat.and_mod_two_pow (n := 4)

/-- Each bit of a word is one of the four bits of a digit. -/
theorem testBit_hexDigit (w : UInt64) {k : Nat} (hk : k < 64) :
    (hexDigit w (15 - k / 4)).testBit (k % 4) = w.toNat.testBit k := by
  have hplace : 15 - (15 - k / 4) = k / 4 := by omega
  have hbit : k % 4 < 4 := Nat.mod_lt _ (by decide)
  unfold hexDigit
  rw [hplace, show 16 = 2 ^ 4 from rfl, Nat.testBit_mod_two_pow, Nat.testBit_shiftRight,
    Nat.div_add_mod, decide_eq_true hbit, Bool.true_and]

@[simp] theorem length_hexWord (w : UInt64) : (hexWord w).length = 16 := by
  simp [hexWord]

theorem getElem?_hexWord (w : UInt64) {i : Nat} (hi : i < 16) :
    (hexWord w)[i]? = some (Nat.digitChar (hexDigit w i)) := by
  simp [hexWord, hi]

theorem mem_hexDigits_of_mem_hexWord {w : UInt64} {c : Char} (h : c ∈ hexWord w) :
    c ∈ hexDigits := by
  obtain ⟨i, -, rfl⟩ := List.mem_map.mp h
  exact digitChar_mem (hexDigit_lt w i)

/-- The digits of a word tell all its bits. -/
theorem hexWord_inj {v w : UInt64} (h : hexWord v = hexWord w) : v = w := by
  have hdigit (i : Nat) (hi : i < 16) : hexDigit v i = hexDigit w i := by
    have hchar := congrArg (·[i]?) h
    rw [getElem?_hexWord v hi, getElem?_hexWord w hi] at hchar
    exact digitChar_inj (hexDigit_lt v i) (hexDigit_lt w i) (Option.some.inj hchar)
  refine UInt64.toNat_inj.mp (Nat.eq_of_testBit_eq fun k => ?_)
  by_cases hk : k < 64
  · rw [← testBit_hexDigit v hk, ← testBit_hexDigit w hk, hdigit _ (by omega)]
  · have hhigh (u : UInt64) : u.toNat.testBit k = false :=
      Nat.testBit_lt_two_pow (Nat.lt_of_lt_of_le u.toNat_lt
        (Nat.pow_le_pow_right (by decide) (Nat.le_of_not_lt hk)))
    rw [hhigh v, hhigh w]

/-! ## Fresh ids -/

theorem toList_text_random (bits : RandomBits) :
    (random bits).text.toList =
      hexWord (bits.free.high ||| 0x4000) ++ hexWord (bits.free.low ||| 0x8000000000000000) :=
  String.toList_ofList

/-- A text of 32 hexadecimal digits as the version has them. -/
structure IsVersion4 (id : UniqueId) : Prop where
  length : id.text.toList.length = 32
  digits : ∀ c ∈ id.text.toList, c ∈ hexDigits
  version : id.text.toList[12]? = some '4'
  variant : ∃ c ∈ ['8', '9', 'a', 'b'], id.text.toList[16]? = some c

theorem isVersion4_random (bits : RandomBits) : (random bits).IsVersion4 := by
  refine ⟨?_, fun c hc => ?_, ?_, ?_⟩
  · rw [toList_text_random, List.length_append, length_hexWord, length_hexWord]
  · rw [toList_text_random] at hc
    exact (List.mem_append.mp hc).elim mem_hexDigits_of_mem_hexWord mem_hexDigits_of_mem_hexWord
  · have hdigit : hexDigit (bits.free.high ||| 0x4000) 12 = 4 := by
      have hfixed : hexDigit 0xffffffffffff0fff 12 = 0 := by decide
      rw [hexDigit_or, RandomBits.free, hexDigit_and, hfixed, Nat.and_zero]
      decide
    rw [toList_text_random, List.getElem?_append_left (by simp), getElem?_hexWord _ (by decide),
      hdigit]
    rfl
  · have hdigit : hexDigit (bits.free.low ||| 0x8000000000000000) 0 =
        hexDigit bits.low 0 &&& 3 ||| 8 := by
      rw [hexDigit_or, RandomBits.free, hexDigit_and]
      rfl
    refine ⟨Nat.digitChar (hexDigit bits.low 0 &&& 3 ||| 8), ?_, ?_⟩
    · exact (by decide : ∀ n < 16, Nat.digitChar (n &&& 3 ||| 8) ∈ ['8', '9', 'a', 'b']) _
        (hexDigit_lt bits.low 0)
    · rw [toList_text_random, List.getElem?_append_right (by simp), length_hexWord,
        getElem?_hexWord _ (by decide), hdigit]

theorem random_ne_legacy (bits : RandomBits) : random bits ≠ .legacy := fun h =>
  absurd (h ▸ (isVersion4_random bits).length) (by decide)

/-- Bits that are set where a mask has none are taken off again by the mask. -/
theorem and_mask_or {mask set : UInt64} (h : set &&& mask = 0) (w : UInt64) :
    ((w &&& mask) ||| set) &&& mask = w &&& mask := by
  have hdistrib : ((w &&& mask) ||| set) &&& mask = (w &&& mask &&& mask) ||| (set &&& mask) :=
    UInt64.toBitVec_inj.mp BitVec.and_or_distrib_right
  rw [hdistrib, h, UInt64.or_zero, UInt64.and_assoc, UInt64.and_self]

/-- The bits that the version fixes can be taken off again. -/
theorem free_eq_of_or_eq {bits bits' : RandomBits}
    (hhigh : bits.free.high ||| 0x4000 = bits'.free.high ||| 0x4000)
    (hlow : bits.free.low ||| 0x8000000000000000 = bits'.free.low ||| 0x8000000000000000) :
    bits.free = bits'.free := by
  have hhigh' := congrArg (· &&& 0xffffffffffff0fff) hhigh
  have hlow' := congrArg (· &&& 0x3fffffffffffffff) hlow
  dsimp only [RandomBits.free] at hhigh' hlow'
  rw [and_mask_or (by decide), and_mask_or (by decide)] at hhigh' hlow'
  unfold RandomBits.free
  rw [hhigh', hlow']

/-- Two fresh ids are the same just if they are made from the same bits, as far as the version
leaves them free. -/
theorem random_eq_iff {bits bits' : RandomBits} :
    random bits = random bits' ↔ bits.free = bits'.free := by
  constructor
  · intro h
    have htext := congrArg (fun id => id.text.toList) h
    rw [toList_text_random, toList_text_random] at htext
    obtain ⟨hhigh, hlow⟩ := List.append_inj htext (by simp)
    exact free_eq_of_or_eq (hexWord_inj hhigh) (hexWord_inj hlow)
  · intro h
    have htext : (random bits).text = (random bits').text :=
      String.toList_inj.mp (by rw [toList_text_random, toList_text_random, h])
    exact congrArg UniqueId.mk htext

end UniqueId

end DeviceBridge
