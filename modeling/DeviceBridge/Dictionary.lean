/-!
# DeviceBridge.Dictionary

Finite maps as lists of entries in the order of their keys. `get?` is the view through which every
other operation is described; `Ordered` says that the keys ascend, so that each stands once.
-/

namespace DeviceBridge

/-- A finite map: its entries in ascending order of the keys. -/
abbrev Dictionary (κ α : Type) := List (κ × α)

namespace Dictionary

variable {κ α : Type}

/-- The value at a key. -/
def get? [DecidableEq κ] (d : Dictionary κ α) (k : κ) : Option α :=
  match d with
  | [] => none
  | (l, v) :: r => if k = l then some v else get? r k

/-- Whether a key has a value. -/
def contains [DecidableEq κ] (d : Dictionary κ α) (k : κ) : Bool := (d.get? k).isSome

/-- The keys in order. -/
def keys (d : Dictionary κ α) : List κ := d.map Prod.fst

/-- Sets the value at a key, in the place where the key belongs. -/
def insert [DecidableEq κ] [LT κ] [DecidableLT κ] (d : Dictionary κ α) (k : κ) (v : α) :
    Dictionary κ α :=
  match d with
  | [] => [(k, v)]
  | (l, w) :: r =>
    if k = l then (k, v) :: r
    else if k < l then (k, v) :: (l, w) :: r
    else (l, w) :: insert r k v

/-- Removes a key. -/
def erase [DecidableEq κ] (d : Dictionary κ α) (k : κ) : Dictionary κ α :=
  d.filter fun e => e.1 ≠ k

/-- Enters the pairs one after the other; of equal keys the last wins. -/
def ofList [DecidableEq κ] [LT κ] [DecidableLT κ] (entries : List (κ × α)) : Dictionary κ α :=
  entries.foldl (fun d e => d.insert e.1 e.2) []

/-- The keys ascend. -/
def Ordered [LT κ] (d : Dictionary κ α) : Prop := d.Pairwise fun a b => a.1 < b.1

/-! ## What the operations do to the view -/

section
variable [DecidableEq κ]

@[simp] theorem get?_nil (k : κ) : get? ([] : Dictionary κ α) k = none := rfl

theorem get?_cons (k l : κ) (v : α) (r : Dictionary κ α) :
    get? ((l, v) :: r) k = if k = l then some v else get? r k := rfl

theorem get?_insert [LT κ] [DecidableLT κ] (d : Dictionary κ α) (k l : κ) (v : α) :
    (d.insert k v).get? l = if l = k then some v else d.get? l := by
  induction d with
  | nil => simp [insert, get?]
  | cons e r ih =>
    obtain ⟨m, w⟩ := e
    by_cases hkm : k = m
    · subst hkm
      by_cases hlk : l = k <;> simp [insert, get?, hlk]
    · by_cases hlt : k < m
      · by_cases hlk : l = k <;> simp [insert, get?, hkm, hlt, hlk]
      · by_cases hlm : l = m
        · subst hlm
          simp [insert, get?, hkm, hlt, Ne.symm hkm]
        · simp [insert, get?, hkm, hlt, hlm, ih]

theorem get?_erase (d : Dictionary κ α) (k l : κ) :
    (d.erase k).get? l = if l = k then none else d.get? l := by
  induction d with
  | nil => simp [erase]
  | cons e r ih =>
    obtain ⟨m, w⟩ := e
    unfold erase at ih ⊢
    by_cases hmk : m = k
    · subst hmk
      by_cases hlm : l = m <;> simp_all [get?]
    · by_cases hlm : l = m
      · subst hlm
        simp [get?, hmk]
      · simp only [ne_eq, decide_not] at ih
        simp [get?, hmk, hlm, ih]

end

end Dictionary

end DeviceBridge
