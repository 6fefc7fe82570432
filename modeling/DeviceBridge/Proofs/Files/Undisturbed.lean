import DeviceBridge.Proofs.Files.Straight

/-!
# DeviceBridge.Proofs.Files.Undisturbed

What work on a disk would do without faults. Work that succeeds has met no fault that mattered, so
it does the same on the same tree without any; and without faults it ends in one way only
(`Reproducible`). Each access is reproducible, as a fault is never mistaken for something missing,
and so is whatever is put together from accesses.
-/

namespace DeviceBridge.Files

variable {ε α β : Type}

/-- Work that ends on the same tree without faults as it does with them, unless it fails where a
fault may be the reason; failures that are never due to a fault are `genuine`. -/
def Reproducible (genuine : ε → Prop) (x : EStateM ε Disk α) : Prop :=
  ∀ d d₀ : Disk, d₀.Faultless → d₀.tree = d.tree →
    After x d
      (fun a d' => d'.faults = d.faults ∧
        ∃ d₀', x d₀ = .ok a d₀' ∧ d₀'.Faultless ∧ d₀'.tree = d'.tree)
      (fun e d' => d'.faults = d.faults ∧ (d.Faultless ∨ genuine e →
        ∃ d₀', x d₀ = .error e d₀' ∧ d₀'.Faultless ∧ d₀'.tree = d'.tree))

namespace Reproducible

variable {genuine : ε → Prop} {x : EStateM ε Disk α} {d d₀ : Disk}

theorem faults (h : Reproducible genuine x) (d : Disk) :
    Leaves x d fun d' => d'.faults = d.faults :=
  (h d { tree := d.tree } (fun _ => rfl) rfl).mono (fun _ _ h => h.1) fun _ _ h => h.1

theorem faultless (h : Reproducible genuine x) : Maintains Disk.Faultless x := fun d hd =>
  (h.faults d).mono (fun _ _ h k => h ▸ hd k) fun _ _ h k => h ▸ hd k

/-- Work that succeeds does the same without faults. -/
theorem of_ok (h : Reproducible genuine x) (hd₀ : d₀.Faultless) (ht : d₀.tree = d.tree) {a : α}
    {d' : Disk} (hx : x d = .ok a d') :
    ∃ d₀', x d₀ = .ok a d₀' ∧ d₀'.Faultless ∧ d₀'.tree = d'.tree :=
  ((h d d₀ hd₀ ht).of_ok hx).2

theorem undisturbed (h : Reproducible genuine x) {a : α} {d' : Disk} (hx : x d = .ok a d') :
    ∃ d₀, x { tree := d.tree } = .ok a d₀ ∧ d₀.tree = d'.tree :=
  (h.of_ok (fun _ => rfl) (show ({ tree := d.tree } : Disk).tree = d.tree from rfl) hx).imp
    fun _ h => ⟨h.1, h.2.2⟩

/-- Without faults there is one end. -/
theorem same (h : Reproducible genuine x) (hd : d.Faultless) (hd₀ : d₀.Faultless)
    (ht : d₀.tree = d.tree) :
    outcome x d₀ = outcome x d ∧ (stateAfter x d₀).tree = (stateAfter x d).tree := by
  unfold outcome stateAfter
  cases hx : x d with
  | ok a d' =>
      obtain ⟨d₀', hx₀, -, ht'⟩ := h.of_ok hd₀ ht hx
      rw [hx₀]
      exact ⟨rfl, ht'⟩
  | error e d' =>
      obtain ⟨d₀', hx₀, -, ht'⟩ := ((h d d₀ hd₀ ht).of_error hx).2 (.inl hd)
      rw [hx₀]
      exact ⟨rfl, ht'⟩

/-! ## Putting work together -/

theorem pure (a : α) : Reproducible genuine (pure a : EStateM ε Disk α) :=
  fun _ d₀ hd₀ ht => after_pure ⟨rfl, d₀, rfl, hd₀, ht⟩

theorem throw (e : ε) : Reproducible genuine (throw e : EStateM ε Disk α) :=
  fun _ d₀ hd₀ ht => after_throw ⟨rfl, fun _ => ⟨d₀, rfl, hd₀, ht⟩⟩

theorem bind {f : α → EStateM ε Disk β} (h : Reproducible genuine x)
    (hf : ∀ a, Reproducible genuine (f a)) : Reproducible genuine (x >>= f) := by
  intro d d₀ hd₀ ht
  refine after_bind ((h d d₀ hd₀ ht).mono (fun a d₁ h₁ => ?_) fun e d₁ h₁ => ⟨h₁.1, fun he => ?_⟩)
  · obtain ⟨hfaults, d₀₁, hx₀, hd₀₁, ht₁⟩ := h₁
    refine (hf a d₁ d₀₁ hd₀₁ ht₁).mono (fun b d₂ h₂ => ⟨h₂.1.trans hfaults, ?_⟩)
      fun e d₂ h₂ => ⟨h₂.1.trans hfaults, fun he => ?_⟩
    · rw [bind_eq_of_ok hx₀]
      exact h₂.2
    · rw [bind_eq_of_ok hx₀]
      refine h₂.2 (he.imp_left fun hd => ?_)
      unfold Disk.Faultless
      rw [hfaults]
      exact hd
  · obtain ⟨d₀₁, hx₀, hrest⟩ := h₁.2 he
    exact ⟨d₀₁, bind_eq_of_error hx₀, hrest⟩

theorem discard (h : Reproducible genuine x) : Reproducible genuine (discard x) :=
  h.bind fun _ => .pure _

theorem forM {items : List β} {f : β → EStateM ε Disk PUnit}
    (h : ∀ b ∈ items, Reproducible genuine (f b)) : Reproducible genuine (items.forM f) := by
  induction items with
  | nil => exact .pure _
  | cons b items ih =>
      exact (h b List.mem_cons_self).bind fun _ =>
        ih fun b' hb => h b' (List.mem_cons_of_mem b hb)

end Reproducible

/-! ## Accesses -/

namespace Disk

/-- That something is missing is never due to a fault. -/
abbrev Reproducible (x : Access α) : Prop := Files.Reproducible (· = .notFound) x

theorem reproducible_access (work : Tree → Except FileError (α × Tree))
    (trace : Fault → Tree → Tree) : Reproducible (access work trace) := by
  intro d d₀ hd₀ ht
  have hx₀ := access_of_faultless hd₀ work trace
  rw [ht] at hx₀
  unfold After
  cases hf : d.faults d.accesses with
  | some f =>
      have hx : access work trace d =
          .error f.error { d with accesses := d.accesses + 1, tree := trace f d.tree } := by
        unfold access
        rw [hf]
      rw [hx]
      refine ⟨rfl, fun h => h.elim (fun hd => ?_) fun hn => absurd hn f.ne_notFound⟩
      rw [hd d.accesses] at hf
      contradiction
  | none =>
      unfold access at hx₀ ⊢
      rw [hf]
      cases hw : work d.tree with
      | ok r =>
          rw [hw] at hx₀
          exact ⟨rfl, _, hx₀, hd₀, rfl⟩
      | error e =>
          rw [hw] at hx₀
          exact ⟨rfl, fun _ => ⟨_, hx₀, hd₀, rfl⟩⟩

theorem reproducible_look (view : Tree → Except FileError α) : Reproducible (look view) :=
  reproducible_access _ _

theorem Reproducible.ifPresent {x : Access α} (h : Reproducible x) :
    Reproducible (ifPresent x) := by
  intro d d₀ hd₀ ht
  refine .intro (fun r d' hr => ?_) fun e d' he => ?_
  · unfold Disk.ifPresent at hr
    split at hr
    · next hx =>
      obtain ⟨rfl, rfl⟩ := EStateM.Result.ok.inj hr
      obtain ⟨hf, d₀', hx₀, hrest⟩ := (h d d₀ hd₀ ht).of_ok hx
      exact ⟨hf, d₀', ifPresent_eq_some hx₀, hrest⟩
    · next hx =>
      obtain ⟨rfl, rfl⟩ := EStateM.Result.ok.inj hr
      obtain ⟨hf, hsame⟩ := (h d d₀ hd₀ ht).of_error hx
      obtain ⟨d₀', hx₀, hrest⟩ := hsame (.inr rfl)
      exact ⟨hf, d₀', ifPresent_eq_none hx₀, hrest⟩
    · cases hr
  · unfold Disk.ifPresent at he
    split at he
    · cases he
    · cases he
    · next hne hx =>
      obtain ⟨rfl, rfl⟩ := EStateM.Result.error.inj he
      obtain ⟨hf, hsame⟩ := (h d d₀ hd₀ ht).of_error hx
      refine ⟨hf, fun hg => ?_⟩
      obtain ⟨d₀', hx₀, hrest⟩ := hsame hg
      exact ⟨d₀', ifPresent_eq_error hx₀ hne, hrest⟩

theorem reproducible_isPresent (p : Path) : Reproducible (isPresent p) :=
  (reproducible_look _).ifPresent.bind fun _ => .pure _

theorem reproducible_makeDirsFrom (l : Location) (pieces : List (List Char)) :
    Reproducible (makeDirsFrom l pieces) := by
  induction pieces generalizing l with
  | nil => exact .pure _
  | cons piece rest ih => exact (reproducible_access _ _).bind ih

theorem reproducible_makeDirs (p : Path) : Reproducible (makeDirs p) := by
  unfold makeDirs
  split
  · exact .throw _
  · split
    · exact .pure _
    · exact reproducible_makeDirsFrom (Tree.start p) p.pieces

end Disk

end DeviceBridge.Files
