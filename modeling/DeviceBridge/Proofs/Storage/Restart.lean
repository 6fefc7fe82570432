import DeviceBridge.Proofs.Files.Undisturbed
import DeviceBridge.Proofs.Storage.Build

/-!
# DeviceBridge.Proofs.Storage.Restart

A conversion is done as a whole or can be started again (`Legacy.convert_restarts`). While a file
waits for its conversion, what has become of the staging directory does not matter: a call without
faults takes the directory away first, and what it does then depends on the rest of the tree only
(`Legacy.Pending.convert_eq`).
-/

namespace DeviceBridge

open Json (Value Object)
open Files

/-! ## The same without faults -/

namespace Storing

variable {α : Type}

/-- Any failure may be due to a fault. -/
abbrev Reproducible (x : Storing α) : Prop := Files.Reproducible (fun _ => False) x

theorem ofDisk_eq_ok {x : Files.Access α} {d d' : Disk} {a : α} (h : x d = .ok a d') :
    ofDisk x d = .ok a d' := by
  unfold ofDisk
  rw [h]

theorem ofDisk_eq_error {x : Files.Access α} {d d' : Disk} {e : FileError}
    (h : x d = .error e d') : ofDisk x d = .error (.io e) d' := by
  unfold ofDisk
  rw [h]

theorem reproducible_ofDisk {x : Files.Access α} (h : Disk.Reproducible x) :
    Reproducible (ofDisk x) := fun d d₀ hd₀ ht =>
  .within .io (by unfold ofDisk; cases x d <;> rfl) ((h d d₀ hd₀ ht).mono
    (fun _ _ h => ⟨h.1, h.2.imp fun _ h => ⟨ofDisk_eq_ok h.1, h.2⟩⟩)
    fun _ _ h => ⟨h.1, fun hd => (h.2 (.inl (hd.resolve_right id))).imp
      fun _ h => ⟨ofDisk_eq_error h.1, h.2⟩⟩)

theorem reproducible_ofExcept (x : Except StorageError α) : Reproducible (ofExcept x) := by
  cases x with
  | ok a => exact .pure a
  | error e => exact .throw e

theorem reproducible_ofJson (x : Except Json.Error α) : Reproducible (ofJson x) := by
  cases x with
  | ok a => exact .pure a
  | error e => exact .throw _

end Storing

open Storing (Reproducible reproducible_ofDisk reproducible_ofExcept reproducible_ofJson)

theorem Context.reproducible_save (c : Context) (entries : Object) :
    Reproducible (c.save entries) :=
  reproducible_ofDisk ((Disk.reproducible_makeDirs _).bind fun _ =>
    (Disk.reproducible_access _ _).bind fun _ => Disk.reproducible_access _ _)

namespace Legacy

theorem reproducible_writeContexts (space : Namespace) (contexts : Object) :
    Reproducible (writeContexts space contexts) := by
  unfold writeContexts
  refine .bind (.forM fun e _ => ?_) fun _ => .forM fun e _ => ?_
  · exact .discard (reproducible_ofExcept _)
  · exact .bind (reproducible_ofExcept _) fun c => c.reproducible_save _

theorem reproducible_orDiscard {α : Type} {x : Storing α} (h : Reproducible x)
    (space : Namespace) : Reproducible (orDiscard space x) := by
  intro d d₀ hd₀ ht
  have hremove : Disk.Reproducible (Disk.removeTree space.dir) := Disk.reproducible_access _ _
  have hx := h d d₀ hd₀ ht
  unfold After
  cases hxd : x d with
  | ok a d₁ =>
      rw [orDiscard_eq_ok hxd]
      obtain ⟨hf, d₀₁, hx₀, hrest⟩ := hx.of_ok hxd
      exact ⟨hf, d₀₁, orDiscard_eq_ok hx₀, hrest⟩
  | error e d₁ =>
      rw [orDiscard_eq_error hxd]
      obtain ⟨hf, hsame⟩ := hx.of_error hxd
      refine ⟨(hremove.faults d₁).stateAfter.trans hf, fun hd => ?_⟩
      obtain ⟨d₀₁, hx₀, hd₀₁, ht₁⟩ := hsame hd
      have hd₁ : d₁.Faultless := fun k => hf ▸ (hd.resolve_right id) k
      exact ⟨_, orDiscard_eq_error hx₀, (hremove.faultless d₀₁ hd₀₁).stateAfter,
        (hremove.same hd₁ hd₀₁ ht₁).2⟩

theorem reproducible_build (staging : Namespace) (target : Path) (contexts : Object) :
    Reproducible (build staging target contexts) :=
  .bind (reproducible_orDiscard (reproducible_writeContexts staging contexts) staging) fun _ =>
    reproducible_ofDisk ((Disk.reproducible_makeDirs _).bind fun _ =>
      Disk.reproducible_access _ _)

theorem reproducible_readContexts (location : Path) : Reproducible (readContexts location) := by
  unfold readContexts
  refine .bind (reproducible_ofDisk (Disk.reproducible_look _)) fun s =>
    .bind (reproducible_ofJson _) fun v => ?_
  cases v with
  | object entries => exact .pure _
  | null | bool b | number n | string s | array items => exact .throw _

theorem reproducible_convertFile (location outputDir target : Path) (id : String) :
    Reproducible (convertFile location outputDir target id) := by
  unfold convertFile
  refine .bind (reproducible_readContexts location) fun contexts =>
    .bind (reproducible_ofExcept _) fun staging =>
      .bind (reproducible_ofDisk (Disk.reproducible_isPresent _)) fun b => ?_
  have hbuild := reproducible_build staging target contexts
  cases b with
  | true =>
      exact .bind (reproducible_ofDisk (Disk.reproducible_access _ _)) fun _ => hbuild
  | false => exact hbuild

theorem reproducible_convert (location : Path) : Reproducible (convert location) := by
  unfold convert
  refine .bind (reproducible_ofExcept _) fun r => ?_
  obtain ⟨outputDir, id⟩ := r
  refine .bind (reproducible_ofDisk (Disk.reproducible_look _).ifPresent) fun k => ?_
  obtain _ | _ | _ := k
  · exact .pure _
  · refine .bind (reproducible_ofDisk (Disk.reproducible_isPresent _)) fun b => ?_
    cases b with
    | true => exact .pure _
    | false => exact .bind (reproducible_convertFile location outputDir _ id) fun _ => .pure _
  · exact .pure _

/-! ## Starting again -/

variable {location : Path} {id : String} {staging : Namespace} {contexts : Object} {t t' : Tree}
  {d : Disk}

/-- Whatever has become of the staging directory, a call without faults ends in the same way. -/
theorem Pending.resumes (h : Pending location id staging contexts t)
    (hc : Tree.Confined staging.home (t.prune staging.home) t')
    (hr : (t.prune staging.home).locate location = t.locate location) :
    outcome (convert location) { tree := t' } = outcome (convert location) { tree := t } ∧
      (stateAfter (convert location) { tree := t' }).tree =
        (stateAfter (convert location) { tree := t }).tree := by
  obtain ⟨d₁, hd₁, ht₁, hx₁⟩ := h.convert_eq (d := { tree := t }) (fun _ => rfl) rfl
  obtain ⟨d₂, hd₂, ht₂, hx₂⟩ := (h.of_confined hc hr).convert_eq (d := { tree := t' })
    (fun _ => rfl) rfl
  have hbuild : Reproducible (do
      build staging (staging.root.join id) contexts
      return ⟨staging.root, id, true⟩ : Storing Conversion) :=
    .bind (reproducible_build _ _ _) fun _ => .pure _
  have hsame := hbuild.same hd₁ hd₂ (ht₂.trans (hc.rest.trans ht₁.symm))
  unfold outcome stateAfter at hsame ⊢
  rw [hx₁, hx₂]
  exact hsame

/-- A failed call without faults has left nothing of the staging directory if it got to it. -/
theorem discarded_of_error (hs : d.tree.Sound) (hd : d.Faultless) {e : StorageError} {d' : Disk}
    (hx : convert location d = .error e d') :
    d'.tree = d.tree ∨ ∃ id staging contexts, Pending location id staging contexts d.tree ∧
      d'.tree = d.tree.prune staging.home := by
  refine ((after_convert hs location).of_error hx).imp_right ?_
  rintro ⟨id, staging, contexts, hp, -⟩
  refine ⟨id, staging, contexts, hp, ?_⟩
  obtain ⟨d₁, hd₁, ht₁, hx₁⟩ := hp.convert_eq hd rfl
  have hbuild : After (do
      build staging (staging.root.join id) contexts
      return ⟨staging.root, id, true⟩ : Storing Conversion) d₁ (fun _ _ => True)
      (fun _ d' => d'.tree = d.tree.prune staging.home) :=
    after_bind ((hp.after_build_faultless hd₁ ht₁).imp fun _ _ _ => after_pure trivial)
  exact hbuild.of_error (hx₁.symm.trans hx)

section
variable {outputDir : Path} (hs : d.tree.Sound)
  (hsplit : Legacy.split location = .ok (outputDir, id))

theorem not_isPrefix_of_target {l m : Location} (h : l ++ [id] <+: m) :
    ¬ l ++ [stagingName id] <+: m := fun h' => by
  have hsame := (List.prefix_of_prefix_length_le h' h (by simp)).eq_of_length (by simp)
  exact stagingName_ne id (by simpa using hsame)

include hs hsplit

/-- A call that fails changes nothing outside of the staging directory. -/
theorem outside_of_error {e : StorageError} {d' : Disk} (hx : convert location d = .error e d')
    {l : Location} (hl : ¬ outputDir.location ++ [stagingName id] <+: l) :
    d'.tree.entry? l = d.tree.entry? l :=
  ((after_convert hs location).of_error hx).entry?_eq hsplit hl

section
variable (hr : (d.tree.prune (outputDir.location ++ [stagingName id])).locate location =
  d.tree.locate location)
include hr

/-- A call that failed without faults fails in the same way again. -/
theorem repeated_of_error (hd : d.Faultless) {e : StorageError} {d' : Disk}
    (hx : convert location d = .error e d') :
    ∃ d₀, convert location { tree := d'.tree } = .error e d₀ ∧ d₀.tree = d'.tree := by
  have hfresh : ({ tree := d.tree } : Disk).Faultless := fun _ => rfl
  obtain ⟨hfirst, htree⟩ := (reproducible_convert location).same hd hfresh rfl
  rw [outcome_eq_of_error hx] at hfirst
  rw [stateAfter_eq_of_error hx] at htree
  obtain ht | ⟨id', staging, contexts, hp, ht⟩ := discarded_of_error hs hd hx
  · rw [← ht] at hfirst htree
    exact ⟨_, eq_error_of_outcome hfirst, htree⟩
  · rw [← hp.home_of_split hsplit] at hr
    obtain ⟨hagain, htree'⟩ := hp.resumes (hp.confined.prune staging.home_isBase) hr
    rw [← ht] at hagain htree'
    exact ⟨_, eq_error_of_outcome (hagain.trans hfirst), htree'.trans htree⟩

/-- However a call ended, another one without faults ends with the tree of a call without faults. -/
theorem stateAfter_convert_again :
    (stateAfter (convert location) { tree := (stateAfter (convert location) d).tree }).tree =
      (stateAfter (convert location) { tree := d.tree }).tree := by
  cases hx : convert location d with
  | ok r d' =>
      rw [stateAfter_eq_of_ok hx]
      obtain ⟨d₀, hx₀, ht₀⟩ := (reproducible_convert location).undisturbed hx
      rw [stateAfter_eq_of_ok hx₀, ht₀]
      obtain ht | ⟨id', staging, contexts, hp, hs', hdir⟩ := (after_convert hs location).of_ok hx
      · rw [ht, stateAfter_eq_of_ok hx₀, ht₀, ht]
      · have hkept := after_convert_kept (d := { tree := d'.tree }) hs' hp.split hdir
        exact (hkept.imp fun _ _ h => h.2).stateAfter
  | error e d' =>
      rw [stateAfter_eq_of_error hx]
      obtain ht | ⟨id', staging, contexts, hp, hc⟩ := (after_convert hs location).of_error hx
      · rw [ht]
      · rw [← hp.home_of_split hsplit] at hr
        exact (hp.resumes hc hr).2

end

end

/-- What a call on a disk promises, whatever faults strike. A call that is cut off is one for which
every access from some point on fails. -/
structure Restartable (location : Path) (staging target : Location) (d : Disk) : Prop where
  /-- A call that succeeds has done all that it does without faults. -/
  complete : ∀ r d', convert location d = .ok r d' →
    ∃ d₀, convert location { tree := d.tree } = .ok r d₀ ∧ d₀.tree = d'.tree
  /-- A call that fails changes nothing outside of the staging directory, -/
  outside : ∀ e d', convert location d = .error e d' →
    ∀ l, ¬ staging <+: l → d'.tree.entry? l = d.tree.entry? l
  /-- and so nothing at the target. -/
  target : ∀ e d', convert location d = .error e d' →
    ∀ l, target <+: l → d'.tree.entry? l = d.tree.entry? l
  /-- Without faults it leaves nothing in the staging directory, unless it has not come so far as to
  touch it. -/
  discarded : d.Faultless → ∀ e d', convert location d = .error e d' →
    d'.tree = d.tree ∨ d'.tree = d.tree.prune staging
  /-- If the location leads to the same place without the staging directory, a call that failed
  without faults fails in the same way again, and changes nothing any more. -/
  repeated : (d.tree.prune staging).locate location = d.tree.locate location → d.Faultless →
    ∀ e d', convert location d = .error e d' →
      ∃ d₀, convert location { tree := d'.tree } = .error e d₀ ∧ d₀.tree = d'.tree
  /-- In that case, another call without faults ends with the tree of one that was not disturbed. -/
  resumed : (d.tree.prune staging).locate location = d.tree.locate location →
    (stateAfter (convert location) { tree := (stateAfter (convert location) d).tree }).tree =
      (stateAfter (convert location) { tree := d.tree }).tree

/-- A conversion is done as a whole or can be started again. -/
theorem convert_restarts (hs : d.tree.Sound) (location : Path) :
    match split location with
    | .error e => convert location d = .error e d
    | .ok (outputDir, id) => Restartable location (outputDir.location ++ [stagingName id])
        (outputDir.location ++ [id]) d := by
  cases hsplit : split location with
  | error e =>
      have hfail : Storing.ofExcept (.error e : Except StorageError (Path × String)) d =
          .error e d := rfl
      unfold convert
      rw [hsplit]
      exact bind_eq_of_error hfail
  | ok r =>
      obtain ⟨outputDir, id⟩ := r
      refine ⟨?complete, ?outside, ?target, ?discarded, ?repeated, ?resumed⟩
      case complete => exact fun r d' hx => (reproducible_convert location).undisturbed hx
      case outside => exact fun e d' hx l => outside_of_error hs hsplit hx
      case target =>
        exact fun e d' hx l hl => outside_of_error hs hsplit hx (not_isPrefix_of_target hl)
      case discarded =>
        refine fun hd e d' hx => (discarded_of_error hs hd hx).imp_right ?_
        rintro ⟨id', staging, contexts, hp, ht⟩
        rw [ht, hp.home_of_split hsplit]
      case repeated => exact fun hr hd e d' => repeated_of_error hs hsplit hr hd
      case resumed => exact stateAfter_convert_again hs hsplit

/-- A disk that breaks off a conversion when one document has been written and another has not. -/
def cutOff : Disk where
  tree := [(["/", "v"], .directory),
    (["/", "v", "c.json"], .file (.text "\x7b\"a\": \x7b\"x\": 1\x7d, \"b\": 2\x7d"))]
  faults k := if 9 ≤ k then some ⟨.denied, denied_ne_notFound, none, fun _ => false⟩ else none

theorem convert_restarts_cutOff : cutOff.tree.Sound ∧
    succeeds (convert ⟨"/v/c.json"⟩) cutOff = false ∧
    (stateAfter (convert ⟨"/v/c.json"⟩) cutOff).tree.entry?
      ["/", "v", "c.converting", "a.json"] ≠ none ∧
    Restartable ⟨"/v/c.json"⟩ ["/", "v", "c.converting"] ["/", "v", "c"] cutOff := by
  have hs : cutOff.tree.Sound := Tree.sound_of_entries (by decide) (by decide)
  have hsplit : split ⟨"/v/c.json"⟩ = .ok (⟨"/v"⟩, "c") := eq_ok_of_toOption (by decide +kernel)
  have hrestart := convert_restarts hs ⟨"/v/c.json"⟩
  have hstaging : Path.location ⟨"/v"⟩ ++ [stagingName "c"] = ["/", "v", "c.converting"] := by
    decide +kernel
  have htarget : Path.location ⟨"/v"⟩ ++ ["c"] = ["/", "v", "c"] := by decide +kernel
  rw [hsplit] at hrestart
  dsimp only at hrestart
  rw [hstaging, htarget] at hrestart
  exact ⟨hs, by decide +kernel, by decide +kernel, hrestart⟩

/-- A tree in which a location leads to its file through the staging directory. -/
def passingThrough : Tree :=
  [(["c.converting"], .directory), (["c.json"], .file (.text "\x7b\"a/b\": \x7b\x7d\x7d"))]

/-- A call that fails can succeed when it is made again: it has taken away the directory that the
location leads through, so there is no file any more. -/
theorem convert_error_not_repeated :
    ¬ ∀ (d d' : Disk) (location : Path) (e : StorageError), d.tree.Sound → d.Faultless →
      convert location d = .error e d' → ∃ d'', convert location d' = .error e d'' := by
  intro h
  have hfirst : succeeds (convert ⟨"c.converting/../c.json"⟩) { tree := passingThrough } =
      false := by decide +kernel
  have hagain : succeeds (convert ⟨"c.converting/../c.json"⟩)
      (stateAfter (convert ⟨"c.converting/../c.json"⟩) { tree := passingThrough }) = true := by
    decide +kernel
  obtain ⟨e, hx⟩ := eq_error_of_not_succeeds hfirst
  obtain ⟨d'', hx'⟩ := h _ _ _ e (Tree.sound_of_entries (by decide) (by decide)) (fun _ => rfl) hx
  unfold succeeds at hagain
  rw [hx'] at hagain
  cases hagain

end Legacy

end DeviceBridge
