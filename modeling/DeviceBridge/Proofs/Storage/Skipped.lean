import DeviceBridge.Proofs.Storage.Staging

/-!
# DeviceBridge.Proofs.Storage.Skipped

Which files a conversion leaves alone. Where there is a file at a location, a conversion that
succeeds tells that it has converted nothing exactly if there is something at the target
(`Legacy.skipped_iff_occupied`). Whether that is a directory is not asked: a plain file there is as
good as a namespace, and so is the file itself, which is its own target if its name has no extension
(`Legacy.Pending.fileName?_ne`).
-/

namespace DeviceBridge

open Files

namespace Legacy

/-- A file that waits for its conversion has an extension. -/
theorem Pending.fileName?_ne {location : Path} {id : String} {staging : Namespace}
    {contexts : Json.Object} {t : Tree} (h : Pending location id staging contexts t) :
    location.fileName? ≠ some id.toList := by
  intro hname
  obtain ⟨hl, s, hf⟩ := h.file
  obtain ⟨-, -, name, hloc⟩ := h.of_file
  obtain ⟨init, -, -, -, -, hend⟩ := Path.exists_pieces_of_fileName? hl (by simp [hf]) hname
  have hsame : name = id := by
    rw [hloc, String.ofList_toList] at hend
    exact (List.append_inj' hend rfl).2 |> List.singleton_inj.mp
  have hnone := h.locate_target.2
  rw [h.target_location, ← hsame, ← hloc, hf] at hnone
  contradiction

/-- A file at a location is skipped exactly if there is something at the target, be it a directory
or a plain file, and then nothing changes; else it is converted. A file without an extension is
always skipped. -/
theorem skipped_iff_occupied {d : Disk} (hs : d.tree.Sound) {location : Path}
    (hfile : d.tree.stat location = .ok .file) :
    After (convert location) d
      (fun r d' => split location = .ok (r.outputDir, r.id) ∧
        (r.converted = false ↔ ∃ k, d.tree.stat (r.outputDir.join r.id) = .ok k) ∧
        (r.converted = false → d'.tree = d.tree) ∧
        (r.converted = true →
          d'.tree.entry? (r.outputDir.join r.id).location = some .directory) ∧
        (location.fileName? = some r.id.toList → r.converted = false))
      (fun _ _ => True) := by
  refine (after_convert_told hs location).mono (fun r d' h => ?_) fun _ _ _ => trivial
  have hmade (hr : r.converted = true) : ∃ staging contexts,
      Pending location r.id staging contexts d.tree ∧ staging.root = r.outputDir ∧
        d'.tree.entry? (r.outputDir.join r.id).location = some .directory := by
    obtain ⟨staging, contexts, hp, hcarried⟩ := h.made hr
    have hroot : staging.root = r.outputDir :=
      congrArg Prod.fst (Except.ok.inj (hp.split.symm.trans h.split))
    exact ⟨staging, contexts, hp, hroot, hroot ▸ hcarried.directory⟩
  refine ⟨h.split, ⟨fun hr => h.occupied hr hfile, fun hk => ?_⟩, h.kept, fun hr => ?_,
    fun hname => ?_⟩
  · obtain ⟨k, hk⟩ := hk
    refine Bool.eq_false_iff.mpr fun hr => ?_
    obtain ⟨staging, contexts, hp, hroot, -⟩ := hmade hr
    rw [← hroot, hp.target] at hk
    contradiction
  · obtain ⟨-, -, -, -, hdir⟩ := hmade hr
    exact hdir
  · refine Bool.eq_false_iff.mpr fun hr => ?_
    obtain ⟨staging, contexts, hp, -⟩ := hmade hr
    exact hp.fileName?_ne hname

/-- A file of contexts whose name has no extension, and one beside a file without. -/
def bareFiles : Disk where
  tree := [(["/", "v"], .directory), (["/", "v", "a"], .file (.text "\x7b\"k\": \x7b\x7d\x7d")),
    (["/", "v", "a.json"], .file (.text "\x7b\x7d"))]

theorem skipped_of_bareFiles :
    bareFiles.tree.Sound ∧
      ∀ location ∈ [(⟨"/v/a"⟩ : Path), ⟨"/v/a.json"⟩], bareFiles.tree.stat location = .ok .file ∧
        ∃ r d', convert location bareFiles = .ok r d' ∧ r.converted = false ∧
          d'.tree = bareFiles.tree := by
  have hs : bareFiles.tree.Sound := Tree.sound_of_entries (by decide) (by decide)
  have hskipped {location : Path} (hfile : (bareFiles.tree.stat location).toOption = some .file)
      (hsplit : (split location).toOption = some (⟨"/v"⟩, "a"))
      (hok : succeeds (convert location) bareFiles = true) :
      bareFiles.tree.stat location = .ok .file ∧
        ∃ r d', convert location bareFiles = .ok r d' ∧ r.converted = false ∧
          d'.tree = bareFiles.tree := by
    obtain ⟨r, hx⟩ := exists_eq_ok_of_succeeds hok
    obtain ⟨hr, hskipped, hkept, -⟩ :=
      (skipped_iff_occupied hs (eq_ok_of_toOption hfile)).of_ok hx
    obtain ⟨hdir, hid⟩ := Prod.mk.inj (Except.ok.inj (hr.symm.trans (eq_ok_of_toOption hsplit)))
    have hoccupied : (bareFiles.tree.stat (Path.join ⟨"/v"⟩ "a")).toOption = some .file := by
      decide +kernel
    have hfalse : r.converted = false :=
      hskipped.mpr ⟨.file, hdir ▸ hid ▸ eq_ok_of_toOption hoccupied⟩
    exact ⟨eq_ok_of_toOption hfile, r, _, hx, hfalse, hkept hfalse⟩
  refine ⟨hs, fun location hmem => ?_⟩
  simp only [List.mem_cons, List.not_mem_nil, or_false] at hmem
  obtain rfl | rfl := hmem
  · exact hskipped (by decide +kernel) (by decide +kernel) (by decide +kernel)
  · exact hskipped (by decide +kernel) (by decide +kernel) (by decide +kernel)

end Legacy

end DeviceBridge
