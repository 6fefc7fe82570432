import DeviceBridge.Proofs.Storage.Build

/-!
# DeviceBridge.Proofs.Storage.Layout

What the directory of a namespace holds when it holds the documents of some contexts and nothing
else (`Legacy.layout`), and whether the file system has room for the names of a document and of its
draft (`Context.HasRoom`).
-/

namespace DeviceBridge

open Json (Value Object)
open Files

namespace Legacy

/-! ## What the directory of a namespace holds -/

/-- The document for a context. -/
def document (name : String) (v : Value) : Entry :=
  .file (.text (Value.object (contents name v)).pretty)

/-- What lies in the directory of a namespace that holds some contexts, seen from that directory. -/
def layout (contexts : Object) : Location → Option Entry
  | [] => some .directory
  | [file] => (contexts.find? fun e => e.1 ++ ".json" = file).map fun e => document e.1 e.2
  | _ => none

theorem append_json_inj {a b : String} (h : a ++ ".json" = b ++ ".json") : a = b := by
  rw [← String.toList_inj, String.toList_append, String.toList_append, List.append_left_inj,
    String.toList_inj] at h
  exact h

theorem append_json_ne_draft (a b : String) : a ++ ".json" ≠ b ++ ".json" ++ ".tmp" := fun h => by
  have hlast := congrArg (fun s => s.toList.getLast?) h
  simp [String.toList_append] at hlast

theorem layout_file (contexts : Object) (file : String) :
    layout contexts [file] =
      (contexts.find? fun e => e.1 ++ ".json" = file).map fun e => document e.1 e.2 := rfl

/-- Each context has its document. -/
theorem layout_path (contexts : Object) (name : String) :
    layout contexts [name ++ ".json"] = (contexts.get? name).map (document name) := by
  induction contexts with
  | nil => rfl
  | cons e es ih =>
      obtain ⟨key, v⟩ := e
      rw [layout_file] at ih ⊢
      rw [List.find?_cons, Dictionary.get?_cons]
      by_cases hk : name = key
      · simp [hk]
      · have hne : key ++ ".json" ≠ name ++ ".json" := fun h => hk (append_json_inj h).symm
        rw [if_neg hk]
        simpa [hne] using ih

theorem layout_draft (contexts : Object) (name : String) :
    layout contexts [name ++ ".json" ++ ".tmp"] = none := by
  rw [layout_file, List.find?_eq_none.mpr]
  · rfl
  · intro e _
    simpa using append_json_ne_draft e.1 name

/-- One more context adds its document. -/
theorem layout_append {contexts : Object} {e : String × Value} (h : ∀ e' ∈ contexts, e'.1 ≠ e.1)
    (r : Location) :
    layout (contexts ++ [e]) r =
      if r = [e.1 ++ ".json"] then some (document e.1 e.2) else layout contexts r := by
  obtain _ | ⟨file, _ | ⟨_, _⟩⟩ := r
  · simp [layout]
  · rw [layout_file, layout_file, List.find?_append]
    by_cases hf : file = e.1 ++ ".json"
    · have hnone : contexts.find? (fun e' => e'.1 ++ ".json" = file) = none :=
        List.find?_eq_none.mpr fun e' he' heq =>
          h e' he' (append_json_inj ((of_decide_eq_true heq).trans hf))
      rw [hnone, hf]
      simp
    · simp [hf, Ne.symm hf]
  · simp [layout]

end Legacy

/-! ## Names -/

/-- Where the documents of a namespace are collected before it is there. -/
def Namespace.staging (n : Namespace) : Namespace where
  root := n.root
  name := ⟨Legacy.stagingName n.name.text, by
    have hvalid := n.name.valid
    have hsuffix : ".converting".toList.all fun c => c ≠ '/' ∧ c ≠ '\\' ∧ ¬ Text.isControl c := by
      decide
    have hlong : 2 < (n.name.text ++ ".converting").toList.length := by
      rw [String.toList_append, List.length_append]
      have : ".converting".toList.length = 11 := by decide
      omega
    unfold Legacy.stagingName
    unfold isStorageName at hvalid ⊢
    simp only [decide_eq_true_eq] at hvalid ⊢
    refine ⟨fun h => ?_, fun h => ?_, fun h => ?_, ?_⟩
    · simp [h] at hlong
    · simp [h] at hlong
    · simp [h] at hlong
    · rw [String.toList_append, List.all_append, hvalid.2.2.2, hsuffix]
      rfl⟩

namespace Context

/-- The document that becomes that of a context when its namespace is complete. -/
def staged (c : Context) : Context := ⟨c.space.staging, c.name⟩

theorem draft_text (c : Context) : c.draft.text = c.path.text ++ ".tmp" := by
  have hends := c.space.endsInName_dir
  rw [draft_eq, path, Path.text_join_append hends, Path.text_join_append hends]
  simp only [String.append_assoc]

/-- The documents below a root have paths that begin alike. -/
theorem exists_path_text (root : Path) : ∃ front, ∀ c : Context, c.space.root = root →
    c.path.text = front ++ c.space.name.text ++ ("/" ++ (c.name.text ++ ".json")) := by
  obtain ⟨slash, hjoin⟩ := Path.exists_text_join root
  refine ⟨root.text ++ slash, fun c hroot => ?_⟩
  unfold path
  rw [Path.text_join_append c.space.endsInName_dir]
  unfold Namespace.dir
  rw [hroot, hjoin]
  simp only [String.append_assoc]

/-- What can be said of a staged document can be said of the document, whose path is shorter. -/
theorem pathFault?_of_staged {c : Context} {p q : Path} (suffix : String)
    (hp : p.text = c.path.text ++ suffix) (hq : q.text = c.staged.path.text ++ suffix)
    (h : Tree.pathFault? q = none) : Tree.pathFault? p = none := by
  obtain ⟨front, htext⟩ := exists_path_text c.space.root
  have hstaged : c.staged.path.text = front ++ (c.space.name.text ++ ".converting") ++
      ("/" ++ (c.name.text ++ ".json")) := htext c.staged rfl
  have hsayable := Path.pathFault?_eq_none_iff.mp h
  rw [hq, hstaged] at hsayable
  refine Path.pathFault?_eq_none_iff.mpr ?_
  rw [hp, htext c rfl]
  simp only [String.toList_append, List.mem_append, String.utf8ByteSize_append] at hsayable ⊢
  grind

/-- The file system has room for the names of a document and of its draft. -/
structure HasRoom (c : Context) : Prop where
  sayable : Tree.pathFault? c.draft = none
  fits : Fits (c.name.text ++ ".json" ++ ".tmp").toList

namespace HasRoom

variable {c : Context} {t : Tree}

theorem locate_draft (h : c.HasRoom) (hr : c.space.Reached t) :
    t.locate c.draft = .ok c.draft.location := by
  have hsayable := h.sayable
  rw [draft_eq] at hsayable ⊢
  exact Path.locate_join_of_fits c.draft_isFileName.slashless hr.1 hr.2 hsayable h.fits

theorem locate_path (h : c.HasRoom) (hr : c.space.Reached t) :
    t.locate c.path = .ok c.path.location := by
  refine Path.locate_join_of_fits c.isFileName.slashless hr.1 hr.2
    (Path.pathFault?_of_append c.draft_text h.sayable) fun _ _ => ?_
  have hlong := h.fits c.draft_isFileName.notIdle c.draft_isFileName.notAbove
  rw [String.ofList_toList] at hlong ⊢
  rw [String.utf8ByteSize_append] at hlong
  omega

/-- There is more room for a document than for the staged one. -/
theorem of_staged (h : c.staged.HasRoom) : c.HasRoom :=
  ⟨pathFault?_of_staged ".tmp" c.draft_text c.staged.draft_text h.sayable, h.fits⟩

end HasRoom

end Context

end DeviceBridge
