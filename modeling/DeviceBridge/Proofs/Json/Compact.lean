import DeviceBridge.Proofs.Json.Reread

/-!
# DeviceBridge.Proofs.Json.Compact

Documents, written without blanks and read back. The compact text of a document has the same tokens
as its text on lines (`run_writeCompact`), so it is read back as the same document (`read_compact`).
-/

namespace DeviceBridge.Json

theorem follows_compactItems (ds : List Document) {rest : List Char} (h : Follows rest) :
    Follows (Document.compactItems false ds rest) := by
  cases ds with
  | nil => exact h
  | cons d ds => exact follows_cons rfl _

theorem follows_compactMembers (ms : List (Option String × Document)) {rest : List Char}
    (h : Follows rest) : Follows (Document.compactMembers false ms rest) := by
  cases ms with
  | nil => exact h
  | cons m ms => exact follows_cons rfl _

mutual

/-- The compact text of a document has the tokens of the document. -/
theorem run_writeCompact (d : Document) (ts : List Token) {rest : List Char} (hr : Follows rest) :
    Lexer.run ⟨.between, ts⟩ (d.writeCompact rest) =
      Lexer.run ⟨.between, d.toTokens.reverse ++ ts⟩ rest := by
  cases d with
  | unrepresentable | null =>
      exact run_scalar (w := ['n', 'u', 'l', 'l']) (settles_word rfl ts) hr
  | bool b =>
      cases b
      · exact run_scalar (w := ['f', 'a', 'l', 's', 'e']) (settles_word rfl ts) hr
      · exact run_scalar (w := ['t', 'r', 'u', 'e']) (settles_word rfl ts) hr
  | number n => exact run_scalar (settles_writeNumber n ts) hr
  | string s => exact run_writeString s ts rest
  | array items =>
      have hopen (cs : List Char) : Lexer.run ⟨.between, ts⟩ ('[' :: cs) =
          Lexer.run ⟨.between, .openArray :: ts⟩ cs := rfl
      have hclose (ts : List Token) : Lexer.run ⟨.between, ts⟩ (']' :: rest) =
          Lexer.run ⟨.between, .closeArray :: ts⟩ rest := rfl
      rw [Document.writeCompact, hopen, run_compactItems true items _ (follows_cons rfl _), hclose]
      simp [Document.toTokens]
  | object members =>
      have hopen (cs : List Char) : Lexer.run ⟨.between, ts⟩ ('\x7b' :: cs) =
          Lexer.run ⟨.between, .openObject :: ts⟩ cs := rfl
      have hclose (ts : List Token) : Lexer.run ⟨.between, ts⟩ ('\x7d' :: rest) =
          Lexer.run ⟨.between, .closeObject :: ts⟩ rest := rfl
      rw [Document.writeCompact, hopen, run_compactMembers true members _ (follows_cons rfl _),
        hclose]
      simp [Document.toTokens]

theorem run_compactItems (first : Bool) (ds : List Document) (ts : List Token) {rest : List Char}
    (hr : Follows rest) :
    Lexer.run ⟨.between, ts⟩ (Document.compactItems first ds rest) =
      Lexer.run ⟨.between, (Document.itemTokens first ds).reverse ++ ts⟩ rest := by
  cases ds with
  | nil => rfl
  | cons d ds =>
      rw [Document.compactItems, run_comma, run_writeCompact d _ (follows_compactItems ds hr),
        run_compactItems false ds _ hr]
      cases first <;> simp [Document.itemTokens]

theorem run_compactMembers (first : Bool) (ms : List (Option String × Document)) (ts : List Token)
    {rest : List Char} (hr : Follows rest) :
    Lexer.run ⟨.between, ts⟩ (Document.compactMembers first ms rest) =
      Lexer.run ⟨.between, (Document.memberTokens first ms).reverse ++ ts⟩ rest := by
  cases ms with
  | nil => rfl
  | cons m ms =>
      obtain ⟨k, d⟩ := m
      have hcolon (ts : List Token) (cs : List Char) :
          Lexer.run ⟨.between, ts⟩ (':' :: cs) = Lexer.run ⟨.between, .colon :: ts⟩ cs := rfl
      rw [Document.compactMembers, List.append_assoc, run_comma, writeKey, run_writeString, hcolon,
        run_writeCompact d _ (follows_compactMembers ms hr), run_compactMembers false ms _ hr]
      cases first <;> simp [Document.memberTokens]

end

/-- The compact text of a document is read back as its text on lines is. -/
theorem read_compact (d : Document) : read d.compact = .ok (d.reread 0) := by
  have htokens : tokens (d.writeCompact []) = d.toTokens := by
    have hempty : Follows [] := fun c hc => by simp at hc
    have hrun := run_writeCompact d [] hempty
    rw [List.append_nil] at hrun
    exact hrun.trans (List.reverse_reverse _)
  unfold read Document.compact readTokens
  rw [String.toList_ofList, htokens, foldl_toTokens d (Reader.awaits_wantValue [])]
  rfl

end DeviceBridge.Json
