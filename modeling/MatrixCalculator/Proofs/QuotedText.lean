import MatrixCalculator.Proofs.SpelledTokens

/-!
# Quoted text

A text between quotes is squeezed with the rest of the expression before anything knows that it is
quoted. What is left of it has one space for every stretch of blanks, also at its ends, since the
quotes keep them from being trimmed (`squeeze_quote`). That is the text of the one token it is read
as (`Token.readAll_quote`), and it is the text as written iff the only blanks are single spaces
(`collapse_eq_self_iff`). An equals sign is not looked at here: it parts the expression, quoted or
not.
-/

set_option autoImplicit false

namespace MatrixCalculator

namespace Text

/-! ### Texts with single spaces -/

/-- Whether the only blanks of a text are spaces, no two of which are next to each other. -/
structure SingleSpaced (text : List Char) : Prop where
  onlySpaces : ∀ c ∈ text, isBlank c = true → c = ' '
  apart : text.IsChain fun c d ↦ ¬(isBlank c = true ∧ isBlank d = true)

theorem singleSpaced_cons_iff (c : Char) (rest : List Char) :
    SingleSpaced (c :: rest) ↔ (isBlank c = true → c = ' ' ∧ rest.head?.any isBlank = false) ∧
      SingleSpaced rest := by
  have next : (∀ d ∈ rest.head?, ¬(isBlank c = true ∧ isBlank d = true)) ↔
      (isBlank c = true → rest.head?.any isBlank = false) := by
    cases rest <;> simp
  constructor
  · rintro ⟨onlySpaces, apart⟩
    rw [List.forall_mem_cons] at onlySpaces
    rw [List.isChain_cons, next] at apart
    exact ⟨fun blank ↦ ⟨onlySpaces.1 blank, apart.1 blank⟩, onlySpaces.2, apart.2⟩
  · rintro ⟨here, onlySpaces, apart⟩
    refine ⟨List.forall_mem_cons.mpr ⟨fun blank ↦ (here blank).1, onlySpaces⟩, ?_⟩
    rw [List.isChain_cons, next]
    exact ⟨fun blank ↦ (here blank).2, apart⟩

theorem length_collapse_le (text : List Char) : (collapse text).length ≤ text.length := by
  induction text with
  | nil => exact Nat.le_refl 0
  | cons c rest ih =>
    rw [collapse]
    split_ifs <;> simp only [List.length_cons] <;> omega

/-- Writing one space for every stretch of blanks changes nothing iff that is how the blanks are
written. -/
theorem collapse_eq_self_iff (text : List Char) : collapse text = text ↔ SingleSpaced text := by
  induction text with
  | nil => exact iff_of_true rfl ⟨by simp, .nil⟩
  | cons c rest ih =>
    -- A blank that is dropped leaves the text too short to be the same.
    have shorter : collapse rest ≠ c :: rest := fun same ↦ by
      have := length_collapse_le rest
      rw [same, List.length_cons] at this
      omega
    rw [singleSpaced_cons_iff, collapse, ← ih]
    split_ifs with blank next
    · simp [shorter, blank, next]
    · simp [blank, next, eq_comm]
    · simp [blank]

/-! ### Squeezing quoted text -/

/-- The quotes keep the blanks next to them from being trimmed. -/
theorem squeeze_quote (text : List Char) :
    squeeze ('"' :: (text ++ ['"'])) = '"' :: (collapse text ++ ['"']) := by
  have collapsed : collapse ('"' :: (text ++ ['"'])) = '"' :: (collapse text ++ ['"']) := by
    rw [collapse, if_neg (by decide), collapse_append_cons rfl, collapse]
  have started := trimStart_cons_of_not_isBlank (c := '"') rfl (collapse text ++ ['"'])
  have ended : trimEnd ('"' :: collapse text ++ ['"']) = '"' :: collapse text ++ ['"'] :=
    trimEnd_append_cons rfl ('"' :: collapse text) []
  rw [squeeze_eq_trim_collapse, collapsed, trim, started]
  exact ended

end Text

namespace Token

open Text

variable {registry : Registry} {store : Store}

/-! ### Reading quoted text -/

/-- Quoted text is one token. -/
theorem readAll_quote {text : List Char} (noQuote : '"' ∉ text) (noEquals : '=' ∉ text) :
    readAll registry store ('"' :: (text ++ ['"'])) =
      .ok [Token.text (String.ofList (collapse text))] := by
  have stillNoEquals : '=' ∉ '"' :: (text ++ ['"']) := by simpa using noEquals
  have whole := atoms_quote (not_mem_collapse_of_not_mem noQuote) []
  rw [readAll_of_not_mem registry store stillNoEquals, squeeze_quote, ofAtoms, whole, atoms,
    List.mapM_cons, ofAtom_quote, List.mapM_nil]
  rfl

/-- Quoted text is read as one token, the text of which has one space for every stretch of blanks.
It is read as written iff that is how its blanks are written. -/
theorem readAll_quoted_text (registry : Registry) (store : Store) (text : List Char)
    (noQuote : '"' ∉ text) (noEquals : '=' ∉ text) :
    readAll registry store ('"' :: (text ++ ['"'])) =
        .ok [Token.text (String.ofList (collapse text))] ∧
      (readAll registry store ('"' :: (text ++ ['"'])) = .ok [Token.text (String.ofList text)] ↔
        SingleSpaced text) := by
  refine ⟨readAll_quote noQuote noEquals, ?_⟩
  have sameText (left right : String) : Token.text left = Token.text right ↔ left = right :=
    ⟨fun same ↦ Payload.text.inj (congrArg Token.payload same), congrArg Token.text⟩
  rw [readAll_quote noQuote noEquals, Except.ok.injEq, List.cons.injEq, sameText,
    String.ofList_inj, collapse_eq_self_iff]
  exact and_iff_left rfl

theorem readAll_quoted_tab :
    '"' ∉ ['a', '\t', ' ', 'b'] ∧ '=' ∉ ['a', '\t', ' ', 'b'] ∧
      readAll .builtin (.empty {}) "\"a\t b\"".toList = .ok [Token.text "a b"] ∧
      readAll .builtin (.empty {}) "\"a\t b\"".toList ≠ .ok [Token.text "a\t b"] := by
  have noQuote : '"' ∉ ['a', '\t', ' ', 'b'] := by decide
  have noEquals : '=' ∉ ['a', '\t', ' ', 'b'] := by decide
  obtain ⟨read, asWritten⟩ := readAll_quoted_text .builtin (.empty {}) _ noQuote noEquals
  refine ⟨noQuote, noEquals, read, fun verbatim ↦ ?_⟩
  have noTab := (asWritten.mp verbatim).onlySpaces '\t' (by decide) rfl
  exact absurd noTab (by decide)

/-- Quoted text is not always read as written: two spaces become one, and an equals sign parts the
expression inside the quotes. -/
theorem quoted_text_changed :
    readAll .builtin (.empty {}) "\"a  b\"".toList = .ok [Token.text "a b"] ∧
      readAll .builtin (.empty {}) "\"a  b\"".toList ≠ .ok [Token.text "a  b"] ∧
      (readAll .builtin (.empty {}) "\"a=b\"".toList).toOption.isNone = true := by
  have noQuote : '"' ∉ ['a', ' ', ' ', 'b'] := by decide
  have read : readAll .builtin (.empty {}) "\"a  b\"".toList = .ok [Token.text "a b"] :=
    readAll_quote noQuote (by decide)
  refine ⟨read, fun verbatim ↦ ?_, by decide +kernel⟩
  have same := congrArg Token.payload (List.cons.inj (Except.ok.inj (read.symm.trans verbatim))).1
  exact absurd (Payload.text.inj same) (by decide)

end Token

end MatrixCalculator
