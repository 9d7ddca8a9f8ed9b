import MatrixCalculator.Command.Compile
import MatrixCalculator.Proofs.TokenReading

/-!
# Assignments to several names

The left side of an assignment to several names is made of names with commas between them, so its
atoms are those names and commas (`atoms_of_names`). Compiling takes such an assignment apart before
anything is read; reading it whole gives the same names, the equals sign and the tokens of the right
side (`readAll_of_multiAssignment?`).
-/

set_option autoImplicit false

namespace MatrixCalculator

open Text

/-! ### Names with commas between them -/

/-- The pieces of a text with the character between them at which it was cut are the text. -/
theorem intercalate_split (cut : Char) (text : List Char) :
    [cut].intercalate (split (· == cut) text) = text := by
  induction text with
  | nil => rfl
  | cons c rest ih =>
    obtain ⟨piece, pieces, parts⟩ := List.exists_cons_of_ne_nil (split_ne_nil (· == cut) rest)
    by_cases isCut : c = cut
    · subst isCut
      rw [split, if_pos (by simp), List.intercalate_cons_of_ne_nil (split_ne_nil _ _), ih]
      rfl
    · rw [split, if_neg (by simpa using isCut), parts]
      rw [parts] at ih
      change [cut].intercalate ((c :: piece) :: pieces) = c :: rest
      rw [List.intercalate_cons_cons_left, ih]

theorem quotesClosed_of_isIdentifier_trim {piece : List Char}
    (isName : Name.isIdentifier (trim piece) = true) : QuotesClosed piece := by
  rw [← quotesClosed_trim_iff]
  exact quotesClosed_of_not_mem (Name.not_mem_of_isIdentifier isName rfl)

theorem atoms_of_isIdentifier_trim {piece : List Char}
    (isName : Name.isIdentifier (trim piece) = true) : atoms piece = [trim piece] := by
  rw [← atoms_trim (quotesClosed_of_isIdentifier_trim isName), atoms_name isName]

theorem comma_single : Atom.Single ',' := ⟨by decide, by decide, by decide⟩

/-- The atoms of names with commas between them are the names and the commas. -/
theorem atoms_of_names {pieces : List (List Char)}
    (areNames : ∀ piece ∈ pieces, Name.isIdentifier (trim piece) = true) :
    atoms ([','].intercalate pieces) = (pieces.map trim).intersperse [','] := by
  induction pieces with
  | nil => simp [atoms]
  | cons piece rest ih =>
    rw [List.forall_mem_cons] at areNames
    cases rest with
    | nil => simpa using atoms_of_isIdentifier_trim areNames.1
    | cons next rest =>
      rw [List.intercalate_cons_cons, List.append_assoc, List.singleton_append,
        atoms_append_cons Atom.stops_comma (quotesClosed_of_isIdentifier_trim areNames.1),
        atoms_of_isIdentifier_trim areNames.1, atoms_cons_of_single rfl comma_single,
        ih areNames.2]
      rfl

theorem quotesClosed_of_names {pieces : List (List Char)}
    (areNames : ∀ piece ∈ pieces, Name.isIdentifier (trim piece) = true) :
    QuotesClosed ([','].intercalate pieces) := by
  induction pieces with
  | nil => rfl
  | cons piece rest ih =>
    rw [List.forall_mem_cons] at areNames
    have closed := quotesClosed_of_isIdentifier_trim areNames.1
    have comma : QuotesClosed [','] := rfl
    cases rest with
    | nil => rwa [List.intercalate_singleton]
    | cons next rest =>
      rw [List.intercalate_cons_cons, List.append_assoc, quotesClosed_append_iff closed,
        quotesClosed_append_iff comma]
      exact ih areNames.2

/-- There are no blanks to squeeze in names and commas. -/
theorem map_collapse_names {names : List (List Char)}
    (areNames : ∀ name ∈ names, Name.isIdentifier name = true) :
    (names.intersperse [',']).map collapse = names.intersperse [','] := by
  induction names with
  | nil => rfl
  | cons name rest ih =>
    rw [List.forall_mem_cons] at areNames
    have kept := collapse_of_forall (Name.isWord_of_isIdentifier areNames.1).2
    cases rest with
    | nil => exact congrArg (fun first ↦ [first]) kept
    | cons next rest =>
      exact congrArg₂ (fun first behind ↦ first :: [','] :: behind) kept (ih areNames.2)

/-! ### Taking the assignment apart -/

/-- What an assignment to several names looks like. -/
theorem exists_of_multiAssignment? {text right : List Char} {names : List (List Char)}
    (several : multiAssignment? text = .ok (some (names, right))) :
    ∃ left, Assignment.split text = .ok (some (left, right)) ∧ ',' ∈ left ∧
      names = (split (· == ',') left).map trim ∧ ∀ name ∈ names, Name.isIdentifier name = true := by
  unfold multiAssignment? at several
  split at several
  · cases several
  · cases several
  · rename_i left behind parted
    split_ifs at several with isSeveral
    · dsimp only at several
      split at several
      · cases several
      · rename_i allNames
        cases several
        refine ⟨left, parted, by simpa using isSeveral, rfl, ?_⟩
        simpa [List.find?_eq_none] using allNames
    · cases several

/-- With a comma on its left side an assignment is not compound. -/
theorem compound?_of_comma {text left right : List Char}
    (parted : Assignment.split text = .ok (some (left, right))) (comma : ',' ∈ left) :
    Assignment.compound? (squeeze text) = none := by
  rcases compound : Assignment.compound? (squeeze text) with _ | ⟨name, op, rest⟩
  · rfl
  · obtain ⟨gap, sides, gapBlank, isName, isOp⟩ :=
      Assignment.sides_of_compound? compound (Assignment.split_squeeze parted)
    have stillComma : ',' ∈ squeeze left := by
      rw [← List.count_pos_iff, count_squeeze rfl, List.count_pos_iff]
      exact comma
    rw [sides, List.mem_append, List.mem_append, List.mem_singleton] at stillComma
    rcases stillComma with (inName | inGap) | rfl
    · exact absurd inName (Name.not_mem_of_isIdentifier isName rfl)
    · cases gapBlank _ inGap
    · cases isOp

/-- The tokens of names with commas between them. -/
def nameTokens (names : List (List Char)) : List Token :=
  (names.map fun name ↦ Token.matrixRef (String.ofList name)).intersperse .separator

theorem nameTokens_cons_cons (name next : List Char) (rest : List (List Char)) :
    nameTokens (name :: next :: rest) =
      .matrixRef (String.ofList name) :: .separator :: nameTokens (next :: rest) := rfl

theorem kind_of_mem_nameTokens {names : List (List Char)} :
    ∀ t ∈ nameTokens names, t.kind = .matrixRef ∨ t.kind = .argSeparator := by
  induction names with
  | nil => simp [nameTokens]
  | cons name rest ih =>
    cases rest with
    | nil => simp [nameTokens, Token.matrixRef]
    | cons next rest =>
      rw [nameTokens_cons_cons, List.forall_mem_cons, List.forall_mem_cons]
      exact ⟨Or.inl rfl, Or.inr rfl, ih⟩

namespace Token

variable {registry : Registry} {store : Store}

theorem mapM_ofAtom_names {names : List (List Char)}
    (areNames : ∀ name ∈ names, Name.isIdentifier name = true) :
    (names.intersperse [',']).mapM (ofAtom registry store) = .ok (nameTokens names) := by
  rw [mapM_eq_ok_iff, nameTokens]
  induction names with
  | nil => exact .nil
  | cons name rest ih =>
    rw [List.forall_mem_cons] at areNames
    have first : ofAtom registry store name = .ok (matrixRef (String.ofList name)) :=
      ofAtom_of_isIdentifier areNames.1
    cases rest with
    | nil => exact .cons first .nil
    | cons next rest => exact .cons first (.cons rfl (ih areNames.2))

/-- An assignment to several names is read as the names and what its right side is read as. -/
theorem readAll_of_multiAssignment? {text right : List Char} {names : List (List Char)}
    (several : multiAssignment? text = .ok (some (names, right))) :
    readAll registry store text = do
      let tokens ← readAll registry store right
      return nameTokens names ++ ofOperator .assign :: tokens := by
  obtain ⟨left, parted, comma, rfl, areNames⟩ := exists_of_multiAssignment? several
  have arePieces : ∀ piece ∈ split (· == ',') left, Name.isIdentifier (trim piece) = true :=
    fun piece isMem ↦ areNames _ (List.mem_map_of_mem isMem)
  have leftAtoms : atoms (squeeze left) = ((split (· == ',') left).map trim).intersperse [','] := by
    have closed := quotesClosed_of_names arePieces
    have ofPieces := atoms_of_names arePieces
    rw [intercalate_split] at closed ofPieces
    rw [atoms_squeeze closed, ofPieces, map_collapse_names areNames]
  have leftTokens : markSigns true (nameTokens ((split (· == ',') left).map trim)) =
      nameTokens ((split (· == ',') left).map trim) := by
    refine markSigns_of_forall (fun t isMem ↦ ?_) true
    rcases kind_of_mem_nameTokens t isMem with kind | kind <;> rw [kind] <;>
      exact TokenKind.noConfusion
  rw [readAll_of_split registry store parted (compound?_of_comma parted comma),
    readAll_of_not_mem registry store (Assignment.not_mem_right_of_split parted), ofAtoms,
    leftAtoms, mapM_ofAtom_names areNames, ok_bind, leftTokens]
  rcases ofAtoms registry store (squeeze right) with error | tokens <;> rfl

end Token

end MatrixCalculator
