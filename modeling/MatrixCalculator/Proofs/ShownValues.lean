import MatrixCalculator.Display
import MatrixCalculator.Proofs.AtomBoundaries
import MatrixCalculator.Proofs.DocumentValues
import MatrixCalculator.Proofs.RowMajorValues

/-!
# Values as they are shown

A number is shown as a word (`Display.isWord_number`), whatever the number and however many decimal
places are wanted. A line is made of one text for each column, each brought to the width of its
column, so that lines of one value are equally long (`Display.length_lineText`) and the words of a
line of numbers are its texts (`Display.words_lineText`). As no text breaks a line, the lines are
found again in the text of the value.

A value is shown unless a text is longer than a column can be wide, which a label can be
(`Display.value_too_wide`). `Display.value_exact` sums this up. The width of a character is one.
-/

set_option autoImplicit false

namespace MatrixCalculator

open Text

/-! ### Words -/

namespace Text

variable {word text : List Char}

theorem IsWord.append (isWord : IsWord word) (visible : ∀ c ∈ text, isBlank c = false) :
    IsWord (word ++ text) :=
  ⟨List.append_ne_nil_of_left_ne_nil isWord.1 text,
    List.forall_mem_append.mpr ⟨isWord.2, visible⟩⟩

theorem IsWord.prepend (isWord : IsWord word) (visible : ∀ c ∈ text, isBlank c = false) :
    IsWord (text ++ word) :=
  ⟨List.append_ne_nil_of_right_ne_nil text isWord.1,
    List.forall_mem_append.mpr ⟨visible, isWord.2⟩⟩

theorem IsWord.take (isWord : IsWord word) {n : Nat} (pos : 0 < n) : IsWord (word.take n) :=
  ⟨by simp [isWord.1, pos.ne'], fun c isMem ↦ isWord.2 c (List.mem_of_mem_take isMem)⟩

theorem isBlank_of_isDigit {c : Char} (isDigit : c.isDigit = true) : isBlank c = false :=
  Atom.isBlank_of_isDecimalDigit (isDecimalDigit_of_isDigit isDigit)

/-- A number is written in digits. -/
theorem isWord_toString (n : Nat) : IsWord (toString n).toList := by
  have digits : (toString n).toList = Nat.toDigits 10 n := by simp
  rw [digits]
  exact ⟨Nat.toDigits_ne_nil, fun c isMem ↦
    isBlank_of_isDigit (Nat.isDigit_of_mem_toDigits (by decide) le_rfl isMem)⟩

/-! ### Texts that are joined -/

section Joined

variable {separator : List Char} {pieces : List (List Char)} {c : Char}

theorem length_intercalate (separator : List Char) (pieces : List (List Char)) :
    (separator.intercalate pieces).length =
      (pieces.map List.length).sum + separator.length * (pieces.length - 1) := by
  induction pieces with
  | nil => simp
  | cons piece rest ih =>
    cases rest with
    | nil => simp
    | cons next rest =>
      rw [List.intercalate_cons_cons, List.length_append, List.length_append, ih]
      simp only [List.map_cons, List.sum_cons, List.length_cons, Nat.add_sub_cancel, Nat.mul_succ]
      omega

theorem mem_intercalate (isMem : c ∈ separator.intercalate pieces) :
    c ∈ separator ∨ ∃ piece ∈ pieces, c ∈ piece := by
  induction pieces with
  | nil => simp at isMem
  | cons piece rest ih =>
    cases rest with
    | nil => exact Or.inr ⟨piece, List.mem_cons_self, by simpa using isMem⟩
    | cons next rest =>
      rw [List.intercalate_cons_cons, List.mem_append, List.mem_append] at isMem
      rcases isMem with (here | between) | behind
      · exact Or.inr ⟨piece, List.mem_cons_self, here⟩
      · exact Or.inl between
      · exact (ih behind).imp_right fun ⟨other, inRest, inOther⟩ ↦
          ⟨other, List.mem_cons_of_mem piece inRest, inOther⟩

/-- Two spaces end a word as one does. -/
theorem words_intercalate_spaces (pieces : List (List Char)) :
    words ([' ', ' '].intercalate pieces) = pieces.flatMap words := by
  induction pieces with
  | nil => rfl
  | cons piece rest ih =>
    cases rest with
    | nil => simp
    | cons next rest =>
      rw [List.intercalate_cons_cons, List.append_assoc, List.cons_append,
        words_append_cons rfl, List.singleton_append, words_cons_of_isBlank rfl, ih]
      rfl

/-- Pieces that were joined are found again where none of them holds the separator. -/
theorem split_intercalate (notEmpty : pieces ≠ []) (uncut : ∀ piece ∈ pieces, c ∉ piece) :
    split (· == c) ([c].intercalate pieces) = pieces := by
  have whole {piece : List Char} (none : c ∉ piece) : split (· == c) piece = [piece] :=
    split_of_forall fun d isMem ↦ beq_eq_false_iff_ne.mpr fun same ↦ none (same ▸ isMem)
  induction pieces with
  | nil => exact absurd rfl notEmpty
  | cons piece rest ih =>
    rw [List.forall_mem_cons] at uncut
    cases rest with
    | nil => rw [List.intercalate_singleton, whole uncut.1]
    | cons next rest =>
      rw [List.intercalate_cons_cons, List.append_assoc, List.singleton_append,
        @split_append_cons (· == c) c (beq_self_eq_true c), whole uncut.1,
        ih (List.cons_ne_nil _ _) uncut.2, List.singleton_append]

theorem dropFinalReturn_eq_self {line : List Char} (none : '\r' ∉ line) :
    dropFinalReturn line = line := by
  rw [dropFinalReturn]
  split
  · rename_i rest reversed
    exact absurd (List.mem_reverse.mp (by rw [reversed]; exact List.mem_cons_self)) none
  · rfl

/-- Lines that were joined are found again, unless one of them is empty or holds a character that
ends a line. -/
theorem lines_intercalate (notEmpty : pieces ≠ []) (someText : ∀ piece ∈ pieces, piece ≠ [])
    (noFeed : ∀ piece ∈ pieces, '\n' ∉ piece) (noReturn : ∀ piece ∈ pieces, '\r' ∉ piece) :
    lines (['\n'].intercalate pieces) = pieces := by
  obtain ⟨front, last, rfl⟩ := (List.eq_nil_or_concat' pieces).resolve_left notEmpty
  have same : front.map dropFinalReturn = front :=
    (List.map_congr_left fun piece isMem ↦
      dropFinalReturn_eq_self (noReturn piece (List.mem_append_left _ isMem))).trans front.map_id'
  have lastText : last ≠ [] := someText last (by simp)
  rw [lines, split_intercalate notEmpty noFeed, List.reverse_append, List.reverse_singleton,
    List.singleton_append]
  dsimp only
  rw [List.reverse_reverse, same, if_neg (by simpa using lastText)]

end Joined

end Text

theorem toList_pushn (s : String) (c : Char) (n : Nat) :
    (s.pushn c n).toList = s.toList ++ List.replicate n c := by
  rw [String.pushn]
  induction n with
  | zero => simp [Nat.repeat]
  | succ n ih => rw [Nat.repeat, String.toList_push, ih, List.append_assoc, List.replicate_succ']

/-! ### Numbers -/

/-- A decimal is written in digits, with a sign before them and a point between them if need be. -/
theorem Decimal.isWord_text (d : Decimal) : IsWord d.text.toList := by
  have sign : ∀ c ∈ (if d.negative then "-" else "").toList, isBlank c = false := by
    cases d.negative <;> simp [isBlank]
  have digits : IsWord (List.replicate (d.scale + 1 - (toString d.mantissa).toList.length) '0' ++
      (toString d.mantissa).toList) :=
    (isWord_toString d.mantissa).prepend fun c isMem ↦ by rw [List.eq_of_mem_replicate isMem]; rfl
  have longer : d.scale < (List.replicate (d.scale + 1 - (toString d.mantissa).toList.length) '0' ++
      (toString d.mantissa).toList).length := by
    rw [List.length_append, List.length_replicate]
    omega
  rw [text, String.toList_append, String.toList_append, String.toList_ofList]
  refine ((digits.take (Nat.sub_pos_of_lt longer)).prepend sign).append fun c isMem ↦ ?_
  by_cases isWhole : d.scale = 0
  · rw [if_pos isWhole] at isMem
    cases isMem
  · rw [if_neg isWhole, String.toList_append] at isMem
    rcases List.mem_append.mp isMem with isPoint | isDigit
    · obtain rfl : c = '.' := by simpa using isPoint
      rfl
    · rw [String.toList_ofList] at isDigit
      exact digits.2 c (List.mem_of_mem_drop isDigit)

namespace Layout

/-- Digits stay a word with the point in its place. -/
theorem isWord_positionalText (layout : Layout) {digits : String} (isWord : IsWord digits.toList)
    (exponent : Int) : IsWord (layout.positionalText digits exponent).toList := by
  have zeros (n : Nat) : ∀ c ∈ ("".pushn '0' n).toList, isBlank c = false := by
    rw [toList_pushn]
    exact fun c isMem ↦ by rw [List.eq_of_mem_replicate isMem]; rfl
  have ending : ∀ c ∈ (if layout.keepsPoint then ".0" else "").toList, isBlank c = false := by
    cases layout.keepsPoint <;> simp [isBlank]
  have point : ∀ c ∈ ".".toList, isBlank c = false := by simp [isBlank]
  unfold positionalText
  dsimp only
  by_cases whole : 0 ≤ exponent
  · rw [if_pos whole, String.toList_append, String.toList_append]
    exact (isWord.append (zeros _)).append ending
  rw [if_neg whole]
  by_cases inside : 0 < (digits.length : Int) + exponent
  · rw [if_pos inside]
    simp only [String.toList_append, String.toList_ofList]
    refine ((isWord.take (Int.pos_iff_toNat_pos.mp inside)).append point).append fun c isMem ↦ ?_
    exact isWord.2 c (List.mem_of_mem_drop isMem)
  · rw [if_neg inside, String.toList_append, String.toList_append]
    exact isWord.prepend (List.forall_mem_append.mpr ⟨by simp [isBlank], zeros _⟩)

/-- A number is a word in the plain layout, in which no exponent is written. -/
theorem isWord_plainText (x : Float) : IsWord (plainText x).toList := by
  unfold plainText text
  split
  · rename_i b parts
    have sign : ∀ c ∈ (if b.negative then "-" else "").toList, isBlank c = false := by
      cases b.negative <;> simp [isBlank]
    rw [String.toList_append]
    refine IsWord.prepend ?_ sign
    split_ifs with isZero keepsPoint
    · cases keepsPoint
    · simp [IsWord, isBlank]
    · exact plain.isWord_positionalText (isWord_toString _) _
  · split_ifs <;> simp [IsWord, isBlank, plain]

end Layout

namespace Display

/-- Whatever the number, its text is a word. -/
theorem isWord_number (decimals : Nat) (x : Float) : IsWord (number decimals x).toList := by
  unfold number
  split_ifs
  · simp [IsWord, isBlank]
  · simp [IsWord, isBlank]
  · simp [IsWord, isBlank]
  · split
    · exact Decimal.isWord_text _
    · exact Layout.isWord_plainText x

/-! ### Columns -/

/-- The text with spaces before it, up to any width. -/
def padded (width : Nat) (text : String) : String :=
  "".pushn ' ' (width - text.length) ++ text

theorem toList_padded (width : Nat) (text : String) :
    (padded width text).toList = List.replicate (width - text.length) ' ' ++ text.toList := by
  rw [padded, String.toList_append, toList_pushn, String.toList_empty, List.nil_append]

/-- A text that is not too long is brought to the width. -/
theorem length_padded {width : Nat} {text : String} (fits : text.length ≤ width) :
    (padded width text).toList.length = width := by
  rw [toList_padded, List.length_append, List.length_replicate, String.length_toList,
    Nat.sub_add_cancel fits]

theorem words_padded (width : Nat) (text : String) :
    words (padded width text).toList = words text.toList := by
  rw [toList_padded]
  induction width - text.length with
  | zero => rfl
  | succ n ih => rw [List.replicate_succ, List.cons_append, words_cons_of_isBlank rfl, ih]

/-- No text is longer than the widest. -/
theorem length_le_widest {text : String} {texts : List String} (isMem : text ∈ texts) :
    text.length ≤ widest texts := by
  have least (start : Nat) (rest : List String) :
      start ≤ rest.foldl (fun width text ↦ max width text.length) start := by
    induction rest generalizing start with
    | nil => exact le_rfl
    | cons other rest ih => exact (le_max_left start other.length).trans (ih _)
  obtain ⟨front, back, rfl⟩ := List.append_of_mem isMem
  rw [widest, List.foldl_append, List.foldl_cons]
  exact (le_max_right _ text.length).trans (least _ back)

/-- Every text of a line fits into its column. -/
theorem forall₂_widths {cols : Nat} {lines : List (List String)}
    (complete : ∀ texts ∈ lines, texts.length = cols) {texts : List String}
    (isLine : texts ∈ lines) :
    List.Forall₂ (fun width text ↦ text.length ≤ width) (widths cols lines) texts := by
  rw [widths, List.forall₂_map_left_iff, List.forall₂_iff_get]
  refine ⟨by rw [List.length_range, complete texts isLine], fun j inRange inTexts ↦ ?_⟩
  refine length_le_widest (List.mem_map.mpr ⟨texts, isLine, ?_⟩)
  rw [List.get_eq_getElem, List.getElem_range, List.get_eq_getElem,
    List.getElem?_eq_getElem inTexts]
  rfl

/-- The widest text is no wider than all texts are. -/
theorem widest_le {texts : List String} {n : Nat} (short : ∀ text ∈ texts, text.length ≤ n) :
    widest texts ≤ n := by
  have most (start : Nat) (isLow : start ≤ n) :
      texts.foldl (fun width text ↦ max width text.length) start ≤ n := by
    induction texts generalizing start with
    | nil => exact isLow
    | cons text rest ih =>
      rw [List.forall_mem_cons] at short
      exact ih short.2 _ (max_le isLow short.1)
  exact most 0 n.zero_le

/-- Columns are as narrow as the texts of all lines are short. -/
theorem forall_widths_le_iff {cols n : Nat} {lines : List (List String)}
    (complete : ∀ texts ∈ lines, texts.length = cols) :
    (∀ width ∈ widths cols lines, width ≤ n) ↔
      ∀ texts ∈ lines, ∀ text ∈ texts, text.length ≤ n := by
  constructor
  · intro narrow texts isLine text isText
    have fit := forall₂_widths complete isLine
    obtain ⟨j, inTexts, rfl⟩ := List.mem_iff_getElem.mp isText
    have inWidths : j < (widths cols lines).length := fit.length_eq.symm ▸ inTexts
    exact ((List.forall₂_iff_get.mp fit).2 j inWidths inTexts).trans
      (narrow _ (List.getElem_mem inWidths))
  · intro short width isWidth
    obtain ⟨j, -, rfl⟩ := List.mem_map.mp isWidth
    refine widest_le (List.forall_mem_map.mpr fun texts isLine ↦ ?_)
    rcases found : texts[j]? with _ | text
    · exact n.zero_le
    · exact short texts isLine text (List.mem_of_getElem? found)

/-! ### Lines -/

/-- One line, its texts padded to any widths of their columns. -/
def lineText (widths : List Nat) (texts : List String) : String :=
  "  ".intercalate (widths.zipWith padded texts)

theorem toList_lineText (widths : List Nat) (texts : List String) :
    (lineText widths texts).toList =
      [' ', ' '].intercalate ((widths.zipWith padded texts).map String.toList) := by
  rw [lineText, String.toList_intercalate]
  simp

section Line

variable {widths : List Nat} {texts : List String}

/-- A line is as long as its columns and the spaces between them. -/
theorem length_lineText (fit : List.Forall₂ (fun width text ↦ text.length ≤ width) widths texts) :
    (lineText widths texts).toList.length = widths.sum + 2 * (widths.length - 1) := by
  have lengths : ((widths.zipWith padded texts).map String.toList).map List.length = widths := by
    induction fit with
    | nil => rfl
    | cons fits _ ih =>
      rw [List.zipWith_cons_cons, List.map_cons, List.map_cons, length_padded fits, ih]
  rw [toList_lineText, length_intercalate, lengths, List.length_map, List.length_zipWith,
    fit.length_eq, Nat.min_self]
  rfl

/-- The words of a line are those of its texts. -/
theorem words_lineText (fit : List.Forall₂ (fun width text ↦ text.length ≤ width) widths texts) :
    words (lineText widths texts).toList = texts.flatMap fun text ↦ words text.toList := by
  rw [toList_lineText, words_intercalate_spaces]
  induction fit with
  | nil => rfl
  | cons _ _ ih =>
    rw [List.zipWith_cons_cons, List.map_cons, List.flatMap_cons, words_padded, ih,
      List.flatMap_cons]

/-- There is nothing in a line but its texts and spaces. -/
theorem mem_lineText {c : Char} (isMem : c ∈ (lineText widths texts).toList) :
    c = ' ' ∨ ∃ text ∈ texts, c ∈ text.toList := by
  rw [toList_lineText] at isMem
  rcases mem_intercalate isMem with isSpace | ⟨piece, isPiece, inPiece⟩
  · exact Or.inl (by simpa using isSpace)
  obtain ⟨padded, isPadded, rfl⟩ := List.mem_map.mp isPiece
  obtain ⟨j, inRange, rfl⟩ := List.mem_iff_getElem.mp isPadded
  rw [List.getElem_zipWith, toList_padded] at inPiece
  rcases List.mem_append.mp inPiece with isSpace | inText
  · exact Or.inl (List.eq_of_mem_replicate isSpace)
  · exact Or.inr ⟨_, List.getElem_mem _, inText⟩

theorem line_eq_map (widths : List Nat) (texts : List String) :
    line widths texts = ((widths.zip texts).mapM fun cell ↦ padLeft cell.1 cell.2).map
      "  ".intercalate := by
  rw [line]
  cases (widths.zip texts).mapM fun cell ↦ padLeft cell.1 cell.2 <;> rfl

/-- Texts of any length can be shown in columns that are not too wide. -/
theorem line_eq_lineText (narrow : ∀ width ∈ widths, width ≤ maxWidth) :
    line widths texts = .ok (lineText widths texts) := by
  have pad : (widths.zip texts).mapM (fun cell ↦ padLeft cell.1 cell.2) =
      .ok ((widths.zip texts).map fun cell ↦ padded cell.1 cell.2) :=
    mapM_eq_map fun _ isMem ↦ if_pos (narrow _ (List.of_mem_zip isMem).1)
  rw [line_eq_map, pad, List.map_zip_eq_zipWith]
  rfl

/-- A line that is shown has no column that is too wide. -/
theorem narrow_of_line {shown : String} (sameLength : widths.length = texts.length)
    (isShown : line widths texts = .ok shown) : ∀ width ∈ widths, width ≤ maxWidth := by
  intro width isWidth
  rw [line_eq_map] at isShown
  obtain ⟨pieces, pad, -⟩ := exists_of_map_eq_ok isShown
  obtain ⟨j, inWidths, rfl⟩ := List.mem_iff_getElem.mp isWidth
  have each := List.forall₂_iff_get.mp (mapM_eq_ok_iff.mp pad)
  have inZip : j < (widths.zip texts).length := by
    rw [List.length_zip]
    omega
  have ofColumn := each.2 j inZip (each.1 ▸ inZip)
  by_contra tooWide
  simp only [List.get_eq_getElem, List.getElem_zip, padLeft, if_neg tooWide] at ofColumn
  cases ofColumn

/-- A line is refused for a column that is too wide. -/
theorem tooWide_of_line {fault : TooWide} (failed : line widths texts = .error fault) :
    fault.width ∈ widths ∧ maxWidth < fault.width := by
  rw [line_eq_map] at failed
  obtain ⟨cell, isMem, refused⟩ := exists_of_mapM_eq_error (eq_error_of_map failed)
  rw [padLeft] at refused
  split_ifs at refused with narrow
  obtain rfl := Except.error.inj refused
  exact ⟨(List.of_mem_zip isMem).1, not_le.mp narrow⟩

end Line

/-- A line of numbers consists of their texts. -/
theorem words_lineText_number {widths : List Nat} {decimals : Nat} {row : List Float}
    (fit : List.Forall₂ (fun width text ↦ text.length ≤ width) widths (row.map (number decimals))) :
    words (lineText widths (row.map (number decimals))).toList =
      row.map fun x ↦ (number decimals x).toList := by
  have word (x : Float) : words (number decimals x).toList = [(number decimals x).toList] :=
    words_of_isWord (isWord_number decimals x)
  rw [words_lineText fit, List.flatMap_map]
  simp only [word]
  exact List.map_eq_flatMap.symm

/-! ### The text of a value -/

/-- The widths of the columns of a value. -/
def columnWidths (decimals : Nat) (v : Value) : List Nat :=
  widths v.toMatrix.cols (cellTexts decimals v)

/-- The lines of a value, its columns as wide as they may be. -/
def valueLines (decimals : Nat) (v : Value) : List String :=
  (cellTexts decimals v).map (lineText (columnWidths decimals v))

/-- The lines above the numbers: one for the labels of a table, none for a matrix. -/
def headerLines (decimals : Nat) (v : Value) : List String :=
  if v.isTable then [lineText (columnWidths decimals v) v.labels] else []

/-- The lines of numbers, one for each row. -/
def rowLines (decimals : Nat) (v : Value) : List String :=
  v.toMatrix.toRows.map fun row ↦ lineText (columnWidths decimals v) (row.map (number decimals))

section Value

variable {decimals : Nat} {v : Value}

theorem valueLines_eq_append (decimals : Nat) (v : Value) :
    valueLines decimals v = headerLines decimals v ++ rowLines decimals v := by
  rw [rowLines, headerLines, valueLines]
  cases v <;> simp [cellTexts, Value.isTable, Value.labels, Value.toMatrix]

theorem length_headerLines (decimals : Nat) (v : Value) :
    (headerLines decimals v).length = if v.isTable then 1 else 0 := by
  rw [headerLines]
  split_ifs <;> rfl

theorem length_rowLines (decimals : Nat) (v : Value) :
    (rowLines decimals v).length = v.shape.1 := by
  rw [rowLines, List.length_map, Matrix.length_toRows]
  rfl

/-- The texts of each line fit into the columns of the value. -/
theorem forall₂_of_mem_cellTexts {texts : List String} (isLine : texts ∈ cellTexts decimals v) :
    List.Forall₂ (fun width text ↦ text.length ≤ width) (columnWidths decimals v) texts :=
  forall₂_widths (fun _ ↦ FlatValue.length_of_mem_cellTexts) isLine

/-- A text in a line is a label or a number. -/
theorem mem_labels_or_exists {texts : List String} (isLine : texts ∈ cellTexts decimals v)
    {text : String} (isText : text ∈ texts) : text ∈ v.labels ∨ ∃ x, text = number decimals x := by
  have ofRow {texts : List String} (isText : text ∈ texts)
      (isRow : texts ∈ v.toMatrix.toRows.map (List.map (number decimals))) :
      ∃ x, text = number decimals x := by
    obtain ⟨row, -, rfl⟩ := List.mem_map.mp isRow
    obtain ⟨x, -, isNumber⟩ := List.mem_map.mp isText
    exact ⟨x, isNumber.symm⟩
  cases v with
  | matrix m => exact Or.inr (ofRow isText isLine)
  | table t =>
    rcases List.mem_cons.mp isLine with rfl | isRow
    · exact Or.inl isText
    · exact Or.inr (ofRow isText isRow)

/-- A blank other than a space stands in a line only if it stands in a label. -/
theorem not_mem_of_mem_valueLines {c : Char} (blank : isBlank c = true) (notSpace : c ≠ ' ')
    (unlabelled : ∀ label ∈ v.labels, c ∉ label.toList) {shown : String}
    (isLine : shown ∈ valueLines decimals v) : c ∉ shown.toList := by
  obtain ⟨texts, isTexts, rfl⟩ := List.mem_map.mp isLine
  intro isMem
  obtain ⟨text, isText, inText⟩ := (mem_lineText isMem).resolve_left notSpace
  rcases mem_labels_or_exists isTexts isText with isLabel | ⟨x, rfl⟩
  · exact unlabelled text isLabel inText
  · rw [(isWord_number decimals x).2 c inText] at blank
    cases blank

/-- The lines of a value are equally long. -/
theorem length_of_mem_valueLines {shown : String} (isLine : shown ∈ valueLines decimals v) :
    shown.toList.length =
      (columnWidths decimals v).sum + 2 * ((columnWidths decimals v).length - 1) := by
  obtain ⟨texts, isTexts, rfl⟩ := List.mem_map.mp isLine
  exact length_lineText (forall₂_of_mem_cellTexts isTexts)

/-- The words of a line of numbers are their texts. -/
theorem map_words_rowLines (decimals : Nat) (v : Value) :
    (rowLines decimals v).map (fun shown ↦ words shown.toList) =
      v.toMatrix.toRows.map (List.map fun x ↦ (number decimals x).toList) := by
  rw [rowLines, List.map_map]
  refine List.map_congr_left fun row isRow ↦ words_lineText_number (forall₂_of_mem_cellTexts ?_)
  have isTexts : row.map (number decimals) ∈ v.toMatrix.toRows.map (List.map (number decimals)) :=
    List.mem_map_of_mem isRow
  cases v with
  | matrix m => exact isTexts
  | table t => exact List.mem_cons_of_mem t.columns isTexts

/-- There is a number in the first row, and no line is shorter than the line of that row. -/
theorem toList_ne_nil_of_mem_valueLines {shown : String} (isLine : shown ∈ valueLines decimals v) :
    shown.toList ≠ [] := by
  intro isNil
  have someRow : 0 < (rowLines decimals v).length := by
    rw [length_rowLines]
    exact v.toMatrix.rows_pos
  obtain ⟨first, isFirst⟩ := List.exists_mem_of_length_pos someRow
  have sameLength : first.toList.length = shown.toList.length := by
    rw [length_of_mem_valueLines isLine, length_of_mem_valueLines]
    rw [valueLines_eq_append]
    exact List.mem_append_right _ isFirst
  rw [isNil, List.length_nil, List.length_eq_zero_iff] at sameLength
  have ofFirst : words first.toList ∈
      v.toMatrix.toRows.map (List.map fun x ↦ (number decimals x).toList) := by
    rw [← map_words_rowLines]
    exact List.mem_map_of_mem isFirst
  obtain ⟨row, isRow, texts⟩ := List.mem_map.mp ofFirst
  have noText : words first.toList = [] := by rw [sameLength]; rfl
  have noCell : row.length = 0 := by rw [List.map_eq_nil_iff.mp (texts.trans noText)]; rfl
  rw [Matrix.length_of_mem_toRows isRow] at noCell
  exact v.toMatrix.cols_pos.ne' noCell

/-! ### What is shown -/

theorem value_eq_map (decimals : Nat) (v : Value) :
    value decimals v = ((cellTexts decimals v).mapM (line (columnWidths decimals v))).map
      "\n".intercalate := by
  rw [value, block, ← columnWidths]
  cases (cellTexts decimals v).mapM (line (columnWidths decimals v)) <;> rfl

/-- A value whose columns are not too wide is shown in its lines. -/
theorem value_eq_intercalate (narrow : ∀ width ∈ columnWidths decimals v, width ≤ maxWidth) :
    value decimals v = .ok ("\n".intercalate (valueLines decimals v)) := by
  have eachLine : (cellTexts decimals v).mapM (line (columnWidths decimals v)) =
      .ok (valueLines decimals v) := mapM_eq_map fun _ _ ↦ line_eq_lineText narrow
  rw [value_eq_map, eachLine]
  rfl

theorem cellTexts_ne_nil (decimals : Nat) (v : Value) : cellTexts decimals v ≠ [] := by
  intro isNil
  have none : (valueLines decimals v).length = 0 := by rw [valueLines, isNil]; rfl
  have someRow := v.toMatrix.rows_pos
  rw [valueLines_eq_append, List.length_append, length_rowLines] at none
  exact someRow.ne' (Nat.eq_zero_of_add_eq_zero_left none)

/-- A value that is shown has no column that is too wide: there is a first line, which would be
refused. -/
theorem narrow_of_value {shown : String} (isShown : value decimals v = .ok shown) :
    ∀ width ∈ columnWidths decimals v, width ≤ maxWidth := by
  rw [value_eq_map] at isShown
  obtain ⟨lines, eachLine, -⟩ := exists_of_map_eq_ok isShown
  obtain ⟨texts, rest, isFirst⟩ := List.exists_cons_of_ne_nil (cellTexts_ne_nil decimals v)
  have isLine : texts ∈ cellTexts decimals v := isFirst ▸ List.mem_cons_self
  have ofLines := mapM_eq_ok_iff.mp eachLine
  rw [isFirst, List.forall₂_cons_left_iff] at ofLines
  obtain ⟨first, -, ofFirst, -, -⟩ := ofLines
  exact narrow_of_line (forall₂_of_mem_cellTexts isLine).length_eq ofFirst

/-- A value that is not shown has a column that is too wide. -/
theorem tooWide_of_value {fault : TooWide} (failed : value decimals v = .error fault) :
    fault.width ∈ columnWidths decimals v ∧ maxWidth < fault.width := by
  rw [value_eq_map] at failed
  obtain ⟨texts, -, refused⟩ := exists_of_mapM_eq_error (eq_error_of_map failed)
  exact tooWide_of_line refused

/-- A value is shown if none of its texts is longer than a column can be wide. -/
theorem exists_value_iff : (∃ shown, value decimals v = .ok shown) ↔
    ∀ texts ∈ cellTexts decimals v, ∀ text ∈ texts, text.length ≤ maxWidth := by
  have widths := @forall_widths_le_iff v.toMatrix.cols maxWidth (cellTexts decimals v)
    fun _ ↦ FlatValue.length_of_mem_cellTexts
  exact ⟨fun ⟨_, isShown⟩ ↦ widths.mp (narrow_of_value isShown),
    fun short ↦ ⟨_, value_eq_intercalate (widths.mpr short)⟩⟩

theorem toList_of_value {shown : String} (isShown : value decimals v = .ok shown) :
    shown.toList = ['\n'].intercalate ((valueLines decimals v).map String.toList) := by
  rw [value_eq_intercalate (narrow_of_value isShown)] at isShown
  rw [← Except.ok.inj isShown, String.toList_intercalate]
  simp

/-- A value is shown unless one of its texts is longer than a column can be wide; then the width of
such a column is the fault. If no label breaks a line, what is shown is one line for each row, below
one for the labels of a table. All lines are equally long, and the words of a line of numbers are
the texts of the row's numbers in order. The lines are those between line feeds; without carriage
returns in labels they are the lines of the text. -/
theorem value_exact (decimals : Nat) (v : Value)
    (unbroken : ∀ label ∈ v.labels, '\n' ∉ label.toList) :
    ((∃ shown, value decimals v = .ok shown) ↔
      ∀ texts ∈ cellTexts decimals v, ∀ text ∈ texts, text.length ≤ maxWidth) ∧
    (∀ fault, value decimals v = .error fault →
      fault.width ∈ columnWidths decimals v ∧ maxWidth < fault.width) ∧
    ∀ shown, value decimals v = .ok shown →
      ∃ header rows : List (List Char),
        split (· == '\n') shown.toList = header ++ rows ∧
        header.length = (if v.isTable then 1 else 0) ∧ rows.length = v.shape.1 ∧
        (∃ width, ∀ line ∈ header ++ rows, line.length = width) ∧
        rows.map words = v.toMatrix.toRows.map (List.map fun x ↦ (number decimals x).toList) ∧
        ((∀ label ∈ v.labels, '\r' ∉ label.toList) → lines shown.toList = header ++ rows) := by
  refine ⟨exists_value_iff, fun fault ↦ tooWide_of_value, fun shown isShown ↦ ?_⟩
  have parts : (valueLines decimals v).map String.toList =
      (headerLines decimals v).map String.toList ++ (rowLines decimals v).map String.toList := by
    rw [valueLines_eq_append, List.map_append]
  have notEmpty : (valueLines decimals v).map String.toList ≠ [] := by
    simpa [valueLines] using cellTexts_ne_nil decimals v
  have without {c : Char} (blank : isBlank c = true) (notSpace : c ≠ ' ')
      (unlabelled : ∀ label ∈ v.labels, c ∉ label.toList) :
      ∀ shown ∈ (valueLines decimals v).map String.toList, c ∉ shown :=
    List.forall_mem_map.mpr fun _ ↦ not_mem_of_mem_valueLines blank notSpace unlabelled
  have noFeed := without (by decide) (by decide) unbroken
  refine ⟨(headerLines decimals v).map String.toList, (rowLines decimals v).map String.toList,
    ?_, ?_, ?_, ?_, ?_, fun noReturn ↦ ?_⟩
  · rw [toList_of_value isShown, ← parts]
    exact split_intercalate notEmpty noFeed
  · rw [List.length_map, length_headerLines]
  · rw [List.length_map, length_rowLines]
  · rw [← parts]
    exact ⟨_, List.forall_mem_map.mpr fun _ ↦ length_of_mem_valueLines⟩
  · rw [List.map_map]
    exact map_words_rowLines decimals v
  · rw [toList_of_value isShown, ← parts]
    have someText : ∀ shown ∈ (valueLines decimals v).map String.toList, shown ≠ [] :=
      List.forall_mem_map.mpr fun _ ↦ toList_ne_nil_of_mem_valueLines
    exact lines_intercalate notEmpty someText noFeed (without (by decide) (by decide) noReturn)

/-- A table of two rows. One column is as wide as its label, the other one as a number. -/
theorem value_wide_label :
    let v : Value := .table ⟨["größe", "b"],
      ⟨2, 2, .ofCells fun i j ↦ Float.ofNat (10 * i + 1) / Float.ofNat (3 * j + 1),
        by decide, by decide⟩, rfl⟩
    let shown := "größe     b\n    1  0.25\n   11  2.75"
    value 2 v = .ok shown ∧ (∀ label ∈ v.labels, '\n' ∉ label.toList ∧ '\r' ∉ label.toList) ∧
      (∀ texts ∈ cellTexts 2 v, ∀ text ∈ texts, text.length ≤ maxWidth) ∧
      ∃ header rows : List (List Char), lines shown.toList = header ++ rows ∧
        header.length = 1 ∧ (∃ width, ∀ line ∈ header ++ rows, line.length = width) ∧
        rows.map words = [[['1'], ['0', '.', '2', '5']], [['1', '1'], ['2', '.', '7', '5']]] := by
  intro v shown
  have unbroken : ∀ label ∈ v.labels, '\n' ∉ label.toList ∧ '\r' ∉ label.toList := by
    decide +kernel
  have isShown : value 2 v = .ok shown := by decide +kernel
  obtain ⟨short, -, ofShown⟩ := value_exact 2 v fun label isLabel ↦ (unbroken label isLabel).1
  obtain ⟨header, rows, -, above, -, equal, texts, ofLines⟩ := ofShown shown isShown
  refine ⟨isShown, unbroken, short.mp ⟨shown, isShown⟩, header, rows,
    ofLines fun label isLabel ↦ (unbroken label isLabel).2, above, equal, texts.trans ?_⟩
  decide +kernel

/-- A table of one cell whose label has one character more than a column can be wide is not shown,
although the label does not break a line. -/
theorem value_too_wide :
    let v : Value := .table ⟨[String.ofList (List.replicate 65536 'a')], .scalar 1, rfl⟩
    (∀ label ∈ v.labels, '\n' ∉ label.toList) ∧ ∀ shown, value 6 v ≠ .ok shown := by
  intro v
  constructor
  · intro label isLabel
    obtain rfl := List.mem_singleton.mp isLabel
    rw [String.toList_ofList]
    exact fun isMem ↦ absurd (List.eq_of_mem_replicate isMem) (by decide)
  · intro shown isShown
    have short := exists_value_iff.mp ⟨shown, isShown⟩ _ List.mem_cons_self _ List.mem_cons_self
    rw [String.length_ofList, List.length_replicate] at short
    exact absurd short (by decide)

end Value

end Display

end MatrixCalculator
