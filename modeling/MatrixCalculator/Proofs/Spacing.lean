import MatrixCalculator.Text.Blank
import Mathlib.Data.List.DropRight
import Mathlib.Data.List.TakeWhile
import Mathlib.Tactic.SplitIfs

/-!
# Spacing

What `squeeze` makes of a text. A text whose words are set apart by single spaces stays as it is
(`squeeze_eq_self`); any other text is squeezed by writing every stretch of blanks as one space and
taking the blanks off both ends (`squeeze_eq_trim_collapse`). The second form works character by
character, so that it can be computed around a character that is not blank
(`squeeze_append_cons`).
-/

set_option autoImplicit false

namespace MatrixCalculator.Text

/-! ### Pieces -/

theorem split_ne_nil (cut : Char → Bool) (text : List Char) : split cut text ≠ [] := by
  cases text with
  | nil => simp [split]
  | cons c rest =>
    rw [split]
    split
    · simp
    · split <;> simp

/-- A text falls apart at a cut into the pieces before and the pieces behind. -/
theorem split_append_cons {cut : Char → Bool} {c : Char} (isCut : cut c = true)
    (left right : List Char) :
    split cut (left ++ c :: right) = split cut left ++ split cut right := by
  induction left with
  | nil => simp [split, isCut]
  | cons d left ih =>
    rw [List.cons_append, split, split, ih]
    by_cases cutHere : cut d = true
    · simp [cutHere]
    · obtain ⟨piece, pieces, pieced⟩ := List.exists_cons_of_ne_nil (split_ne_nil cut left)
      simp [cutHere, pieced]

theorem split_of_forall {cut : Char → Bool} {text : List Char}
    (uncut : ∀ c ∈ text, cut c = false) : split cut text = [text] := by
  induction text with
  | nil => rfl
  | cons c rest ih =>
    rw [split, ih fun d inRest ↦ uncut d (List.mem_cons_of_mem c inRest)]
    simp [uncut c List.mem_cons_self]

/-! ### Words -/

/-- Whether characters make up a word. -/
def IsWord (word : List Char) : Prop :=
  word ≠ [] ∧ ∀ c ∈ word, isBlank c = false

theorem isWord_of_any {word : List Char} (notEmpty : word ≠ [])
    (visible : word.any isBlank = false) : IsWord word :=
  ⟨notEmpty, fun c isMem ↦ eq_false_of_ne_true (List.any_eq_false.mp visible c isMem)⟩

theorem words_append_cons {c : Char} (blank : isBlank c = true) (left right : List Char) :
    words (left ++ c :: right) = words left ++ words right := by
  rw [words, split_append_cons blank, List.filter_append, words, words]

theorem words_cons_of_isBlank {c : Char} (blank : isBlank c = true) (text : List Char) :
    words (c :: text) = words text :=
  words_append_cons blank [] text

theorem words_of_isWord {word : List Char} (isWord : IsWord word) : words word = [word] := by
  rw [words, split_of_forall isWord.2]
  simp [isWord.1]

theorem words_of_forall_isBlank {text : List Char} (blank : ∀ c ∈ text, isBlank c = true) :
    words text = [] := by
  induction text with
  | nil => rfl
  | cons c rest ih =>
    rw [words_cons_of_isBlank (blank c List.mem_cons_self)]
    exact ih fun d inRest ↦ blank d (List.mem_cons_of_mem c inRest)

/-- Words with a space between neighbours are the words of the text they make up. -/
theorem words_intercalate {list : List (List Char)} (areWords : ∀ word ∈ list, IsWord word) :
    words ([' '].intercalate list) = list := by
  induction list with
  | nil => rfl
  | cons word rest ih =>
    have isWord := areWords word List.mem_cons_self
    have ofRest := ih fun other inRest ↦ areWords other (List.mem_cons_of_mem word inRest)
    cases rest with
    | nil => rw [List.intercalate_singleton, words_of_isWord isWord]
    | cons next rest =>
      rw [List.intercalate_cons_cons, List.append_assoc, List.singleton_append,
        words_append_cons rfl, words_of_isWord isWord, ofRest, List.singleton_append]

/-- Whether the words of a text are set apart by single spaces, with no blank at either end. -/
def Tidy (text : List Char) : Prop :=
  ∃ list, (∀ word ∈ list, IsWord word) ∧ text = [' '].intercalate list

theorem Tidy.of_isWord {word : List Char} (isWord : IsWord word) : Tidy word :=
  ⟨[word], by simpa using isWord, List.intercalate_singleton.symm⟩

theorem intercalate_append {front behind : List (List Char)} (frontSome : front ≠ [])
    (behindSome : behind ≠ []) :
    [' '].intercalate (front ++ behind) =
      [' '].intercalate front ++ ' ' :: [' '].intercalate behind := by
  induction front with
  | nil => exact absurd rfl frontSome
  | cons word rest ih =>
    cases rest with
    | nil => simp [List.intercalate_cons_of_ne_nil behindSome]
    | cons next rest => simpa using ih (by simp)

/-- Texts with a space between them. -/
theorem Tidy.append_cons {front behind : List Char} (frontTidy : Tidy front)
    (frontSome : front ≠ []) (behindTidy : Tidy behind) (behindSome : behind ≠ []) :
    Tidy (front ++ ' ' :: behind) := by
  obtain ⟨left, leftWords, rfl⟩ := frontTidy
  obtain ⟨right, rightWords, rfl⟩ := behindTidy
  have leftSome : left ≠ [] := by rintro rfl; exact frontSome rfl
  have rightSome : right ≠ [] := by rintro rfl; exact behindSome rfl
  exact ⟨left ++ right, List.forall_mem_append.mpr ⟨leftWords, rightWords⟩,
    (intercalate_append leftSome rightSome).symm⟩

/-- A word may be longer at its start. -/
theorem Tidy.cons {c : Char} (visible : isBlank c = false) {text : List Char} (tidy : Tidy text) :
    Tidy (c :: text) := by
  obtain ⟨list, areWords, rfl⟩ := tidy
  cases list with
  | nil => exact .of_isWord ⟨by simp, by simpa using visible⟩
  | cons word rest =>
    rw [List.forall_mem_cons] at areWords
    refine ⟨(c :: word) :: rest, List.forall_mem_cons.mpr ⟨⟨by simp, ?_⟩, areWords.2⟩, ?_⟩
    · exact List.forall_mem_cons.mpr ⟨visible, areWords.1.2⟩
    · rw [List.intercalate_cons_cons_left]

/-- A word may be longer at its end. -/
theorem Tidy.concat {c : Char} (visible : isBlank c = false) {text : List Char} (tidy : Tidy text) :
    Tidy (text ++ [c]) := by
  obtain ⟨list, areWords, rfl⟩ := tidy
  induction list with
  | nil => exact .of_isWord ⟨by simp, by simpa using visible⟩
  | cons word rest ih =>
    rw [List.forall_mem_cons] at areWords
    cases rest with
    | nil =>
      refine .of_isWord ⟨by simp, ?_⟩
      simpa [or_imp, forall_and] using And.intro areWords.1.2 visible
    | cons next rest =>
      rw [List.intercalate_cons_cons, List.append_assoc, List.append_assoc, List.singleton_append]
      exact (Tidy.of_isWord areWords.1).append_cons areWords.1.1 (ih areWords.2) (by simp)

/-- Squeezing leaves a text alone whose words are set apart by single spaces. -/
theorem squeeze_eq_self {text : List Char} (tidy : Tidy text) : squeeze text = text := by
  obtain ⟨list, areWords, rfl⟩ := tidy
  rw [squeeze, words_intercalate areWords]

/-! ### Trimming -/

theorem trimStart_cons_of_isBlank {c : Char} (blank : isBlank c = true) (text : List Char) :
    trimStart (c :: text) = trimStart text :=
  List.dropWhile_cons_of_pos blank

theorem trimStart_cons_of_not_isBlank {c : Char} (visible : isBlank c = false)
    (text : List Char) : trimStart (c :: text) = c :: text :=
  List.dropWhile_cons_of_neg (by simp [visible])

theorem trimStart_append_cons {c : Char} (visible : isBlank c = false) (left right : List Char) :
    trimStart (left ++ c :: right) = trimStart left ++ c :: right := by
  induction left with
  | nil => exact trimStart_cons_of_not_isBlank visible right
  | cons d left ih =>
    cases blank : isBlank d with
    | true => rw [List.cons_append, trimStart_cons_of_isBlank blank, ih,
        trimStart_cons_of_isBlank blank]
    | false => rw [List.cons_append, trimStart_cons_of_not_isBlank blank,
        trimStart_cons_of_not_isBlank blank, List.cons_append]

theorem trimEnd_append_cons {c : Char} (visible : isBlank c = false) (left right : List Char) :
    trimEnd (left ++ c :: right) = left ++ c :: trimEnd right := by
  have reversed := trimStart_append_cons visible right.reverse left.reverse
  rw [trimEnd, List.reverse_append, List.reverse_cons, List.append_assoc, List.singleton_append]
  exact (congrArg List.reverse reversed).trans (by simp [trimStart, trimEnd])

theorem trim_append_cons {c : Char} (visible : isBlank c = false) (left right : List Char) :
    trim (left ++ c :: right) = trimStart left ++ c :: trimEnd right := by
  rw [trim, trimStart_append_cons visible, trimEnd_append_cons visible]

theorem trimStart_of_forall {text : List Char} (blank : ∀ c ∈ text, isBlank c = true) :
    trimStart text = [] := by
  rw [trimStart, List.dropWhile_eq_nil_iff]
  exact blank

/-- What is taken off the end of a text is blank. -/
theorem exists_trimEnd_append (text : List Char) :
    ∃ blanks, text = trimEnd text ++ blanks ∧ ∀ c ∈ blanks, isBlank c = true := by
  refine ⟨(text.reverse.takeWhile isBlank).reverse, ?_, fun c isTaken ↦ ?_⟩
  · rw [trimEnd, ← List.reverse_append, List.takeWhile_append_dropWhile, List.reverse_reverse]
  · exact List.mem_takeWhile_imp (List.mem_reverse.mp isTaken)

/-- There is nothing to trim off a text without blanks. -/
theorem trim_of_forall {text : List Char} (visible : ∀ c ∈ text, isBlank c = false) :
    trim text = text := by
  have started : trimStart text = text := by
    cases text with
    | nil => rfl
    | cons c rest => exact List.dropWhile_cons_of_neg (by simp [visible c List.mem_cons_self])
  obtain ⟨blanks, parts, blank⟩ := exists_trimEnd_append text
  cases blanks with
  | nil => rw [trim, started, ← List.append_nil (trimEnd text), ← parts]
  | cons c blanks =>
    have seen := visible c (by rw [parts]; simp)
    rw [blank c List.mem_cons_self] at seen
    cases seen

/-- A text is blank, or there is a first character in it that is not. -/
theorem forall_isBlank_or_exists (text : List Char) :
    (∀ c ∈ text, isBlank c = true) ∨
      ∃ left c right, text = left ++ c :: right ∧ (∀ d ∈ left, isBlank d = true) ∧
        isBlank c = false := by
  induction text with
  | nil => exact Or.inl (by simp)
  | cons c rest ih =>
    cases here : isBlank c with
    | false => exact Or.inr ⟨[], c, rest, rfl, by simp, here⟩
    | true =>
      rcases ih with blank | ⟨left, d, right, rfl, before, visible⟩
      · exact Or.inl (List.forall_mem_cons.mpr ⟨here, blank⟩)
      · exact Or.inr ⟨c :: left, d, right, rfl, List.forall_mem_cons.mpr ⟨here, before⟩, visible⟩

theorem trim_trimStart (text : List Char) : trim (trimStart text) = trim text := by
  rw [trim, trimStart, trimStart, List.dropWhile_idempotent, trim, trimStart]

theorem trim_trimEnd (text : List Char) : trim (trimEnd text) = trim text := by
  rcases forall_isBlank_or_exists text with blank | ⟨left, c, right, rfl, before, visible⟩
  · obtain ⟨blanks, parts, -⟩ := exists_trimEnd_append text
    have stillBlank : ∀ c ∈ trimEnd text, isBlank c = true := fun c isMem ↦
      blank c (by rw [parts]; exact List.mem_append_left _ isMem)
    rw [trim, trim, trimStart_of_forall blank, trimStart_of_forall stillBlank]
  · have again : trimEnd (trimEnd right) = trimEnd right := List.rdropWhile_idempotent isBlank right
    rw [trimEnd_append_cons visible, trim_append_cons visible, trim_append_cons visible, again]

theorem words_trim (text : List Char) : words (trim text) = words text := by
  have ofStart (text : List Char) : words (trimStart text) = words text := by
    induction text with
    | nil => rfl
    | cons c rest ih =>
      cases blank : isBlank c with
      | true => rw [trimStart_cons_of_isBlank blank, ih, words_cons_of_isBlank blank]
      | false => rw [trimStart_cons_of_not_isBlank blank]
  have ofEnd (text : List Char) : words (trimEnd text) = words text := by
    obtain ⟨blanks, parts, areBlank⟩ := exists_trimEnd_append text
    cases blanks with
    | nil => rw [← List.append_nil (trimEnd text), ← parts]
    | cons b blanks =>
      have none := words_of_forall_isBlank fun c inRest ↦ areBlank c (List.mem_cons_of_mem b inRest)
      conv_rhs => rw [parts, words_append_cons (areBlank b List.mem_cons_self), none]
      rw [List.append_nil]
  rw [trim, ofEnd, ofStart]

/-- The blanks at the ends of a text do not matter to squeezing. -/
theorem squeeze_trim (text : List Char) : squeeze (trim text) = squeeze text := by
  rw [squeeze, words_trim, squeeze]

/-! ### Squeezing around a character -/

/-- The text with one space for every stretch of blanks. -/
def collapse : List Char → List Char
  | [] => []
  | c :: rest =>
    if isBlank c then
      if rest.head?.any isBlank then collapse rest else ' ' :: collapse rest
    else
      c :: collapse rest

theorem collapse_append_cons {c : Char} (visible : isBlank c = false) (left right : List Char) :
    collapse (left ++ c :: right) = collapse left ++ c :: collapse right := by
  induction left with
  | nil => simp [collapse, visible]
  | cons d left ih =>
    rw [List.cons_append, collapse, collapse, ih]
    cases left with
    | nil => cases blank : isBlank d <;> simp [visible]
    | cons e left =>
      cases blank : isBlank d <;> cases next : isBlank e <;> simp [next]

theorem mem_collapse {c : Char} {text : List Char} (isMem : c ∈ collapse text) :
    c = ' ' ∨ c ∈ text := by
  induction text with
  | nil => exact Or.inr isMem
  | cons d rest ih =>
    rw [collapse] at isMem
    split_ifs at isMem
    · exact (ih isMem).imp_right (List.mem_cons_of_mem d)
    · rcases List.mem_cons.mp isMem with isSpace | inRest
      · exact Or.inl isSpace
      · exact (ih inRest).imp_right (List.mem_cons_of_mem d)
    · rcases List.mem_cons.mp isMem with rfl | inRest
      · exact Or.inr List.mem_cons_self
      · exact (ih inRest).imp_right (List.mem_cons_of_mem d)

/-- A stretch of blanks leaves one space, before which nothing was taken off what follows. -/
theorem collapse_cons_of_isBlank {c : Char} (blank : isBlank c = true) (text : List Char) :
    collapse (c :: text) = ' ' :: trimStart (collapse text) := by
  induction text generalizing c with
  | nil => simp [collapse, blank, trimStart]
  | cons d rest ih =>
    rw [collapse, if_pos blank]
    cases next : isBlank d with
    | true =>
      rw [ih next, trimStart_cons_of_isBlank rfl]
      simp [next, trimStart, List.dropWhile_idempotent]
    | false =>
      have kept : collapse (d :: rest) = d :: collapse rest := by simp [collapse, next]
      rw [kept, trimStart_cons_of_not_isBlank next]
      simp [next]

theorem trimEnd_of_forall {text : List Char} (blank : ∀ c ∈ text, isBlank c = true) :
    trimEnd text = [] :=
  List.rdropWhile_eq_nil_iff.mpr blank

/-- A blank is taken off the end together with all that follows it, or not at all. -/
theorem trimEnd_cons_of_isBlank {c : Char} (blank : isBlank c = true) (text : List Char) :
    trimEnd (c :: text) = if trimEnd text = [] then [] else c :: trimEnd text := by
  rcases forall_isBlank_or_exists text with areBlank | ⟨left, d, right, rfl, -, visible⟩
  · rw [if_pos (trimEnd_of_forall areBlank)]
    exact trimEnd_of_forall (List.forall_mem_cons.mpr ⟨blank, areBlank⟩)
  · have ofCons := trimEnd_append_cons visible (c :: left) right
    rw [List.cons_append] at ofCons
    rw [ofCons, trimEnd_append_cons visible, if_neg (by simp), List.cons_append]

theorem squeeze_cons_of_isBlank {c : Char} (blank : isBlank c = true) (text : List Char) :
    squeeze (c :: text) = squeeze text := by
  rw [squeeze, words_cons_of_isBlank blank, squeeze]

theorem intercalate_eq_nil_iff {list : List (List Char)} (notEmpty : ∀ word ∈ list, word ≠ []) :
    [' '].intercalate list = [] ↔ list = [] := by
  cases list with
  | nil => simp
  | cons word rest =>
    have isWord := notEmpty word List.mem_cons_self
    cases rest <;> simp [isWord]

theorem ne_nil_of_mem_words {text word : List Char} (isMem : word ∈ words text) : word ≠ [] := by
  rw [words, List.mem_filter] at isMem
  simpa using isMem.2

/-- A word that goes on is squeezed character by character. -/
theorem squeeze_cons_cons {c d : Char} (visible : isBlank c = false) (next : isBlank d = false)
    (text : List Char) : squeeze (c :: d :: text) = c :: squeeze (d :: text) := by
  obtain ⟨piece, pieces, pieced⟩ := List.exists_cons_of_ne_nil (split_ne_nil isBlank text)
  have longer : words (c :: d :: text) =
      (c :: d :: piece) :: pieces.filter fun piece ↦ !piece.isEmpty := by
    simp [words, split, visible, next, pieced]
  have shorter : words (d :: text) =
      (d :: piece) :: pieces.filter fun piece ↦ !piece.isEmpty := by
    simp [words, split, next, pieced]
  rw [squeeze, squeeze, longer, shorter]
  cases pieces.filter fun piece ↦ !piece.isEmpty <;> simp

/-- A word that ends is followed by one space, unless no word follows. -/
theorem squeeze_cons_cons_of_isBlank {c d : Char} (visible : isBlank c = false)
    (blank : isBlank d = true) (text : List Char) :
    squeeze (c :: d :: text) = c :: if squeeze text = [] then [] else ' ' :: squeeze text := by
  have isWord : IsWord [c] := ⟨by simp, by simpa using visible⟩
  have parted : words (c :: d :: text) = [c] :: words text := by
    rw [← List.singleton_append, words_append_cons blank, words_of_isWord isWord,
      List.singleton_append]
  have none := intercalate_eq_nil_iff fun word (isMem : word ∈ words text) ↦
    ne_nil_of_mem_words isMem
  rw [squeeze, squeeze, parted]
  simp only [none]
  cases words text <;> simp

/-- Squeezing is writing one space for every stretch of blanks and trimming both ends. -/
theorem squeeze_eq_trim_collapse (text : List Char) : squeeze text = trim (collapse text) := by
  induction text with
  | nil => rfl
  | cons c rest ih =>
    cases here : isBlank c with
    | true =>
      rw [squeeze_cons_of_isBlank here, ih, collapse_cons_of_isBlank here, trim, trim,
        trimStart_cons_of_isBlank rfl, ← trim, ← trim, trim_trimStart]
    | false =>
      have kept : collapse (c :: rest) = c :: collapse rest := by simp [collapse, here]
      have trimmed : trim (c :: collapse rest) = c :: trimEnd (collapse rest) :=
        trim_append_cons here [] (collapse rest)
      rw [kept, trimmed]
      cases rest with
      | nil => simp [squeeze, words, split, here, collapse, trimEnd]
      | cons d rest =>
        cases next : isBlank d with
        | true =>
          have ofRest : trimEnd (trimStart (collapse rest)) = squeeze rest := by
            rw [squeeze_cons_of_isBlank next, collapse_cons_of_isBlank next, trim,
              trimStart_cons_of_isBlank rfl, ← trim, trim_trimStart, trim] at ih
            exact ih.symm
          rw [squeeze_cons_cons_of_isBlank here next, collapse_cons_of_isBlank next,
            trimEnd_cons_of_isBlank rfl, ofRest]
        | false =>
          have ofNext : collapse (d :: rest) = d :: collapse rest := by simp [collapse, next]
          have ofTrim : trim (d :: collapse rest) = trimEnd (d :: collapse rest) := by
            rw [trim, trimStart_cons_of_not_isBlank next]
          rw [squeeze_cons_cons here next, ih, ofNext, ofTrim]

/-- What squeezing does on both sides of a character that is not blank: it squeezes them, up to the
blanks at their ends. -/
theorem squeeze_append_cons {c : Char} (visible : isBlank c = false) (left right : List Char) :
    ∃ front back, squeeze (left ++ c :: right) = front ++ c :: back ∧
      trim front = squeeze left ∧ trim back = squeeze right ∧
      (∀ d ∈ front, d = ' ' ∨ d ∈ left) ∧ ∀ d ∈ back, d = ' ' ∨ d ∈ right := by
  refine ⟨trimStart (collapse left), trimEnd (collapse right), ?_, ?_, ?_, fun d isMem ↦ ?_,
    fun d isMem ↦ ?_⟩
  · rw [squeeze_eq_trim_collapse, collapse_append_cons visible, trim_append_cons visible]
  · rw [trim_trimStart, squeeze_eq_trim_collapse]
  · rw [trim_trimEnd, squeeze_eq_trim_collapse]
  · exact mem_collapse ((List.dropWhile_suffix _).subset isMem)
  · exact mem_collapse ((List.rdropWhile_prefix isBlank _).subset isMem)

/-- Squeezing leaves nothing of a text only if trimming does. -/
theorem squeeze_eq_nil_iff (text : List Char) : squeeze text = [] ↔ trim text = [] := by
  rcases forall_isBlank_or_exists text with blank | ⟨left, c, right, rfl, -, visible⟩
  · rw [squeeze, words_of_forall_isBlank blank, trim, trimStart_of_forall blank]
    exact Iff.intro (fun _ ↦ rfl) fun _ ↦ rfl
  · obtain ⟨front, back, squeezed, -⟩ := squeeze_append_cons visible left right
    rw [squeezed, trim_append_cons visible]
    simp

/-! ### Counting a character that is not blank -/

theorem count_trimStart {c : Char} (visible : isBlank c = false) (text : List Char) :
    (trimStart text).count c = text.count c := by
  induction text with
  | nil => rfl
  | cons d rest ih =>
    cases blank : isBlank d with
    | true =>
      have other : d ≠ c := by rintro rfl; rw [blank] at visible; cases visible
      rw [trimStart_cons_of_isBlank blank, ih, List.count_cons_of_ne other]
    | false => rw [trimStart_cons_of_not_isBlank blank]

theorem count_trimEnd {c : Char} (visible : isBlank c = false) (text : List Char) :
    (trimEnd text).count c = text.count c := by
  have reversed := count_trimStart visible text.reverse
  rw [List.count_reverse] at reversed
  rw [trimEnd, List.count_reverse]
  exact reversed

theorem count_trim {c : Char} (visible : isBlank c = false) (text : List Char) :
    (trim text).count c = text.count c := by
  rw [trim, count_trimEnd visible, count_trimStart visible]

theorem count_collapse {c : Char} (visible : isBlank c = false) (text : List Char) :
    (collapse text).count c = text.count c := by
  induction text with
  | nil => rfl
  | cons d rest ih =>
    have notSpace : ' ' ≠ c := by rintro rfl; cases visible
    have notBlank : isBlank d = true → d ≠ c := by
      rintro blank rfl
      rw [blank] at visible
      cases visible
    rw [collapse]
    split_ifs with blank
    · rw [ih, List.count_cons_of_ne (notBlank blank)]
    · rw [List.count_cons_of_ne notSpace, ih, List.count_cons_of_ne (notBlank blank)]
    · rw [List.count_cons, List.count_cons, ih]

theorem count_squeeze {c : Char} (visible : isBlank c = false) (text : List Char) :
    (squeeze text).count c = text.count c := by
  rw [squeeze_eq_trim_collapse, count_trim visible, count_collapse visible]

theorem not_mem_squeeze {c : Char} (visible : isBlank c = false) {text : List Char}
    (none : c ∉ text) : c ∉ squeeze text := by
  rw [← List.count_eq_zero, count_squeeze visible, List.count_eq_zero]
  exact none

end MatrixCalculator.Text
