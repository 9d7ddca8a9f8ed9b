import MatrixCalculator.Proofs.DocumentValues

/-!
# Reading back what encodes a value

A document encodes a value (`Value.Encoded`) when the rows of a matrix are arrays of its numbers,
and the rows of a table are objects with the labels for keys, the first in the order of the labels
and every other in an order of its own. A number may be written as a float or as a whole number that
converts to it. Every value with finite cells has such a document (`Value.encoded_toDocument`), and
every such document is read as the value that it encodes (`ofDocument_of_encoded`).
-/

set_option autoImplicit false

namespace MatrixCalculator

namespace Json

/-- The numbers that stand for a double: the float itself, which has to be finite, and a whole
number that converts to it. -/
inductive Writes (x : Float) : Json → Prop
  | float (finite : x.isFinite = true) : Writes x (.float x)
  | int {n : Int} (converts : Float.ofInt n = x) : Writes x (.int n)

theorem Writes.float? {x : Float} {cell : Json} (writes : cell.Writes x) :
    cell.float? = some x := by
  rcases writes with _ | converts
  · rfl
  · exact congrArg some converts

/-- Whether a document lists these numbers in an array. -/
def IsListing (numbers : List Float) (row : Json) : Prop :=
  ∃ cells, row = .array cells ∧ List.Forall₂ Writes numbers cells

/-- Whether a document is an object with these numbers under these labels, in any order. -/
def IsRecord (labels : List String) (numbers : List Float) (row : Json) : Prop :=
  ∃ members entries, row = .object members ∧ members.Perm entries ∧
    entries.map Prod.fst = labels ∧ List.Forall₂ Writes numbers (entries.map Prod.snd)

theorem IsListing.isArrayOf {numbers : List Float} {row : Json} (listing : row.IsListing numbers) :
    row.IsArrayOf numbers := by
  obtain ⟨cells, isArray, written⟩ := listing
  exact ⟨cells, isArray, (written.imp fun _ _ ↦ Writes.float?).flip⟩

/-- In what order the members of an object stand does not matter, as long as its keys are
distinct. -/
theorem IsRecord.isObjectOf {labels : List String} {numbers : List Float} {row : Json}
    (record : row.IsRecord labels numbers) (distinct : labels.Nodup) :
    row.IsObjectOf labels numbers := by
  obtain ⟨members, entries, isObject, reordered, rfl, written⟩ := record
  have distinctToo : (members.map Prod.fst).Nodup := (reordered.map Prod.fst).nodup_iff.mpr distinct
  have paired : List.Forall₂ (fun entry x ↦ entry ∈ entries ∧ Writes x entry.2) entries numbers :=
    (List.forall₂_and_left entries numbers).mpr
      ⟨fun _ isEntry ↦ isEntry, (List.forall₂_map_right_iff.mp written).flip⟩
  refine ⟨members, isObject, List.forall₂_map_left_iff.mpr (paired.imp ?_)⟩
  rintro ⟨label, cell⟩ x ⟨isEntry, writes⟩
  have isMember := (lookup_eq_some_iff_mem distinctToo).mpr (reordered.mem_iff.mpr isEntry)
  rw [isMember, Option.bind_some, writes.float?]

end Json

namespace Value

/-- The documents that encode a value. -/
inductive Encoded : Value → Json → Prop
  | matrix {m : Matrix Float} {rows : List Json}
      (numbers : List.Forall₂ Json.IsListing m.toRows rows) :
      Encoded (.matrix m) (.array rows)
  | table {t : Table} {first : List (String × Json)} {rest : List Json}
      (labels : first.map Prod.fst = t.columns)
      (numbers : List.Forall₂ (Json.IsRecord t.columns) t.matrix.toRows (.object first :: rest)) :
      Encoded (.table t) (.array (.object first :: rest))

/-- A document that encodes a value: all numbers are floats, and the keys of every object are in the
order of the labels. -/
def toDocument : Value → Json
  | .matrix m => .array (m.toRows.map fun row ↦ .array (row.map .float))
  | .table t => .array (t.matrix.toRows.map fun row ↦ .object (t.columns.zip (row.map .float)))

/-- What encodes a value describes it. -/
theorem Encoded.describes {v : Value} {document : Json} (encoded : v.Encoded document)
    (distinct : v.labels.Nodup) : document.Describes v := by
  rcases encoded with numbers | ⟨labels, numbers⟩
  · exact .matrix (numbers.imp fun _ _ ↦ Json.IsListing.isArrayOf).flip
  · exact .table labels (numbers.imp fun _ _ record ↦ record.isObjectOf distinct).flip

theorem writes_floats {numbers : List Float} (finite : ∀ x ∈ numbers, x.isFinite = true) :
    List.Forall₂ Json.Writes numbers (numbers.map .float) :=
  List.forall₂_map_right_iff.mpr (List.forall₂_same.mpr fun x isNumber ↦ .float (finite x isNumber))

/-- A value with finite cells has a document that encodes it. -/
theorem encoded_toDocument {v : Value} (finite : ∀ x ∈ v.toMatrix.cells, x.isFinite = true) :
    v.Encoded v.toDocument := by
  have finiteRow : ∀ row ∈ v.toMatrix.toRows, ∀ x ∈ row, x.isFinite = true :=
    fun row isRow x isNumber ↦ finite x (List.mem_flatten.mpr ⟨row, isRow, isNumber⟩)
  cases v with
  | matrix m =>
    refine .matrix (List.forall₂_map_right_iff.mpr (List.forall₂_same.mpr fun row isRow ↦ ?_))
    exact ⟨_, rfl, writes_floats (finiteRow row isRow)⟩
  | table t =>
    have sameLength : ∀ row ∈ t.matrix.toRows,
        t.columns.length = (row.map Json.float).length := fun row isRow ↦ by
      rw [List.length_map, Matrix.length_of_mem_toRows isRow, t.labelled]
    have records : List.Forall₂ (Json.IsRecord t.columns) t.matrix.toRows
        (t.matrix.toRows.map fun row ↦ .object (t.columns.zip (row.map .float))) := by
      refine List.forall₂_map_right_iff.mpr (List.forall₂_same.mpr fun row isRow ↦ ?_)
      refine ⟨_, _, rfl, .refl _, List.map_fst_zip (sameLength row isRow).le, ?_⟩
      rw [List.map_snd_zip (sameLength row isRow).ge]
      exact writes_floats (finiteRow row isRow)
    obtain ⟨first, rest, rows⟩ := List.exists_cons_of_length_pos
      (t.matrix.length_toRows ▸ t.matrix.rows_pos)
    have firstLabels : (t.columns.zip (first.map Json.float)).map Prod.fst = t.columns :=
      List.map_fst_zip (sameLength first (rows ▸ List.mem_cons_self)).le
    rw [toDocument]
    rw [rows, List.map_cons] at records ⊢
    exact .table firstLabels (rows.symm ▸ records)

/-- Reading undoes encoding. A value with finite cells and distinct labels has documents that encode
it, and every one of them is read as that value. -/
theorem ofDocument_of_encoded {v : Value} (finite : ∀ x ∈ v.toMatrix.cells, x.isFinite = true)
    (distinct : v.labels.Nodup) :
    v.Encoded v.toDocument ∧ ∀ document, v.Encoded document → Value.ofDocument document = .ok v :=
  ⟨encoded_toDocument finite, fun _ encoded ↦
    ofDocument_eq_ok_iff.mpr (encoded.describes distinct)⟩

/-- The second row has its keys in the other order. -/
theorem ofDocument_of_reordered_row :
    let numbers : Matrix Float := ⟨2, 2, ⟨#v[#v[1.0, 2.5], #v[3.0, 4.0]]⟩, by decide, by decide⟩
    let table : Table := ⟨["b", "a"], numbers, rfl⟩
    let first : Json := .object [("b", .int 1), ("a", .float 2.5)]
    let second : Json := .object [("a", .int 4), ("b", .float 3.0)]
    (∀ x ∈ (Value.table table).toMatrix.cells, x.isFinite = true) ∧
      (Value.table table).labels.Nodup ∧
      (Value.table table).Encoded (.array [first, second]) ∧
      Value.ofDocument (.array [first, second]) = .ok (.table table) := by
  intro numbers table first second
  have finite : ∀ x ∈ (Value.table table).toMatrix.cells, x.isFinite = true := by decide
  have distinct : (Value.table table).labels.Nodup := by decide
  have firstRow : first.IsRecord ["b", "a"] [1.0, 2.5] :=
    ⟨_, _, rfl, .refl _, rfl, .cons (.int (by decide)) (.cons (.float (by decide)) .nil)⟩
  have secondRow : second.IsRecord ["b", "a"] [3.0, 4.0] :=
    ⟨_, _, rfl, .swap _ _ _, rfl, .cons (.float (by decide)) (.cons (.int (by decide)) .nil)⟩
  have encoded : (Value.table table).Encoded (.array [first, second]) :=
    .table rfl (.cons firstRow (.cons secondRow .nil))
  exact ⟨finite, distinct, encoded, (ofDocument_of_encoded finite distinct).2 _ encoded⟩

end Value

end MatrixCalculator
