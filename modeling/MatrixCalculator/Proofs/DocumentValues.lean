import MatrixCalculator.Proofs.FlatKernels
import MatrixCalculator.Value.Document

/-!
# The value of a document

Rows make up a matrix iff they are the rows of one (`Matrix.ofRows_eq_ok_iff`). So a document has
the value that it describes (`Json.Describes`, `Value.ofDocument_eq_ok_iff`): the numbers of a
matrix stand row by row in arrays, those of a table in objects, each under its label.
-/

set_option autoImplicit false

namespace MatrixCalculator

/-! ### Matrices from rows -/

namespace Matrix

variable {α : Type} {m n : Matrix α} {rows : List (List α)}

theorem length_toRows (m : Matrix α) : m.toRows.length = m.rows := by
  simp [toRows, Grid.toRows]

theorem length_of_mem_toRows {row : List α} (isRow : row ∈ m.toRows) : row.length = m.cols :=
  m.grid.length_of_mem_toRows row isRow

theorem getElem?_toRows (m : Matrix α) (i k : Nat) :
    (m.toRows[i]?.bind fun row ↦ row[k]?) = m.get? i k := by
  unfold get? toRows Grid.toRows
  by_cases inRows : i < m.rows
  · by_cases inCols : k < m.cols <;> simp [inRows, inCols, Grid.cell, Grid.row]
  · simp [inRows]

/-- A matrix has one layout in rows only. -/
theorem toRows_injective (same : m.toRows = n.toRows) : m = n := by
  have rows : m.rows = n.rows := by rw [← m.length_toRows, same, n.length_toRows]
  have cols : m.cols = n.cols := by
    obtain ⟨row, isRow⟩ := List.exists_mem_of_length_pos (m.length_toRows ▸ m.rows_pos)
    rw [← length_of_mem_toRows isRow, length_of_mem_toRows (same ▸ isRow)]
  obtain ⟨r, c, g, rows_pos, cols_pos⟩ := m
  obtain ⟨r', c', h, _, _⟩ := n
  obtain rfl : r = r' := rows
  obtain rfl : c = c' := cols
  have cells : g = h := by
    ext i j
    have cell := getElem?_toRows ⟨r, c, g, rows_pos, cols_pos⟩ i j
    rw [same, getElem?_toRows] at cell
    simpa [get?] using cell.symm
  rw [cells]

theorem pos_of_ofCells {r c : Nat} {cells : Array α} (made : ofCells r c cells = .ok m) :
    0 < r ∧ 0 < c := by
  unfold ofCells at made
  split_ifs at made with positive
  exact positive

/-- Rows of one length make up a matrix, unless there are none or they are empty. -/
theorem exists_ofRows {width : Nat} (some : rows ≠ []) (pos : 0 < width)
    (sameLength : ∀ row ∈ rows, row.length = width) :
    ∃ m, ofRows rows = .ok m ∧ m.toRows = rows := by
  have isWidth : (rows.head?.map List.length).getD 0 = width := by
    obtain ⟨first, rest, rfl⟩ := List.exists_cons_of_ne_nil some
    exact sameLength first List.mem_cons_self
  have noneOther : (rows.zipIdx.find? fun row ↦ row.1.length != width) = none := by
    rw [List.find?_eq_none]
    intro row isRow
    rw [sameLength row.1 (List.fst_mem_of_mem_zipIdx isRow)]
    simp
  have complete : rows.flatten.toArray.size = rows.length * width := by
    rw [List.size_toArray, List.length_flatten, List.map_congr_left sameLength, List.map_const',
      List.sum_replicate_nat]
  have made : ofRows rows = ofCells rows.length width rows.flatten.toArray := by
    unfold ofRows
    dsimp only
    rw [isWidth, noneOther]
  rw [made, ofCells, dif_pos ⟨List.length_pos_of_ne_nil some, pos⟩, dif_pos complete]
  refine ⟨_, rfl, ?_⟩
  refine List.ext_getElem (length_toRows _) fun i inRows inRowsToo ↦ ?_
  have ofRow : rows[i].length = width := sameLength _ (List.getElem_mem inRowsToo)
  refine List.ext_getElem ?_ fun k inCols inColsToo ↦ Option.some.inj ?_
  · rw [ofRow, length_of_mem_toRows (List.getElem_mem inRows)]
  · have cell := Grid.getElem?_flatten sameLength i (ofRow ▸ inColsToo)
    rw [List.getElem?_eq_getElem inRowsToo, Option.bind_some,
      List.getElem?_eq_getElem inColsToo] at cell
    rw [← cell]
    simp [toRows, Grid.toRows, Grid.ofCells, Grid.ofRows]

/-- Rows make up a matrix iff they are the rows of it. -/
theorem ofRows_eq_ok_iff : ofRows rows = .ok m ↔ m.toRows = rows := by
  constructor
  · intro made
    have conditions : rows ≠ [] ∧ 0 < (rows.head?.map List.length).getD 0 ∧
        ∀ row ∈ rows, row.length = (rows.head?.map List.length).getD 0 := by
      unfold ofRows at made
      dsimp only at made
      split at made
      · cases made
      · rename_i noneOther
        obtain ⟨some, pos⟩ := pos_of_ofCells made
        refine ⟨List.ne_nil_of_length_pos some, pos, fun row isRow ↦ ?_⟩
        rw [← List.zipIdx_map_fst 0 rows] at isRow
        obtain ⟨numbered, isAt, rfl⟩ := List.mem_map.mp isRow
        simpa using List.find?_eq_none.mp noneOther numbered isAt
    obtain ⟨some, pos, sameLength⟩ := conditions
    obtain ⟨n, madeToo, layout⟩ := exists_ofRows some pos sameLength
    rw [Except.ok.inj (made.symm.trans madeToo), layout]
  · rintro rfl
    have some : m.toRows ≠ [] := List.ne_nil_of_length_pos (m.length_toRows ▸ m.rows_pos)
    obtain ⟨n, made, layout⟩ := exists_ofRows some m.cols_pos fun row ↦ length_of_mem_toRows
    rw [made, toRows_injective layout]

end Matrix

/-! ### Documents -/

namespace Json

/-- Members whose keys are distinct are found under their keys. -/
theorem lookup_eq_some_iff_mem {members : List (String × Json)} {key : String} {value : Json}
    (distinct : (members.map Prod.fst).Nodup) :
    members.lookup key = some value ↔ (key, value) ∈ members := by
  induction members with
  | nil => simp
  | cons member members ih =>
    obtain ⟨name, other⟩ := member
    obtain ⟨isNew, distinct⟩ := List.nodup_cons.mp distinct
    by_cases found : key = name
    · subst found
      have notBehind : (key, value) ∉ members := fun isMember ↦
        isNew (List.mem_map.mpr ⟨_, isMember, rfl⟩)
      simp [notBehind, eq_comm]
    · have other : (key == name) = false := beq_eq_false_iff_ne.mpr found
      simp only [List.lookup_cons, other, ih distinct, List.mem_cons, Prod.mk.injEq, found,
        false_and, false_or]

/-- Whether a row of a document is an array of these numbers. -/
def IsArrayOf (row : Json) (numbers : List Float) : Prop :=
  ∃ cells, row = .array cells ∧ List.Forall₂ (fun cell x ↦ cell.float? = some x) cells numbers

/-- Whether a row of a document is an object with these numbers under some labels. -/
def IsObjectOf (labels : List String) (row : Json) (numbers : List Float) : Prop :=
  ∃ members, row = .object members ∧
    List.Forall₂ (fun label x ↦ (members.lookup label).bind float? = some x) labels numbers

/-- Whether a document describes a value: the numbers of a matrix stand row by row in arrays, those
of a table in objects, under labels that are the keys of the first object. -/
inductive Describes : Json → Value → Prop
  | matrix {rows : List Json} {m : Matrix Float}
      (numbers : List.Forall₂ IsArrayOf rows m.toRows) :
      Describes (.array rows) (.matrix m)
  | table {first : List (String × Json)} {rest : List Json} {t : Table}
      (labels : first.map Prod.fst = t.columns)
      (numbers : List.Forall₂ (IsObjectOf t.columns) (.object first :: rest) t.matrix.toRows) :
      Describes (.array (.object first :: rest)) (.table t)

/-- Only an array whose first row is an array or an object describes a value. -/
theorem Describes.exists_rows {document : Json} {v : Value} (describes : document.Describes v) :
    ∃ first rest, document = .array (first :: rest) ∧
      ((∃ items, first = .array items) ∨ ∃ members, first = .object members) := by
  rcases describes with @⟨rows, m, numbers⟩ | @⟨first, rest, t, labels, numbers⟩
  · rcases rows with _ | ⟨first, rest⟩
    · have none : m.rows = 0 := by rw [← m.length_toRows, ← numbers.length_eq, List.length_nil]
      exact absurd none m.rows_pos.ne'
    · obtain ⟨_, _, ⟨items, isArray, -⟩, -⟩ := List.forall₂_cons_left_iff.mp numbers
      exact ⟨first, rest, rfl, Or.inl ⟨items, isArray⟩⟩
  · exact ⟨_, _, rfl, Or.inr ⟨first, rfl⟩⟩

end Json

theorem bind_eq_ok_iff {α β ε : Type} {result : Except ε α} {f : α → Except ε β} {b : β} :
    (result >>= f) = .ok b ↔ ∃ a, result = .ok a ∧ f a = .ok b :=
  ⟨exists_of_bind_eq_ok, fun ⟨a, isResult, value⟩ ↦ by rw [isResult, ok_bind, value]⟩

theorem mapError_eq_ok_iff {α ε δ : Type} {result : Except ε α} {f : ε → δ} {a : α} :
    result.mapError f = .ok a ↔ result = .ok a :=
  ⟨eq_ok_of_mapError, fun isResult ↦ by rw [isResult]; rfl⟩

namespace Document

theorem number_eq_ok_iff {i : Nat} {cell : Json} {x : Float} :
    number i cell = .ok x ↔ cell.float? = some x := by
  unfold number
  rcases cell.float? with _ | y <;> simp

theorem arrayRow_eq_ok_iff {row : Json × Nat} {numbers : List Float} :
    arrayRow row = .ok numbers ↔ row.1.IsArrayOf numbers := by
  obtain ⟨row, i⟩ := row
  cases row with
  | array cells =>
    change cells.mapM (number i) = .ok numbers ↔ _
    simp only [mapM_eq_ok_iff, number_eq_ok_iff, Json.IsArrayOf, Json.array.injEq,
      exists_eq_left']
  | _ =>
    refine iff_of_false (fun read ↦ by cases read) ?_
    rintro ⟨cells, isArray, -⟩
    cases isArray

theorem objectRow_eq_ok_iff {labels : List String} {row : Json × Nat} {numbers : List Float} :
    objectRow labels row = .ok numbers ↔ row.1.IsObjectOf labels numbers := by
  obtain ⟨row, i⟩ := row
  cases row with
  | object members =>
    unfold objectRow
    simp only [Json.members?, mapM_eq_ok_iff, Json.IsObjectOf, Json.object.injEq, exists_eq_left']
    constructor
    · refine List.Forall₂.imp fun label x value ↦ ?_
      split at value
      · rename_i cell isMember
        rw [isMember]
        exact number_eq_ok_iff.mp value
      · cases value
    · refine List.Forall₂.imp fun label x value ↦ ?_
      obtain ⟨cell, isMember, isNumber⟩ := Option.bind_eq_some_iff.mp value
      rw [isMember]
      exact number_eq_ok_iff.mpr isNumber
  | _ =>
    refine iff_of_false (fun read ↦ by cases read) ?_
    rintro ⟨members, isObject, -⟩
    cases isObject

/-- Where the rows stand does not matter unless there is an error. -/
theorem mapM_zipIdx_eq_ok_iff {P : Json → List Float → Prop}
    {read : Json × Nat → Except DocumentError (List Float)}
    (isRead : ∀ row numbers, read row = .ok numbers ↔ P row.1 numbers) {rows : List Json}
    {lists : List (List Float)} :
    rows.zipIdx.mapM read = .ok lists ↔ List.Forall₂ P rows lists := by
  conv_rhs => rw [← List.zipIdx_map_fst 0 rows, List.forall₂_map_left_iff]
  simp only [mapM_eq_ok_iff, isRead]

theorem matrixOfRows_eq_ok_iff {lists : List (List Float)} {m : Matrix Float} :
    matrixOfRows lists = .ok m ↔ m.toRows = lists := by
  rw [matrixOfRows, mapError_eq_ok_iff, Matrix.ofRows_eq_ok_iff]

theorem ofLabels_eq_ok_iff {labels : List String} {m : Matrix Float} {t : Table} :
    (Table.ofLabels labels m).mapError DocumentError.matrix = .ok t ↔
      labels = t.columns ∧ m = t.matrix := by
  rw [mapError_eq_ok_iff, Table.ofLabels]
  split_ifs with labelled
  · obtain ⟨columns, matrix, _⟩ := t
    simp
  · refine iff_of_false (fun made ↦ by cases made) ?_
    rintro ⟨rfl, rfl⟩
    exact labelled t.labelled

end Document

theorem ofDocument_arrays_eq_ok_iff {items rest : List Json} {v : Value} :
    Value.ofDocument (.array (.array items :: rest)) = .ok v ↔
      (Json.array (.array items :: rest)).Describes v := by
  change (((Json.array items :: rest).zipIdx.mapM Document.arrayRow >>= fun lists ↦
    Document.matrixOfRows lists >>= fun m ↦ .ok (.matrix m)) = .ok v) ↔ _
  simp only [bind_eq_ok_iff, Document.mapM_zipIdx_eq_ok_iff fun _ _ ↦
    Document.arrayRow_eq_ok_iff, Document.matrixOfRows_eq_ok_iff]
  constructor
  · rintro ⟨_, numbers, m, rfl, same⟩
    cases same
    exact .matrix numbers
  · rintro (numbers | _)
    exact ⟨_, numbers, _, rfl, rfl⟩

theorem ofDocument_objects_eq_ok_iff {members : List (String × Json)} {rest : List Json}
    {v : Value} :
    Value.ofDocument (.array (.object members :: rest)) = .ok v ↔
      (Json.array (.object members :: rest)).Describes v := by
  change (((Json.object members :: rest).zipIdx.mapM
    (Document.objectRow (members.map Prod.fst)) >>= fun lists ↦
      Document.matrixOfRows lists >>= fun m ↦
        (Table.ofLabels (members.map Prod.fst) m).mapError DocumentError.matrix >>=
          fun t ↦ .ok (.table t)) = .ok v) ↔ _
  simp only [bind_eq_ok_iff, Document.mapM_zipIdx_eq_ok_iff fun _ _ ↦
    Document.objectRow_eq_ok_iff, Document.matrixOfRows_eq_ok_iff, Document.ofLabels_eq_ok_iff]
  constructor
  · rintro ⟨_, numbers, m, rfl, t, ⟨labels, rfl⟩, same⟩
    cases same
    exact .table labels (labels ▸ numbers)
  · rintro (numbers | ⟨labels, numbers⟩)
    · obtain ⟨_, _, ⟨items, isArray, -⟩, -⟩ := List.forall₂_cons_left_iff.mp numbers
      cases isArray
    · exact ⟨_, labels ▸ numbers, _, rfl, _, ⟨labels, rfl⟩, rfl⟩

/-- A document has the value that it describes, and only that. -/
theorem Value.ofDocument_eq_ok_iff {document : Json} {v : Value} :
    Value.ofDocument document = .ok v ↔ document.Describes v := by
  by_cases hasRows : ∃ first rest, document = .array (first :: rest) ∧
      ((∃ items, first = .array items) ∨ ∃ members, first = .object members)
  · rcases hasRows with ⟨_, rest, rfl, ⟨items, rfl⟩ | ⟨members, rfl⟩⟩
    · exact ofDocument_arrays_eq_ok_iff
    · exact ofDocument_objects_eq_ok_iff
  · refine iff_of_false (fun read ↦ hasRows ?_) fun describes ↦ hasRows describes.exists_rows
    rcases document with _ | _ | _ | _ | _ | (_ | ⟨first, rest⟩) | _
    case array.cons =>
      refine ⟨first, rest, rfl, ?_⟩
      rcases first with _ | _ | _ | _ | _ | items | members
      case array => exact Or.inl ⟨items, rfl⟩
      case object => exact Or.inr ⟨members, rfl⟩
      all_goals cases read
    all_goals cases read

end MatrixCalculator
