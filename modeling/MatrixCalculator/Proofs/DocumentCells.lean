import MatrixCalculator.CommandLine.Basic
import MatrixCalculator.Proofs.DistinctKeys
import MatrixCalculator.Proofs.DocumentValues

/-!
# The cells of a document and of its value

A cell of a document stands in a row, at a position of an array or under a key of an object
(`Json.cell?`). The value of a document has a number in every row at the position, or under the
label, of a cell, and nowhere else (`Value.HoldsExactly`), if the document is taken without the
members whose keys the first row lacks (`Json.kept`): what such a member holds is neither checked
nor kept (`surplus_member_dropped`). A document without such members is read as a whole
(`holdsExactly_of_ofDocument`). All this holds of files that are loaded, because a document that was
read has no key twice (`exists_of_loadInto`).

Every row that is read, with the members that are kept, has the numbers of one row of the value
(`Json.HasNumbers`), whether it is an array (`Json.IsArrayOf.hasNumbers`) or an object
(`Json.IsObjectOf.hasNumbers`).
-/

set_option autoImplicit false

namespace MatrixCalculator

namespace Json

/-! ### Cells and leaves -/

/-- Where a cell stands in its row: at a position of an array or under a key of an object. -/
inductive Slot where
  | position (k : Nat)
  | key (label : String)

/-- What a row has in a slot. -/
def inSlot? (row : Json) : Slot → Option Json
  | .position k => row.items?.bind fun items ↦ items[k]?
  | .key label => row.member? label

/-- The cell in a row and a slot. -/
def cell? (document : Json) (i : Nat) (slot : Slot) : Option Json :=
  (document.items?.bind fun rows ↦ rows[i]?).bind fun row ↦ row.inSlot? slot

mutual

/-- The number of the parts, at whatever depth, that are neither arrays nor objects. -/
def leafCount : Json → Nat
  | array items => itemLeafCount items
  | object members => memberLeafCount members
  | _ => 1

/-- The number of leaves of all items. -/
def itemLeafCount : List Json → Nat
  | [] => 0
  | item :: items => leafCount item + itemLeafCount items

/-- The number of leaves of all members. -/
def memberLeafCount : List (String × Json) → Nat
  | [] => 0
  | (_, value) :: members => leafCount value + memberLeafCount members

end

/-! ### Members that the first row lacks -/

/-- The keys of the first row of a document, none if it is no object. -/
def labels : Json → List String
  | array (object members :: _) => members.map Prod.fst
  | _ => []

/-- A row without the members that have no label for a key. -/
def restrict (labels : List String) : Json → Json
  | object members => object (members.filter fun member ↦ member.1 ∈ labels)
  | row => row

/-- The document without the members that have no label for a key. -/
def kept (document : Json) : Json :=
  match document with
  | array rows => array (rows.map (restrict document.labels))
  | document => document

/-- Whether every key of a row is a key of the first row. -/
def HasNoSurplus (document : Json) : Prop :=
  ∀ row ∈ document.items?.getD [], ∀ member ∈ row.members?.getD [], member.1 ∈ document.labels

instance (document : Json) : Decidable document.HasNoSurplus :=
  inferInstanceAs (Decidable (∀ row ∈ document.items?.getD [],
    ∀ member ∈ row.members?.getD [], member.1 ∈ document.labels))

end Json

namespace Value

/-- The column of a value that a slot of a row belongs to: the cells of a matrix go by their
position, those of a table by their label. -/
def column? : Value → Json.Slot → Option Nat
  | .matrix _, .position k => some k
  | .table t, .key label => t.columnIndex? label
  | _, _ => none

/-- The number in a row and a slot. -/
def cell? (v : Value) (i : Nat) (slot : Json.Slot) : Option Float :=
  (v.column? slot).bind (v.toMatrix.get? i)

/-- Whether the cells of a document are numbers, which a value has in the same rows and slots, and
the value has no others, so that the document has one leaf for each of them. -/
structure HoldsExactly (v : Value) (document : Json) : Prop where
  cells : ∀ i slot, (document.cell? i slot).map Json.float? = (v.cell? i slot).map some
  leaves : document.leafCount = v.shape.1 * v.shape.2

end Value

/-! ### Rows and their numbers -/

section Rows

variable {α β : Type} {R : α → β → Prop} {as : List α} {bs : List β}

/-- Lists of related entries have related entries, or none, at every position. -/
theorem getElem?_of_forall₂ (related : List.Forall₂ R as bs) (i : Nat) :
    (as[i]? = none ∧ bs[i]? = none) ∨ ∃ a b, as[i]? = some a ∧ bs[i]? = some b ∧ R a b := by
  induction related generalizing i with
  | nil => exact Or.inl ⟨rfl, rfl⟩
  | cons first _ ih =>
    rcases i with _ | i
    · exact Or.inr ⟨_, _, rfl, rfl, first⟩
    · exact ih i

theorem exists_getElem?_of_forall₂ (related : List.Forall₂ R as bs) {i : Nat} {a : α}
    (isThere : as[i]? = some a) : ∃ b, bs[i]? = some b ∧ R a b := by
  rcases getElem?_of_forall₂ related i with ⟨missing, -⟩ | ⟨a', b, isThereToo, isImage, isRelated⟩
  · cases missing.symm.trans isThere
  · cases isThereToo.symm.trans isThere
    exact ⟨b, isImage, isRelated⟩

end Rows

namespace Json

/-- Whether a row has these numbers and no others, where slots lead to columns. -/
structure HasNumbers (column? : Slot → Option Nat) (row : Json) (numbers : List Float) : Prop where
  cells : ∀ slot, (row.inSlot? slot).map float? =
    ((column? slot).bind fun k ↦ numbers[k]?).map some
  leaves : row.leafCount = numbers.length

theorem leafCount_of_float? {cell : Json} {x : Float} (isNumber : cell.float? = some x) :
    cell.leafCount = 1 := by
  cases cell with
  | int n => rfl
  | float y => rfl
  | _ => cases isNumber

theorem itemLeafCount_eq_sum (items : List Json) :
    itemLeafCount items = (items.map leafCount).sum := by
  induction items with
  | nil => rfl
  | cons item items ih => rw [itemLeafCount, ih, List.map_cons, List.sum_cons]

theorem memberLeafCount_eq_sum (members : List (String × Json)) :
    memberLeafCount members = (members.map fun member ↦ member.2.leafCount).sum := by
  induction members with
  | nil => rfl
  | cons member members ih => rw [memberLeafCount, ih, List.map_cons, List.sum_cons]

theorem sum_map_eq_length {γ : Type} {items : List γ} {count : γ → Nat}
    (single : ∀ item ∈ items, count item = 1) : (items.map count).sum = items.length := by
  rw [List.map_congr_left single, List.map_const', List.sum_replicate_nat, Nat.mul_one]

theorem IsArrayOf.hasNumbers {m : Matrix Float} {row : Json} {numbers : List Float}
    (isArray : row.IsArrayOf numbers) : row.HasNumbers (Value.matrix m).column? numbers := by
  obtain ⟨cells, rfl, areNumbers⟩ := isArray
  refine ⟨fun slot ↦ ?_, ?_⟩
  · cases slot with
    | position k =>
      change cells[k]?.map float? = numbers[k]?.map some
      rcases getElem?_of_forall₂ areNumbers k with
        ⟨noCell, noNumber⟩ | ⟨cell, x, isCell, isThere, isNumber⟩
      · rw [noCell, noNumber]
        rfl
      · rw [isCell, isThere, Option.map_some, isNumber, Option.map_some]
    | key label => rfl
  · have single : ∀ cell ∈ cells, cell.leafCount = 1 := by
      intro cell isCell
      obtain ⟨k, isCell⟩ := List.getElem?_of_mem isCell
      obtain ⟨x, -, isNumber⟩ := exists_getElem?_of_forall₂ areNumbers isCell
      exact leafCount_of_float? isNumber
    rw [leafCount, itemLeafCount_eq_sum, sum_map_eq_length single, areNumbers.length_eq]

section Objects

variable {members : List (String × Json)} {columns : List String} {numbers : List Float}
  {label : String}

theorem nodup_filter_keys (keys : (members.map Prod.fst).Nodup) (columns : List String) :
    ((members.filter fun member ↦ member.1 ∈ columns).map Prod.fst).Nodup :=
  keys.sublist (List.filter_sublist.map Prod.fst)

/-- Of the members of an object those stay that have a label for a key. -/
theorem lookup_filter_eq_some_iff (keys : (members.map Prod.fst).Nodup) {value : Json} :
    (members.filter fun member ↦ member.1 ∈ columns).lookup label = some value ↔
      members.lookup label = some value ∧ label ∈ columns := by
  rw [lookup_eq_some_iff_mem (nodup_filter_keys keys columns), lookup_eq_some_iff_mem keys,
    List.mem_filter, decide_eq_true_iff]

section Read

variable (areNumbers : List.Forall₂
  (fun label x ↦ (members.lookup label).bind float? = some x) columns numbers)
include areNumbers

/-- An object that is read has a number under every label. -/
theorem exists_lookup {k : Nat} (isLabel : columns[k]? = some label) :
    ∃ cell x, members.lookup label = some cell ∧ cell.float? = some x ∧ numbers[k]? = some x := by
  obtain ⟨x, isThere, isNumber⟩ := exists_getElem?_of_forall₂ areNumbers isLabel
  obtain ⟨cell, isMember, isNumber⟩ := Option.bind_eq_some_iff.mp isNumber
  exact ⟨cell, x, isMember, isNumber, isThere⟩

theorem leafCount_of_mem_filter (keys : (members.map Prod.fst).Nodup) :
    ∀ member ∈ members.filter fun member ↦ member.1 ∈ columns, member.2.leafCount = 1 := by
  intro member isKept
  obtain ⟨isMember, isLabel⟩ := List.mem_filter.mp isKept
  obtain ⟨k, isLabel⟩ := List.getElem?_of_mem (of_decide_eq_true isLabel)
  obtain ⟨cell, x, found, isNumber, -⟩ := exists_lookup areNumbers isLabel
  cases found.symm.trans ((lookup_eq_some_iff_mem keys).mpr isMember)
  exact leafCount_of_float? isNumber

/-- The members that stay have the labels for keys, each once. -/
theorem perm_filter_keys (keys : (members.map Prod.fst).Nodup) (distinct : columns.Nodup) :
    ((members.filter fun member ↦ member.1 ∈ columns).map Prod.fst).Perm columns := by
  refine (List.perm_ext_iff_of_nodup (nodup_filter_keys keys columns) distinct).mpr fun label ↦ ?_
  constructor
  · intro isKey
    obtain ⟨member, isKept, same⟩ := List.mem_map.mp isKey
    exact same ▸ of_decide_eq_true (List.mem_filter.mp isKept).2
  · intro isLabel
    obtain ⟨k, atK⟩ := List.getElem?_of_mem isLabel
    obtain ⟨cell, x, found, -⟩ := exists_lookup areNumbers atK
    have isKept := (lookup_eq_some_iff_mem (nodup_filter_keys keys columns)).mp
      ((lookup_filter_eq_some_iff keys).mpr ⟨found, isLabel⟩)
    exact List.mem_map.mpr ⟨_, isKept, rfl⟩

end Read

end Objects

theorem exists_columnIndex? {t : Table} {label : String} (isLabel : label ∈ t.columns) :
    ∃ k, t.columnIndex? label = some k ∧ t.columns[k]? = some label := by
  obtain ⟨k, isIndex⟩ : ∃ k, t.columnIndex? label = some k := by
    rw [← Option.isSome_iff_exists, Table.columnIndex?, List.findIdx?_isSome, List.any_eq_true]
    exact ⟨label, isLabel, beq_self_eq_true label⟩
  obtain ⟨inside, found, -⟩ := List.findIdx?_eq_some_iff_getElem.mp isIndex
  exact ⟨k, isIndex, List.getElem?_eq_some_iff.mpr ⟨inside, eq_of_beq found⟩⟩

theorem columnIndex?_eq_none {t : Table} {label : String} (noLabel : label ∉ t.columns) :
    t.columnIndex? label = none :=
  List.findIdx?_eq_none_iff.mpr fun _ isOther ↦
    beq_eq_false_iff_ne.mpr fun same ↦ noLabel (same ▸ isOther)

/-- What is left of an object has the numbers that were read from it. -/
theorem IsObjectOf.hasNumbers {t : Table} {row : Json} {numbers : List Float}
    (isObject : row.IsObjectOf t.columns numbers) (distinct : row.Distinct)
    (labels : t.columns.Nodup) :
    (row.restrict t.columns).HasNumbers (Value.table t).column? numbers := by
  obtain ⟨members, rfl, areNumbers⟩ := isObject
  have keys := distinct.keys
  refine ⟨fun slot ↦ ?_, ?_⟩
  · cases slot with
    | position k => rfl
    | key label =>
      change ((members.filter fun member ↦ member.1 ∈ t.columns).lookup label).map float? =
        ((t.columnIndex? label).bind fun k ↦ numbers[k]?).map some
      by_cases isLabel : label ∈ t.columns
      · obtain ⟨k, isIndex, atK⟩ := exists_columnIndex? isLabel
        obtain ⟨cell, x, found, isNumber, isThere⟩ := exists_lookup areNumbers atK
        rw [(lookup_filter_eq_some_iff keys).mpr ⟨found, isLabel⟩, isIndex, Option.bind_some,
          isThere, Option.map_some, isNumber, Option.map_some]
      · have dropped : (members.filter fun member ↦ member.1 ∈ t.columns).lookup label = none :=
          Option.eq_none_iff_forall_ne_some.mpr fun _ found ↦
            isLabel ((lookup_filter_eq_some_iff keys).mp found).2
        rw [dropped, columnIndex?_eq_none isLabel]
        rfl
  · change memberLeafCount (members.filter fun member ↦ member.1 ∈ t.columns) = numbers.length
    rw [memberLeafCount_eq_sum, sum_map_eq_length (leafCount_of_mem_filter areNumbers keys),
      ← areNumbers.length_eq, ← (perm_filter_keys areNumbers keys labels).length_eq,
      List.length_map]

/-! ### All rows -/

/-- A value has the cells of rows that have its numbers. -/
theorem holdsExactly_of_hasNumbers {v : Value} {rows : List Json}
    (numbers : List.Forall₂ (HasNumbers v.column?) rows v.toMatrix.toRows) :
    v.HoldsExactly (.array rows) := by
  refine ⟨fun i slot ↦ ?_, ?_⟩
  · change ((rows[i]?.bind fun row ↦ row.inSlot? slot).map float?) =
      ((v.column? slot).bind (v.toMatrix.get? i)).map some
    simp only [← Matrix.getElem?_toRows]
    rcases getElem?_of_forall₂ numbers i with
      ⟨noRow, noNumbers⟩ | ⟨row, list, isRow, isThere, hasNumbers⟩
    · rw [noRow, noNumbers]
      simp
    · rw [isRow, isThere]
      exact hasNumbers.cells slot
  · have counts : rows.map leafCount = v.toMatrix.toRows.map List.length := by
      rw [← List.forall₂_eq_eq_eq, List.forall₂_map_left_iff, List.forall₂_map_right_iff]
      exact numbers.imp fun _ _ hasNumbers ↦ hasNumbers.leaves
    rw [leafCount, itemLeafCount_eq_sum, counts, ← List.length_flatten]
    exact v.toMatrix.grid.length_flat

theorem IsArrayOf.restrict_eq {row : Json} {numbers : List Float} (isArray : row.IsArrayOf numbers)
    (labels : List String) : row.restrict labels = row := by
  obtain ⟨cells, rfl, -⟩ := isArray
  rfl

theorem Describes.labels_eq {document : Json} {v : Value} (describes : document.Describes v) :
    v.labels = document.labels := by
  rcases describes with @⟨rows, m, numbers⟩ | ⟨labels, -⟩
  · rcases rows with _ | ⟨first, rest⟩
    · rfl
    · obtain ⟨_, _, ⟨cells, rfl, -⟩, -⟩ := List.forall₂_cons_left_iff.mp numbers
      rfl
  · exact labels.symm

/-- A value has the cells of the document that it was read from, without surplus members. -/
theorem Describes.holdsExactly_kept {document : Json} {v : Value} (describes : document.Describes v)
    (distinct : document.Distinct) : v.HoldsExactly document.kept := by
  rcases describes with numbers | @⟨first, rest, t, labels, numbers⟩
  · refine holdsExactly_of_hasNumbers (List.forall₂_map_left_iff.mpr (numbers.imp ?_))
    intro row list isArray
    rw [isArray.restrict_eq]
    exact isArray.hasNumbers
  · have distinctLabels : t.columns.Nodup :=
      labels ▸ (distinct.items _ List.mem_cons_self).keys
    have ofRows := (List.forall₂_and_left _ _).mpr ⟨distinct.items, numbers⟩
    refine holdsExactly_of_hasNumbers (List.forall₂_map_left_iff.mpr (ofRows.imp ?_))
    rintro row list ⟨distinctRow, isObject⟩
    change (row.restrict (first.map Prod.fst)).HasNumbers _ list
    rw [labels]
    exact isObject.hasNumbers distinctRow distinctLabels

theorem kept_eq_self {document : Json} (noSurplus : document.HasNoSurplus) :
    document.kept = document := by
  cases document with
  | array rows =>
    have unchanged : ∀ row ∈ rows, row.restrict (array rows).labels = row := by
      intro row isRow
      cases row with
      | object members =>
        have allKept : (members.filter fun member ↦ member.1 ∈ (array rows).labels) = members :=
          List.filter_eq_self.mpr fun member isMember ↦
            decide_eq_true (noSurplus _ isRow member isMember)
        exact congrArg object allKept
      | _ => rfl
    exact congrArg array ((List.map_congr_left unchanged).trans (List.map_id' rows))
  | _ => rfl

end Json

/-! ### Documents and files -/

/-- The value of a document has the labels of its first row, and every cell under a label is a
number in its place. Only members that the first row lacks are left out. -/
theorem holdsExactly_of_ofDocument {document : Json} {v : Value} (distinct : document.Distinct)
    (read : Value.ofDocument document = .ok v) :
    v.labels = document.labels ∧ v.HoldsExactly document.kept ∧
      (document.HasNoSurplus → v.HoldsExactly document) := by
  have describes := Value.ofDocument_eq_ok_iff.mp read
  have holds := describes.holdsExactly_kept distinct
  exact ⟨describes.labels_eq, holds, fun noSurplus ↦ Json.kept_eq_self noSurplus ▸ holds⟩

/-- The second row has its keys in the other order. -/
theorem holdsExactly_of_reordered_row :
    let document : Json :=
      .array [.object [("b", .int 1), ("a", .int 2)], .object [("a", .int 4), ("b", .int 3)]]
    let numbers : Matrix Float := ⟨2, 2, ⟨#v[#v[1.0, 2.0], #v[3.0, 4.0]]⟩, by decide, by decide⟩
    let v : Value := .table ⟨["b", "a"], numbers, rfl⟩
    document.Distinct ∧ Value.ofDocument document = .ok v ∧ document.HasNoSurplus ∧
      v.HoldsExactly document := by
  intro document numbers v
  have distinct : document.Distinct :=
    .cons ((Json.distinct_object_nil.set "b" (.int 1)).set "a" (.int 2))
      (.cons ((Json.distinct_object_nil.set "a" (.int 4)).set "b" (.int 3)) Json.distinct_array_nil)
  have read : Value.ofDocument document = .ok v := rfl
  have noSurplus : document.HasNoSurplus := by decide
  exact ⟨distinct, read, noSurplus, (holdsExactly_of_ofDocument distinct read).2.2 noSurplus⟩

/-- A member that the first row lacks is dropped, even if it is no number. -/
theorem surplus_member_dropped :
    let document : Json :=
      .array [.object [("a", .int 1)], .object [("a", .int 2), ("b", .string "x")]]
    document.Distinct ∧ ∃ v, Value.ofDocument document = .ok v ∧
      document.cell? 1 (.key "b") = some (.string "x") ∧ v.cell? 1 (.key "b") = none ∧
      document.leafCount = 3 ∧ v.shape = (2, 1) ∧ ¬v.HoldsExactly document := by
  intro document
  let numbers : Matrix Float := ⟨2, 1, ⟨#v[#v[1.0], #v[2.0]]⟩, by decide, by decide⟩
  have distinct : document.Distinct :=
    .cons (Json.distinct_object_nil.set "a" (.int 1))
      (.cons ((Json.distinct_object_nil.set "a" (.int 2)).set "b" (.string "x"))
        Json.distinct_array_nil)
  refine ⟨distinct, .table ⟨["a"], numbers, rfl⟩, rfl, rfl, rfl, rfl, rfl, fun holds ↦ ?_⟩
  exact absurd holds.leaves (by decide)

/-- A name is bound to the value of a file, which has all cells of the document in the file but the
surplus members. -/
theorem exists_of_loadInto {files : CommandLine.Files} {s s' : Session} {load : CommandLine.Load}
    (loaded : CommandLine.loadInto files s load = .ok s') :
    ∃ text document v, files load.path = .ok text ∧ Json.read? text = some document ∧
      v.labels = document.labels ∧ v.HoldsExactly document.kept ∧
      s.bind load.name v = (.ok (), s') := by
  unfold CommandLine.loadInto at loaded
  obtain ⟨text, isText, loaded⟩ := exists_of_bind_eq_ok loaded
  split at loaded
  · rename_i document isDocument
    obtain ⟨v, isValue, bound⟩ := exists_of_bind_eq_ok loaded
    have describes := Value.ofDocument_eq_ok_iff.mp (eq_ok_of_mapError isValue)
    have isBound : s.bind load.name v = (.ok (), s') := by
      split at bound
      · rename_i left ofBind
        rw [ofBind, Except.ok.inj bound]
      · cases bound
    exact ⟨text, document, v, eq_ok_of_mapError isText, isDocument, describes.labels_eq,
      describes.holdsExactly_kept (Json.distinct_of_read? isDocument), isBound⟩
  · cases loaded

end MatrixCalculator
