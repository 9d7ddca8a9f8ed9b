import MatrixCalculator.Json.Reading
import Mathlib.Data.List.Nodup

/-!
# Documents without repeated keys

The keys of every object in a document that was read are distinct, at whatever depth the object
stands (`Json.distinct_of_read?`): a key that comes again takes the place of the first
(`Json.nodup_setMember`). The three readers of a document call each other with one step less, so
that what they return is described for all of them at once (`Json.distinct_of_steps`).
-/

set_option autoImplicit false

namespace MatrixCalculator.Json

/-- Whether no object has a key twice, the document itself and all objects inside it. -/
inductive Distinct : Json → Prop
  | null : Distinct .null
  | bool (b : Bool) : Distinct (.bool b)
  | int (n : Int) : Distinct (.int n)
  | float (x : Float) : Distinct (.float x)
  | string (s : String) : Distinct (.string s)
  | array {items : List Json} (distinct : ∀ item ∈ items, item.Distinct) : Distinct (.array items)
  | object {members : List (String × Json)} (keys : (members.map Prod.fst).Nodup)
      (distinct : ∀ member ∈ members, member.2.Distinct) : Distinct (.object members)

theorem Distinct.items {items : List Json} (distinct : (Json.array items).Distinct) :
    ∀ item ∈ items, item.Distinct := by
  cases distinct with
  | array distinct => exact distinct

theorem Distinct.keys {members : List (String × Json)} (distinct : (Json.object members).Distinct) :
    (members.map Prod.fst).Nodup := by
  cases distinct with
  | object keys _ => exact keys

theorem Distinct.values {members : List (String × Json)}
    (distinct : (Json.object members).Distinct) : ∀ member ∈ members, member.2.Distinct := by
  cases distinct with
  | object _ distinct => exact distinct

theorem distinct_array_nil : (array []).Distinct :=
  .array fun _ none ↦ absurd none List.not_mem_nil

theorem Distinct.cons {item : Json} {items : List Json} (first : item.Distinct)
    (rest : (Json.array items).Distinct) : (Json.array (item :: items)).Distinct :=
  .array (List.forall_mem_cons.mpr ⟨first, rest.items⟩)

theorem distinct_object_nil : (object []).Distinct :=
  .object List.nodup_nil fun _ none ↦ absurd none List.not_mem_nil

/-! ### Setting a member -/

section Members

variable {members : List (String × Json)} {key : String} {value : Json}

theorem mem_of_mem_setMember {member : String × Json}
    (isMember : member ∈ setMember key value members) :
    member = (key, value) ∨ member ∈ members := by
  induction members with
  | nil => exact Or.inl (List.mem_singleton.mp isMember)
  | cons other members ih =>
    unfold setMember at isMember
    split_ifs at isMember with found
    · exact (List.mem_cons.mp isMember).imp_right (List.mem_cons_of_mem _)
    · rcases List.mem_cons.mp isMember with rfl | behind
      · exact Or.inr List.mem_cons_self
      · exact (ih behind).imp_right (List.mem_cons_of_mem _)

theorem nodup_setMember (keys : (members.map Prod.fst).Nodup) :
    ((setMember key value members).map Prod.fst).Nodup := by
  induction members with
  | nil => exact List.nodup_singleton key
  | cons other members ih =>
    obtain ⟨isNew, keys⟩ := List.nodup_cons.mp keys
    unfold setMember
    split_ifs with found
    · exact List.nodup_cons.mpr ⟨found ▸ isNew, keys⟩
    · refine List.nodup_cons.mpr ⟨fun again ↦ ?_, ih keys⟩
      obtain ⟨member, isMember, same⟩ := List.mem_map.mp again
      rcases mem_of_mem_setMember isMember with rfl | isMember
      · exact found same.symm
      · exact isNew (List.mem_map.mpr ⟨member, isMember, same⟩)

/-- A member is set to a document without repeated keys. -/
theorem Distinct.set (distinct : (Json.object members).Distinct) (key : String)
    (distinctValue : value.Distinct) : (Json.object (setMember key value members)).Distinct := by
  refine .object (nodup_setMember distinct.keys) fun member isMember ↦ ?_
  rcases mem_of_mem_setMember isMember with rfl | isMember
  · exact distinctValue
  · exact distinct.values member isMember

end Members

/-! ### Reading -/

section Reading

variable {text rest : List Char} {document : Json}

theorem distinct_of_readNumber? {negative : Bool}
    (read : readNumber? negative text = some (document, rest)) : document.Distinct := by
  unfold readNumber? at read
  dsimp only at read
  split at read
  · cases read
  -- The exponent and the value are read alike behind a fraction, a missing one and a broken one.
  split at read
  on_goal 1 => split at read
  all_goals
    obtain ⟨parts, -, read⟩ := Option.bind_eq_some_iff.mp read
    obtain ⟨exponent, -, read⟩ := Option.bind_eq_some_iff.mp read
    split at read
    · cases read
      exact .int _
    · split at read
      · cases read
        exact .int _
      · obtain ⟨x, -, isFloat⟩ := Option.bind_eq_some_iff.mp read
        cases isFloat
        exact .float _

theorem distinct_of_readWord? {word : List Char} {value : Json} (distinct : value.Distinct)
    (read : readWord? word value text = some (document, rest)) : document.Distinct := by
  unfold readWord? at read
  split_ifs at read
  cases read
  exact distinct

/-- The readers return documents without repeated keys when they take at most so many steps. -/
structure ReadsDistinct (steps : Nat) : Prop where
  value : ∀ {depth text document rest}, readValue? steps depth text = some (document, rest) →
    document.Distinct
  items : ∀ {depth done text document rest}, (array done).Distinct →
    readItems? steps depth done text = some (document, rest) → document.Distinct
  members : ∀ {depth done text document rest}, (object done).Distinct →
    readMembers? steps depth done text = some (document, rest) → document.Distinct

namespace ReadsDistinct

variable {steps depth : Nat} (reads : ReadsDistinct steps)
include reads

theorem value_succ (read : readValue? (steps + 1) depth text = some (document, rest)) :
    document.Distinct := by
  unfold readValue? at read
  split at read
  · obtain ⟨quoted, -, isString⟩ := Option.map_eq_some_iff.mp read
    cases isString
    exact .string _
  · split at read
    · cases read
    · split at read
      · cases read
        exact distinct_array_nil
      · exact reads.items distinct_array_nil read
  · split at read
    · cases read
    · split at read
      · cases read
        exact distinct_object_nil
      · exact reads.members distinct_object_nil read
  · exact distinct_of_readNumber? read
  · exact distinct_of_readWord? .null read
  · exact distinct_of_readWord? (.bool true) read
  · exact distinct_of_readWord? (.bool false) read
  · exact distinct_of_readNumber? read

theorem items_succ {done : List Json} (distinct : (array done).Distinct)
    (read : readItems? (steps + 1) depth done text = some (document, rest)) :
    document.Distinct := by
  unfold readItems? at read
  obtain ⟨⟨item, behind⟩, isItem, read⟩ := Option.bind_eq_some_iff.mp read
  have more : (array (item :: done)).Distinct := .cons (reads.value isItem) distinct
  dsimp only at read
  split at read
  · exact reads.items more read
  · cases read
    exact .array fun item isItem ↦ more.items item (List.mem_reverse.mp isItem)
  · cases read

theorem members_succ {done : List (String × Json)} (distinct : (object done).Distinct)
    (read : readMembers? (steps + 1) depth done text = some (document, rest)) :
    document.Distinct := by
  unfold readMembers? at read
  obtain ⟨⟨key, behindKey⟩, -, read⟩ := Option.bind_eq_some_iff.mp read
  dsimp only at read
  split at read
  · obtain ⟨⟨value, behind⟩, isValue, read⟩ := Option.bind_eq_some_iff.mp read
    have more := distinct.set key (reads.value isValue)
    dsimp only at read
    split at read
    · exact reads.members more read
    · cases read
      exact more
    · cases read
  · cases read

end ReadsDistinct

/-- The readers call each other with one step less. -/
theorem readsDistinct (steps : Nat) : ReadsDistinct steps := by
  induction steps with
  | zero =>
    exact ⟨fun read ↦ by simp [readValue?] at read, fun _ read ↦ by simp [readItems?] at read,
      fun _ read ↦ by simp [readMembers?] at read⟩
  | succ steps reads => exact ⟨reads.value_succ, reads.items_succ, reads.members_succ⟩

/-- A document that was read has no key twice in any object. -/
theorem distinct_of_read? {text : String} (read : read? text = some document) :
    document.Distinct := by
  unfold read? at read
  obtain ⟨⟨value, behind⟩, isValue, read⟩ := Option.bind_eq_some_iff.mp read
  dsimp only at read
  split_ifs at read
  cases read
  exact (readsDistinct _).value isValue

end Reading

end MatrixCalculator.Json
