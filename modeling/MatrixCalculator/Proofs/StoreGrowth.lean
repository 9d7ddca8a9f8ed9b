import MatrixCalculator.Proofs.AssignedNames
import MatrixCalculator.Proofs.StoreCapacity

/-!
# What compiling does to a store

The store that is left when a text has been compiled comes from the one before by insertions none of
which was refused (`grows_compile`). This holds of every text, also of one that fails halfway, and
so no name that was bound is ever unbound. An insertion takes an equals sign, and nothing but an
equals sign of the text is read as one: without any the store is left as it is (`compile_keeps`).
-/

set_option autoImplicit false

namespace MatrixCalculator

open Evaluation

/-! ### Stores that grow -/

namespace Store

/-- Whether a store comes from another by insertions, none of them refused. -/
inductive Grows (s : Store) : Store → Prop
  | refl : Grows s s
  | insert {t u : Store} {name : String} {value : Value} (grows : Grows s t)
    (bound : t.insert name value = .ok u) : Grows s u

variable {s t u : Store}

theorem Grows.trans (first : s.Grows t) (second : t.Grows u) : s.Grows u := by
  induction second with
  | refl => exact first
  | insert _ bound ih => exact .insert ih bound

/-- An insertion adds its own name to those that are bound. -/
theorem contains_of_insert {name : String} {value : Value} (bound : s.insert name value = .ok t)
    (key : String) : t.contains key = (key == name || s.contains key) := by
  rw [contains, get?_insert bound, contains]
  by_cases same : key = name
  · simp [same]
  · simp [same, beq_eq_false_iff_ne.mpr same]

/-- What is bound stays bound. -/
theorem Grows.contains (grows : s.Grows t) {name : String} (isBound : s.contains name = true) :
    t.contains name = true := by
  induction grows with
  | refl => exact isBound
  | insert _ bound ih => rw [contains_of_insert bound, ih, Bool.or_true]

end Store

/-! ### Computations that insert -/

namespace Evaluation

variable {α β : Type}

/-- Whether a computation does nothing to any store but insert, also where it fails. -/
def Inserts (e : Evaluation α) : Prop :=
  ∀ store : Store, store.Grows (e.runOn store).2

theorem OnlyReads.inserts {e : Evaluation α} (reads : OnlyReads e) : Inserts e := by
  intro store
  rw [reads store]
  exact .refl

theorem Inserts.bind {e : Evaluation α} {f : α → Evaluation β} (first : Inserts e)
    (rest : ∀ a, Inserts (f a)) : Inserts (e >>= f) := by
  intro store
  have grows := first store
  rcases ran : e.runOn store with ⟨error | a, left⟩ <;> rw [ran] at grows
  · rw [runOn_bind_of_error ran]
    exact grows
  · rw [runOn_bind_of_ok ran]
    exact grows.trans (rest a left)

end Evaluation

theorem inserts_bindName (name : String) (value : Value) : Inserts (bindName name value) := by
  intro store
  rw [runOn_bindName]
  rcases bound : store.insert name value with error | left
  · exact .refl
  · exact .insert .refl bound

theorem inserts_assign (left right : Token) : Inserts (assign left right) := by
  unfold assign
  split
  · exact (onlyReads_throw _).inserts
  · exact (onlyReads_reading _).inserts.bind fun value ↦
      (inserts_bindName left.name value).bind fun _ ↦ (onlyReads_pure _).inserts

/-- Of all operators only the equals sign inserts. -/
theorem inserts_applyOperator (t : Token) (operands : List Token) :
    Inserts (applyOperator t operands) := by
  by_cases isAssign : t.operator = some .assign
  · unfold applyOperator
    rw [isAssign]
    rcases operands.reverse with _ | ⟨right, _ | ⟨left, rest⟩⟩
    · exact (onlyReads_throw _).inserts
    · exact (onlyReads_applyUnary .assign right).inserts
    · exact inserts_assign left right
  · exact (onlyReads_applyOperator isAssign operands).inserts

variable (registry : Registry)

theorem inserts_evaluateToken (stack : List Token) (t : Token) :
    Inserts (evaluateToken registry stack t) := by
  unfold evaluateToken
  split
  · exact (onlyReads_ofExcept _).inserts.bind fun taken ↦
      (inserts_applyOperator t taken.1).bind fun _ ↦ (onlyReads_pure _).inserts
  · have called (args : List Token) :
        OnlyReads (reading fun store ↦ callFunction registry store t args) := onlyReads_reading _
    exact (onlyReads_taken called).inserts
  · exact (onlyReads_pure _).inserts

theorem inserts_evaluateTokens (stack tokens : List Token) :
    Inserts (evaluateTokens registry stack tokens) := by
  induction tokens generalizing stack with
  | nil => exact (onlyReads_pure _).inserts
  | cons t rest ih => exact (inserts_evaluateToken registry stack t).bind ih

theorem inserts_evaluateExpression (text : List Char) :
    Inserts (evaluateExpression registry text) := by
  refine (onlyReads_reading _).inserts.bind fun out ↦ ?_
  unfold evaluate
  split_ifs
  · exact (onlyReads_throw _).inserts
  · exact (inserts_evaluateTokens registry [] out).bind fun stack ↦
      (onlyReads_reading _).inserts

theorem inserts_assignMany (names : List String) (result : Token) :
    Inserts (assignMany names result) := by
  have all (bindings : List (String × Value)) :
      Inserts (bindings.forM fun binding ↦ bindName binding.1 binding.2) := by
    induction bindings with
    | nil => exact (onlyReads_pure ()).inserts
    | cons binding rest ih => exact (inserts_bindName binding.1 binding.2).bind fun _ ↦ ih
  unfold assignMany
  split
  · split_ifs
    · exact (onlyReads_throw _).inserts
    · exact (all _).bind fun _ ↦ (onlyReads_pure _).inserts
  · exact (onlyReads_throw _).inserts

/-- Compiling a text does nothing to the store but insert, whether the text has a value or not. -/
theorem grows_compile (text : String) (store : Store) :
    store.Grows (compile registry text store).2 := by
  rw [compile_eq]
  split_ifs
  · exact .refl
  · split
    · exact .refl
    · exact inserts_evaluateExpression registry text.toList store
    · exact (inserts_evaluateExpression registry _).bind (inserts_assignMany _) store

/-! ### Texts without an equals sign -/

/-- The tokens of a text without an equals sign assign nothing. -/
theorem noAssignment_of_postfixOf {registry : Registry} {store : Store} {text : List Char}
    (noEquals : '=' ∉ text) {out : List Token} (ordered : postfixOf registry store text = .ok out) :
    ∀ t ∈ out, t.kind = .operator → t.operator ≠ some .assign := by
  obtain ⟨tokens, read, isPostfix⟩ := exists_of_postfixOf ordered
  refine forall_mem_toPostfix (P := fun t ↦ t.kind = .operator → t.operator ≠ some .assign)
    (fun _ _ noAssignment ↦ noAssignment) (fun t isMem isOperator ↦ ?_) isPostfix
  have lexical := Token.lexical_of_mem_readAll_of_not_mem noEquals read t isMem
  exact (noAssignment_of_lexical lexical isOperator).1

theorem onlyReads_evaluateExpression {text : List Char} (noEquals : '=' ∉ text) :
    OnlyReads (evaluateExpression registry text) := by
  intro store
  rw [runOn_evaluateExpression]
  rcases ordered : postfixOf registry store text with error | out
  · rfl
  · rcases out with _ | ⟨t, rest⟩
    · rfl
    · change ((evaluate registry (t :: rest)).runOn store).2 = store
      rw [store_of_runOn_evaluate (List.cons_ne_nil t rest)]
      exact onlyReads_evaluateTokens (noAssignment_of_postfixOf noEquals ordered) [] store

/-- A text without an equals sign leaves the store as it is, whatever it comes to, and no text
unbinds a name. -/
theorem compile_keeps (text : String) (store : Store) :
    ('=' ∉ text.toList → (compile registry text store).2 = store) ∧
      ∀ name, store.contains name = true →
        (compile registry text store).2.contains name = true := by
  refine ⟨fun noEquals ↦ ?_, fun name ↦ (grows_compile registry text store).contains⟩
  rw [compile_eq, multiAssignment?_of_not_mem noEquals]
  split_ifs
  · rfl
  · exact onlyReads_evaluateExpression registry noEquals store

/-- A text in which a parenthesis is not closed leaves the store alone. One that fails behind its
equals sign has bound a name by then, and keeps the others. -/
theorem compile_keeps_where_it_fails :
    let store : Store := ⟨{}, [("A", .matrix (.scalar 1)), ("B", .matrix (.scalar 2))], by decide⟩
    ('=' ∉ "!Shape(A + B".toList ∧ (compile .builtin "!Shape(A + B" store).2 = store) ∧
      store.contains "A" = true ∧ (compile .builtin "A = C 5" store).2.contains "C" = true ∧
        (compile .builtin "A = C 5" store).2.contains "A" = true := by
  intro store
  have noEquals : '=' ∉ "!Shape(A + B".toList := by decide
  have isBound : store.contains "A" = true := by decide
  exact ⟨⟨noEquals, (compile_keeps .builtin _ store).1 noEquals⟩, isBound, by decide +kernel,
    (compile_keeps .builtin _ store).2 "A" isBound⟩

end MatrixCalculator
