import MatrixCalculator.Command.Compile
import MatrixCalculator.Proofs.EvaluationRuns
import MatrixCalculator.Proofs.TokenReading

/-!
# Runs of compiling

The ways that compiling a text can go (`compile_eq`): a blank text and a malformed assignment to
several names fail at once, an assignment to several names evaluates its right side first, and any
other text is evaluated as it stands. An expression is evaluated as far as it can be read and
reordered (`runOn_evaluateExpression`), and its value is what a single token on the stack stands for
(`runOn_evaluate`).
-/

set_option autoImplicit false

namespace MatrixCalculator

open Evaluation

/-- What is evaluated is the postfix order of the tokens that are read. -/
theorem exists_of_postfixOf {registry : Registry} {store : Store} {text : List Char}
    {out : List Token} (ordered : postfixOf registry store text = .ok out) :
    ∃ tokens, Token.readAll registry store text = .ok tokens ∧ toPostfix tokens = .ok out := by
  obtain ⟨tokens, read, ordered⟩ := exists_of_bind_eq_ok ordered
  exact ⟨tokens, eq_ok_of_mapError read, eq_ok_of_mapError ordered⟩

/-- Evaluating an expression fails with the store as it was if there is no postfix order. -/
theorem runOn_evaluateExpression (registry : Registry) (text : List Char) (store : Store) :
    (evaluateExpression registry text).runOn store =
      match postfixOf registry store text with
      | .ok out => (evaluate registry out).runOn store
      | .error error => (.error error, store) := by
  rw [evaluateExpression, runOn_bind, runOn_reading]
  cases postfixOf registry store text <;> rfl

/-- What is left on the stack is looked up in the store that is left. -/
theorem runOn_evaluate (registry : Registry) {tokens : List Token} (isSome : tokens ≠ [])
    (store : Store) :
    (evaluate registry tokens).runOn store =
      match (evaluateTokens registry [] tokens).runOn store with
      | (.ok stack, left) => (stackResult left stack, left)
      | (.error error, left) => (.error error, left) := by
  have notEmpty : tokens.isEmpty = false := by simpa using isSome
  rw [evaluate, notEmpty]
  change (evaluateTokens registry [] tokens >>= fun stack ↦
    reading fun store ↦ stackResult store stack).runOn store = _
  rw [runOn_bind]
  rcases (evaluateTokens registry [] tokens).runOn store with ⟨error | stack, left⟩
  · rfl
  · exact runOn_reading _ left

/-- An expression has a value if its tokens in postfix order leave a stack that has one. -/
theorem exists_of_runOn_evaluateExpression {registry : Registry} {text : List Char}
    {store left : Store} {t : Token}
    (ran : (evaluateExpression registry text).runOn store = (.ok t, left)) :
    ∃ out stack, postfixOf registry store text = .ok out ∧
      (evaluateTokens registry [] out).runOn store = (.ok stack, left) ∧
      stackResult left stack = .ok t := by
  rw [runOn_evaluateExpression] at ran
  rcases ordered : postfixOf registry store text with error | out
  · rw [ordered] at ran
    cases ran
  · rw [ordered] at ran
    dsimp only at ran
    have isSome : out ≠ [] := by
      rintro rfl
      cases ran
    rw [runOn_evaluate registry isSome] at ran
    rcases done : (evaluateTokens registry [] out).runOn store with ⟨error | stack, after⟩
    · rw [done] at ran
      cases ran
    · rw [done] at ran
      obtain ⟨value, rfl⟩ := Prod.mk.inj ran
      exact ⟨out, stack, rfl, done, value⟩

/-- How compiling a text goes. -/
theorem compile_eq (registry : Registry) (text : String) (store : Store) :
    compile registry text store =
      if Text.isEmptyOrBlank text.toList then (.error .emptyExpression, store)
      else
        match multiAssignment? text.toList with
        | .error error => (.error error, store)
        | .ok none => (evaluateExpression registry text.toList).runOn store
        | .ok (some (names, right)) =>
          (evaluateExpression registry right >>= fun result ↦
            assignMany (names.map String.ofList) result).runOn store := by
  rw [compile, compileText]
  split_ifs
  · rfl
  · rw [runOn_bind, runOn_ofExcept]
    rcases multiAssignment? text.toList with error | none | ⟨names, right⟩ <;> rfl

end MatrixCalculator
