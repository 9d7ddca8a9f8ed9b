import MatrixCalculator.Proofs.CompileRuns
import MatrixCalculator.Proofs.MentionedNames
import MatrixCalculator.Proofs.ReorderingSteps
import MatrixCalculator.Proofs.TokenNames

/-!
# Locality

Compiling a text looks at the names that the text mentions and at nothing else in the store, but
for the limits and for how many matrices and tables there are, and it leaves all other names alone
(`compile_local`). The computations with this property, for a set of names, are closed under
everything that evaluation is made of (`Evaluation.Local`); a token is looked up or bound by the
name that it carries, and it carries a name of the text (`Token.NamedIn`).
-/

set_option autoImplicit false

namespace MatrixCalculator

open Evaluation

namespace Store

/-! ### Stores that look alike -/

/-- Whether two stores cannot be told apart by what is bound to some names, by their limits, or by
how many matrices and tables they hold. -/
structure Alike (names : String → Prop) (s t : Store) : Prop where
  limits : s.limits = t.limits
  tables : s.tableCount = t.tableCount
  matrices : s.matrixCount = t.matrixCount
  agree : ∀ name, names name → s.get? name = t.get? name

theorem replaceIn_of_not_mem {name : String} {entries : List (String × Value)}
    (absent : name ∉ entries.map Prod.fst) (value : Value) :
    replaceIn name value entries = entries := by
  have kept : entries.map (fun entry ↦ if entry.1 = name then (name, value) else entry) =
      entries.map id := by
    refine List.map_congr_left fun entry isEntry ↦ if_neg ?_
    rintro rfl
    exact absent (List.mem_map_of_mem isEntry)
  rw [replaceIn, kept, List.map_id]

/-- A replacement takes the old value of the name out of the count and the new one in. -/
theorem countP_replaceIn {entries : List (String × Value)}
    (distinct : (entries.map Prod.fst).Nodup) {name : String} {old : Value}
    (found : entries.lookup name = some old) (value : Value) (p : String × Value → Bool) :
    (replaceIn name value entries).countP p + (if p (name, old) then 1 else 0) =
      entries.countP p + if p (name, value) then 1 else 0 := by
  induction entries with
  | nil => cases found
  | cons entry rest ih =>
    obtain ⟨bound, first⟩ := entry
    rw [List.map_cons, List.nodup_cons] at distinct
    by_cases same : name = bound
    · subst same
      rw [List.lookup_cons, beq_self_eq_true] at found
      obtain rfl := Option.some.inj found
      have replaced : replaceIn name value ((name, first) :: rest) = (name, value) :: rest := by
        rw [replaceIn, List.map_cons, if_pos rfl]
        exact congrArg _ (replaceIn_of_not_mem distinct.1 value)
      rw [replaced, List.countP_cons, List.countP_cons]
      omega
    · have other : (name == bound) = false := by simpa using same
      rw [List.lookup_cons, other] at found
      have counted := ih distinct.2 found
      have replaced : replaceIn name value ((bound, first) :: rest) =
          (bound, first) :: replaceIn name value rest := by
        rw [replaceIn, List.map_cons, if_neg (Ne.symm same)]
        rfl
      rw [replaced, List.countP_cons, List.countP_cons]
      omega

section Changes

variable {names : String → Prop} {s t : Store} {name : String}

theorem Alike.contains_eq (alike : Alike names s t) (isNamed : names name) :
    s.contains name = t.contains name := by
  rw [contains, contains, alike.agree name isNamed]

theorem Alike.obstacle?_eq (alike : Alike names s t) (name : String) (value : Value) :
    s.obstacle? name value = t.obstacle? name value := by
  rw [obstacle?, obstacle?, alike.limits, alike.tables, alike.matrices]

theorem insert_of_contains (bound : s.contains name = true) (value : Value) :
    s.insert name value = .ok (s.replace name value) := by
  rw [insert, dif_neg (by simp [bound])]

theorem insert_of_obstacle (unbound : s.contains name = false) {value : Value} {error : StoreError}
    (obstacle : s.obstacle? name value = some error) : s.insert name value = .error error := by
  rw [insert, dif_pos unbound, obstacle]

theorem insert_of_free (unbound : s.contains name = false) {value : Value}
    (free : s.obstacle? name value = none) :
    ∃ t, s.insert name value = .ok t ∧ t.limits = s.limits ∧
      t.entries = s.entries ++ [(name, value)] := by
  rw [insert, dif_pos unbound, free]
  exact ⟨_, rfl, rfl, rfl⟩

/-- Alike stores take a new binding or refuse it alike. -/
theorem Alike.insert (alike : Alike names s t) (isNamed : names name) (value : Value) :
    (∃ error, s.insert name value = .error error ∧ t.insert name value = .error error) ∨
      ∃ s' t', s.insert name value = .ok s' ∧ t.insert name value = .ok t' ∧ Alike names s' t' := by
  have agree {s' t' : Store} (left : s.insert name value = .ok s')
      (right : t.insert name value = .ok t') (key : String) (isKey : names key) :
      s'.get? key = t'.get? key := by
    rw [get?_insert left, get?_insert right, alike.agree key isKey]
  have sameBound := alike.contains_eq isNamed
  cases bound : s.contains name with
  | true =>
    have left := insert_of_contains bound value
    have right := insert_of_contains (sameBound ▸ bound) value
    obtain ⟨old, isOld⟩ := Option.isSome_iff_exists.mp bound
    have isOldToo : t.get? name = some old := alike.agree name isNamed ▸ isOld
    have counted (p : String × Value → Bool) (same : s.entries.countP p = t.entries.countP p) :
        (replaceIn name value s.entries).countP p = (replaceIn name value t.entries).countP p := by
      have ofLeft := countP_replaceIn s.distinct isOld value p
      have ofRight := countP_replaceIn t.distinct isOldToo value p
      omega
    exact Or.inr ⟨_, _, left, right, alike.limits, counted _ alike.tables,
      counted _ alike.matrices, agree left right⟩
  | false =>
    have unboundToo : t.contains name = false := sameBound ▸ bound
    have sameObstacle := alike.obstacle?_eq name value
    rcases obstacle : s.obstacle? name value with _ | error
    · obtain ⟨s', left, leftLimits, leftEntries⟩ := insert_of_free bound obstacle
      obtain ⟨t', right, rightLimits, rightEntries⟩ :=
        insert_of_free unboundToo (sameObstacle ▸ obstacle)
      refine Or.inr ⟨s', t', left, right, ?_, ?_, ?_, agree left right⟩
      · rw [leftLimits, rightLimits, alike.limits]
      · rw [tableCount, tableCount, leftEntries, rightEntries, List.countP_append,
          List.countP_append]
        exact congrArg (· + _) alike.tables
      · rw [matrixCount, matrixCount, leftEntries, rightEntries, List.countP_append,
          List.countP_append]
        exact congrArg (· + _) alike.matrices
    · exact Or.inl ⟨error, insert_of_obstacle bound obstacle,
        insert_of_obstacle unboundToo (sameObstacle ▸ obstacle)⟩

end Changes

end Store

/-! ### What computations look at -/

namespace Evaluation

variable {α β : Type} {names : String → Prop}

/-- Whether a computation looks at nothing in the store but some names, and leaves all others
alone. -/
structure Local (names : String → Prop) (e : Evaluation α) : Prop where
  alike : ∀ s t : Store, s.Alike names t →
    (e.runOn s).1 = (e.runOn t).1 ∧ (e.runOn s).2.Alike names (e.runOn t).2
  kept : ∀ (s : Store) (name : String), ¬names name → (e.runOn s).2.get? name = s.get? name

theorem local_ofExcept (result : Except EvalError α) :
    Local names (ofExcept result : Evaluation α) := by
  refine ⟨fun s t alike ↦ ?_, fun s name _ ↦ ?_⟩
  · rw [runOn_ofExcept, runOn_ofExcept]
    exact ⟨rfl, alike⟩
  · rw [runOn_ofExcept]

theorem local_pure (a : α) : Local names (pure a) :=
  local_ofExcept (.ok a)

theorem local_throw (error : EvalError) : Local names (throw error : Evaluation α) :=
  local_ofExcept (.error error)

theorem local_reading {f : Store → Except EvalError α}
    (same : ∀ s t : Store, s.Alike names t → f s = f t) : Local names (reading f) := by
  refine ⟨fun s t alike ↦ ?_, fun s name _ ↦ ?_⟩
  · rw [runOn_reading, runOn_reading]
    exact ⟨same s t alike, alike⟩
  · rw [runOn_reading]

/-- What follows a computation has to be local for the results that the computation can have. -/
theorem Local.bind {P : α → Prop} {e : Evaluation α} {f : α → Evaluation β}
    (first : Local names e) (yields : Yields P e) (rest : ∀ a, P a → Local names (f a)) :
    Local names (e >>= f) := by
  refine ⟨fun s t alike ↦ ?_, fun s name other ↦ ?_⟩
  · obtain ⟨sameResult, stillAlike⟩ := first.alike s t alike
    rcases ranLeft : e.runOn s with ⟨error | a, left⟩ <;>
      rcases ranRight : e.runOn t with ⟨error' | b, right⟩ <;>
      rw [ranLeft, ranRight] at sameResult stillAlike <;> cases sameResult
    · rw [runOn_bind_of_error ranLeft, runOn_bind_of_error ranRight]
      exact ⟨rfl, stillAlike⟩
    · rw [runOn_bind_of_ok ranLeft, runOn_bind_of_ok ranRight]
      exact (rest a (yields s a left ranLeft)).alike left right stillAlike
  · have kept := first.kept s name other
    rcases ran : e.runOn s with ⟨error | a, left⟩ <;> rw [ran] at kept
    · rw [runOn_bind_of_error ran]
      exact kept
    · rw [runOn_bind_of_ok ran, (rest a (yields s a left ran)).kept left name other]
      exact kept

theorem yields_true (e : Evaluation α) : Yields (fun _ ↦ True) e :=
  fun _ _ _ _ ↦ trivial

end Evaluation

variable {names : String → Prop}

/-- Binding one of the names is local. -/
theorem local_bindName {name : String} (isNamed : names name) (value : Value) :
    Local names (bindName name value) := by
  refine ⟨fun s t alike ↦ ?_, fun s key other ↦ ?_⟩
  · rw [runOn_bindName, runOn_bindName]
    rcases alike.insert isNamed value with ⟨error, left, right⟩ | ⟨s', t', left, right, stillAlike⟩
    · rw [left, right]
      exact ⟨rfl, alike⟩
    · rw [left, right]
      exact ⟨rfl, stillAlike⟩
  · rw [runOn_bindName]
    rcases bound : s.insert name value with error | t
    · rfl
    · have notKey : key ≠ name := by
        rintro rfl
        exact other isNamed
      change t.get? key = s.get? key
      rw [Store.get?_insert bound, if_neg notKey]

/-! ### Looking tokens up -/

section Tokens

variable {s t : Store} {x : Token}

theorem resolve_congr (alike : s.Alike names t) (named : x.name = "" ∨ names x.name) :
    x.resolve s = x.resolve t := by
  rcases named with noName | isNamed
  · simp [Token.resolve, noName]
  · simp [Token.resolve, alike.agree _ isNamed]

theorem numeric?_congr (alike : s.Alike names t) (named : x.NamedIn names) :
    x.numeric? s = x.numeric? t := by
  unfold Token.numeric?
  split
  · rfl
  · rename_i isMatrix
    rw [resolve_congr alike (named isMatrix)]
  · rfl

theorem operand_congr (alike : s.Alike names t) (named : x.NamedIn names) (symbol : String) :
    operand s symbol x = operand t symbol x := by
  unfold operand
  split
  · rfl
  · rfl
  · rfl
  · rfl
  · rename_i isMatrix _
    rw [resolve_congr alike (named isMatrix)]
  · rfl

theorem assignedValue_congr (alike : s.Alike names t) (named : x.NamedIn names) :
    assignedValue s x = assignedValue t x := by
  unfold assignedValue
  split
  · rfl
  · rfl
  · rename_i isMatrix _
    rw [resolve_congr alike (named isMatrix)]
  · rfl
  · rfl

theorem lookUp_congr (alike : s.Alike names t) (named : x.NamedIn names) :
    lookUp s x = lookUp t x := by
  unfold lookUp
  split_ifs with isBare
  · rw [resolve_congr alike (named isBare.1)]
  · rfl

theorem stackResult_congr (alike : s.Alike names t) {stack : List Token}
    (named : ∀ x ∈ stack, x.NamedIn names) : stackResult s stack = stackResult t stack := by
  unfold stackResult
  split
  · rfl
  · exact lookUp_congr alike (named _ (List.mem_singleton_self _))
  · rfl

theorem coerce_congr (alike : s.Alike names t) (named : x.NamedIn names) (type : ParameterType) :
    coerce s x type = coerce t x type := by
  cases type with
  | int => rw [coerce, coerce, numeric?_congr alike named]
  | float => rw [coerce, coerce, numeric?_congr alike named]
  | matrix =>
    rw [coerce, coerce]
    split_ifs with isMatrix
    · rw [resolve_congr alike (named isMatrix.1)]
    · rfl
  | dynamic =>
    dsimp only [coerce]
    split
    · rfl
    · rfl
    · rfl
    · rfl
    · rename_i isMatrix _
      rw [resolve_congr alike (named isMatrix)]
    · rfl

theorem bindOne_congr (alike : s.Alike names t) (d : Descriptor) (slots : Call.Slots)
    {argument : Token × Nat} (named : argument.1.NamedIn names) :
    Call.bindOne s d slots argument = Call.bindOne t d slots argument := by
  unfold Call.bindOne
  simp only [coerce_congr alike named]

theorem bindArguments_congr (alike : s.Alike names t) (d : Descriptor) {args : List Token}
    (named : ∀ x ∈ args, x.NamedIn names) :
    bindArguments s d args = bindArguments t d args := by
  have folded (slots : Call.Slots) (rest : List (Token × Nat))
      (ofRest : ∀ argument ∈ rest, argument.1.NamedIn names) :
      rest.foldlM (Call.bindOne s d) slots = rest.foldlM (Call.bindOne t d) slots := by
    induction rest generalizing slots with
    | nil => rfl
    | cons argument rest ih =>
      rw [List.forall_mem_cons] at ofRest
      rw [List.foldlM_cons, List.foldlM_cons, bindOne_congr alike d slots ofRest.1]
      exact congrArg _ (funext fun slots ↦ ih slots ofRest.2)
  rw [bindArguments, bindArguments, folded _ _ fun argument isMem ↦
    named _ (List.fst_mem_of_mem_zipIdx isMem)]

/-- A call looks at its arguments and at the limits. -/
theorem callFunction_congr (alike : s.Alike names t) (registry : Registry) (f : Token)
    {args : List Token} (named : ∀ x ∈ args, x.NamedIn names) :
    callFunction registry s f args = callFunction registry t f args := by
  unfold callFunction
  simp only [bindArguments_congr alike _ named, alike.limits]

end Tokens

/-! ### Evaluation is local -/

section Evaluation

variable {left right t : Token}

theorem local_assign (leftNamed : left.NamedIn names) (rightNamed : right.NamedIn names) :
    Local names (assign left right) := by
  unfold assign
  split
  · exact local_throw _
  · rename_i form
    rw [not_or, Decidable.not_not] at form
    have isNamed : names left.name :=
      (leftNamed form.1).resolve_left (by simpa [String.isEmpty_iff] using form.2)
    refine Local.bind (local_reading fun s t alike ↦ assignedValue_congr alike rightNamed)
      (yields_true _) fun value _ ↦ ?_
    exact (local_bindName isNamed value).bind (yields_true _) fun _ _ ↦ local_pure _

theorem local_applyUnary (op : Operator) (named : t.NamedIn names) :
    Local names (applyUnary op t) := by
  unfold applyUnary
  split
  · exact local_reading fun s t alike ↦ by rw [operand_congr alike named]
  · exact local_reading fun s t alike ↦ by rw [operand_congr alike named]
  · exact local_throw _

theorem local_applyBinary (op : Operator) (leftNamed : left.NamedIn names)
    (rightNamed : right.NamedIn names) : Local names (applyBinary op left right) := by
  unfold applyBinary
  split
  · exact local_assign leftNamed rightNamed
  · exact local_ofExcept _
  · exact local_reading fun s t alike ↦ by
      rw [operand_congr alike leftNamed, operand_congr alike rightNamed]

theorem local_applyOperator (t : Token) {operands : List Token}
    (named : ∀ x ∈ operands, x.NamedIn names) : Local names (applyOperator t operands) := by
  have all : ∀ x ∈ operands.reverse, x.NamedIn names := by simpa using named
  unfold applyOperator
  split
  · exact local_throw _
  · exact local_throw _
  · rename_i op x _ reversed
    rw [reversed] at all
    exact local_applyUnary op (all x List.mem_cons_self)
  · rename_i op right left rest _ reversed
    rw [reversed] at all
    exact local_applyBinary op (all left (by simp)) (all right (by simp))

/-- Taking operands off the stack is local if what is done with them is. -/
theorem local_taken {stack : List Token} {count : Nat} {what : String}
    {apply : List Token → Evaluation Token} (named : ∀ x ∈ stack, x.NamedIn names)
    (applied : ∀ operands, (∀ x ∈ operands, x.NamedIn names) → Local names (apply operands)) :
    Local names (do
      let (operands, below) ← (ofExcept (takeOperands stack count what) : Evaluation _)
      return (← apply operands) :: below) := by
  refine Local.bind (P := fun taken ↦ ∀ x ∈ taken.1, x.NamedIn names) (local_ofExcept _)
    (yields_ofExcept fun taken isTaken ↦ (forall_mem_takeOperands named isTaken).1)
    fun ⟨operands, below⟩ ofOperands ↦ ?_
  exact (applied operands ofOperands).bind (yields_true _) fun _ _ ↦ local_pure _

theorem local_evaluateToken (registry : Registry) {stack : List Token}
    (named : ∀ x ∈ stack, x.NamedIn names) : Local names (evaluateToken registry stack t) := by
  unfold evaluateToken
  split
  · exact local_taken named fun operands ↦ local_applyOperator t
  · have called (args : List Token) (ofArgs : ∀ x ∈ args, x.NamedIn names) :
        Local names (reading fun store ↦ callFunction registry store t args) :=
      local_reading fun s t alike ↦ callFunction_congr alike registry _ ofArgs
    exact local_taken named called
  · exact local_pure _

theorem local_evaluateTokens (registry : Registry) {stack tokens : List Token}
    (named : ∀ x ∈ stack, x.NamedIn names) (ofTokens : ∀ t ∈ tokens, t.NamedIn names) :
    Local names (evaluateTokens registry stack tokens) := by
  induction tokens generalizing stack with
  | nil => exact local_pure _
  | cons t rest ih =>
    rw [List.forall_mem_cons] at ofTokens
    exact (local_evaluateToken registry named).bind
      (namedIn_evaluateToken registry named ofTokens.1) fun stack after ↦ ih after ofTokens.2

theorem local_evaluate (registry : Registry) {tokens : List Token}
    (ofTokens : ∀ t ∈ tokens, t.NamedIn names) : Local names (evaluate registry tokens) := by
  have none : ∀ x ∈ ([] : List Token), x.NamedIn names := List.forall_mem_nil _
  unfold evaluate
  split_ifs
  · exact local_throw _
  · exact (local_evaluateTokens registry none ofTokens).bind
      (namedIn_evaluateTokens registry none ofTokens) fun stack named ↦
        local_reading fun s t alike ↦ stackResult_congr alike named

/-- Binding several of the names is local. -/
theorem local_assignMany {bound : List String} (areNamed : ∀ name ∈ bound, names name)
    (result : Token) : Local names (assignMany bound result) := by
  have bindAll (values : List Value) :
      Local names ((bound.zip values).forM fun entry ↦ bindName entry.1 entry.2) := by
    induction bound generalizing values with
    | nil => exact local_pure _
    | cons name rest ih =>
      rw [List.forall_mem_cons] at areNamed
      cases values with
      | nil => exact local_pure _
      | cons value values =>
        exact (local_bindName areNamed.1 value).bind (yields_true _) fun _ _ ↦
          ih areNamed.2 values
  unfold assignMany
  split
  · split_ifs
    · exact local_throw _
    · exact (bindAll _).bind (yields_true _) fun _ _ ↦ local_pure _
  · exact local_throw _

/-- Evaluating an expression is local for what it mentions. -/
theorem local_evaluateExpression (registry : Registry) {text : List Char}
    (wider : ∀ name, Mentions text name → names name) :
    Local names (evaluateExpression registry text) := by
  unfold evaluateExpression
  refine Local.bind (local_reading fun s t alike ↦ ?_)
    (yields_reading fun store out ordered ↦ ?_) fun out ofOut ↦ local_evaluate registry ofOut
  · have agree : ∀ name, Mentions text name → s.get? name = t.get? name :=
      fun name mentions ↦ alike.agree name (wider name mentions)
    rw [postfixOf, postfixOf, Token.readAll_congr agree]
  · obtain ⟨tokens, read, isPostfix⟩ := exists_of_postfixOf ordered
    have ofTokens : ∀ t ∈ tokens, t.NamedIn names := by
      intro t isMem
      rcases Token.lexical_of_mem_readAll read t isMem with lexical | rfl
      · exact namedIn_of_lexical (lexical.mono wider)
      · exact namedIn_of_kind TokenKind.noConfusion
    exact forall_mem_toPostfix (fun _ _ named ↦ named) ofTokens isPostfix

/-- Compiling a text is local for what it mentions. -/
theorem local_compileText (registry : Registry) (text : List Char) :
    Local (Mentions text) (compileText registry text) := by
  unfold compileText
  split_ifs
  · exact local_throw _
  · refine Local.bind (P := fun parts ↦ multiAssignment? text = .ok parts) (local_ofExcept _)
      (yields_ofExcept fun parts several ↦ several) fun parts several ↦ ?_
    rcases parts with _ | ⟨bound, right⟩
    · exact local_evaluateExpression registry fun _ mentions ↦ mentions
    · obtain ⟨boundMentioned, rightMentioned⟩ := mentions_of_multiAssignment? several
      refine (local_evaluateExpression registry rightMentioned).bind (yields_true _)
        fun result _ ↦ local_assignMany ?_ result
      simpa using boundMentioned

end Evaluation

/-- On stores that the names in a text cannot tell apart, compiling the text comes to the same and
leaves such stores behind. All other names keep what they were bound to. -/
theorem compile_local (registry : Registry) (text : String) {s t : Store}
    (alike : s.Alike (Mentions text.toList) t) :
    (compile registry text s).1 = (compile registry text t).1 ∧
      (compile registry text s).2.Alike (Mentions text.toList) (compile registry text t).2 ∧
      ∀ name, ¬Mentions text.toList name →
        (compile registry text s).2.get? name = s.get? name ∧
          (compile registry text t).2.get? name = t.get? name := by
  have isLocal := local_compileText registry text.toList
  obtain ⟨same, stillAlike⟩ := isLocal.alike s t alike
  exact ⟨same, stillAlike, fun name other ↦ ⟨isLocal.kept s name other, isLocal.kept t name other⟩⟩

/-- Stores with one more matrix each, under names that are not in the text. -/
theorem compile_beside_other_names :
    let text := "X = A"
    let s : Store := ⟨{}, [("A", .matrix (.scalar 1)), ("B", .matrix (.scalar 2))], by decide⟩
    let t : Store := ⟨{}, [("C", .matrix (.scalar 3)), ("A", .matrix (.scalar 1))], by decide⟩
    s.Alike (Mentions text.toList) t ∧
      (compile .empty text s).1 = (compile .empty text t).1 ∧
      (compile .empty text s).2.contains "X" = true ∧
      (compile .empty text s).2.get? "B" = s.get? "B" := by
  intro text s t
  have mentioned (name : String) (mentions : Mentions text.toList name) :
      name = "X" ∨ name = "A" := by
    have front : atoms "X ".toList = ["X".toList] := by decide +kernel
    have behind : atoms " A".toList = ["A".toList] := by decide +kernel
    have sides : text.toList = "X ".toList ++ '=' :: " A".toList := by decide
    rw [sides, mentions_append_cons (by decide) (by decide), NameIn, NameIn, front,
      behind] at mentions
    rcases mentions with ⟨-, isMem⟩ | ⟨-, isMem⟩
    · exact Or.inl (String.toList_inj.mp (by simpa using isMem))
    · exact Or.inr (String.toList_inj.mp (by simpa using isMem))
  have alike : s.Alike (Mentions text.toList) t := by
    refine ⟨by rfl, by decide +kernel, by decide +kernel, fun name mentions ↦ ?_⟩
    rcases mentioned name mentions with rfl | rfl <;> simp [s, t, Store.get?, List.lookup]
  obtain ⟨same, -, kept⟩ := compile_local .empty text alike
  refine ⟨alike, same, by decide +kernel, (kept "B" fun mentions ↦ ?_).1⟩
  exact absurd (mentioned "B" mentions) (by decide)

end MatrixCalculator
