import MatrixCalculator.Token

/-!
# Postfix order

Tokens are reordered so that every operator and every function follows its operands. Operators and
functions wait on a stack until an operator that binds less tightly, a separator or a closing
parenthesis lets them through. `Reordering` is the state of that process and `Reordering.step` takes
in one token.

Two more stacks go along to count the arguments of calls: `argCounts` has a counter for every open
call, and `valueSeen` has a flag for the argument being read in each of them, below which lies a
flag for the expression as a whole.
-/

set_option autoImplicit false

namespace MatrixCalculator

/-- Why tokens have no postfix order. -/
inductive ParseError where
  | unmatchedRightBrace
  | unmatchedLeftBrace
  /-- A separator outside the parentheses of a call. -/
  | misplacedSeparator
  deriving DecidableEq, Repr

/-- The message for tokens without a postfix order. -/
def ParseError.message : ParseError → String
  | .unmatchedRightBrace => "Parenthesis mismatch: ')' without a matching '('"
  | .unmatchedLeftBrace => "Parenthesis mismatch: '(' is never closed"
  | .misplacedSeparator => "Argument separator ',' used outside of a function call"

/-- The tokens let through so far, the last one first, and the stacks, their tops first. -/
structure Reordering where
  emitted : List Token
  waiting : List Token
  valueSeen : List Bool
  argCounts : List Nat

namespace Reordering

/-- Nothing read. -/
def start : Reordering :=
  ⟨[], [], [false], []⟩

/-- Notes that the argument being read has a value. -/
def markValue (s : Reordering) : Reordering :=
  { s with valueSeen := s.valueSeen.modifyHead fun _ ↦ true }

/-- Whether a token is not an opening parenthesis. -/
def notLeftBrace (t : Token) : Bool :=
  t.kind != .leftBrace

/-- Lets everything through that waits above the last opening parenthesis, or all there is without
one. -/
def flush (s : Reordering) : Reordering :=
  { s with
    emitted := (s.waiting.takeWhile notLeftBrace).reverse ++ s.emitted
    waiting := s.waiting.dropWhile notLeftBrace }

/-- Ends an argument. The last opening parenthesis must be that of a call. -/
def separator (s : Reordering) : Except ParseError Reordering :=
  let s := s.flush
  match s.waiting, s.argCounts with
  | _ :: opener :: _, count :: counts =>
    if opener.kind = .function then
      let hadValue := s.valueSeen.head?.getD false
      .ok { s with
        argCounts := (if hadValue then count + 1 else count) :: counts
        valueSeen := false :: s.valueSeen.tail }
    else
      .error .misplacedSeparator
  | _, _ => .error .misplacedSeparator

/-- Whether a waiting token binds at least as tightly as an operator that comes in, so that it goes
first. -/
def goesFirst (incoming waiting : Token) : Bool :=
  waiting.kind == .operator &&
    ((incoming.associativity == .left && incoming.priority == waiting.priority) ||
      incoming.priority < waiting.priority)

/-- Takes in an operator, after letting those through that go first. -/
def operator (s : Reordering) (t : Token) : Reordering :=
  { s with
    emitted := (s.waiting.takeWhile (goesFirst t)).reverse ++ s.emitted
    waiting := t :: s.waiting.dropWhile (goesFirst t) }

/-- Lets a function through with its number of arguments. -/
def finishCall (s : Reordering) (f : Token) (count : Nat) : Reordering :=
  { s with
    emitted := { f with argCount := count } :: s.emitted
    argCounts := s.argCounts.tail
    valueSeen := s.valueSeen.tail }

/-- Closes a parenthesis, and the call that it belongs to if there is one. -/
def rightBrace (s : Reordering) : Except ParseError Reordering :=
  let s := s.flush
  match s.waiting with
  | [] => .error .unmatchedRightBrace
  | [_] => .ok { s with waiting := [] }
  | _ :: opener :: waiting =>
    if opener.kind = .function then
      let count := s.argCounts.head?.getD 0
      let hadValue := s.valueSeen.head?.getD false
      .ok ({ s with waiting := waiting }.finishCall opener (if hadValue then count + 1 else count))
    else
      .ok { s with waiting := opener :: waiting }

/-- Takes in one token. A call counts as a value of the argument it stands in. -/
def step (s : Reordering) (t : Token) : Except ParseError Reordering :=
  match t.kind with
  | .number | .matrixRef | .docsQuery | .null | .string | .void | .output | .errorMarker =>
    .ok { s.markValue with emitted := t :: s.emitted }
  | .function =>
    let s := s.markValue
    .ok { s with
      waiting := t :: s.waiting
      argCounts := 0 :: s.argCounts
      valueSeen := false :: s.valueSeen }
  | .argSeparator => s.separator
  | .operator => .ok (s.operator t)
  | .leftBrace => .ok { s with waiting := t :: s.waiting }
  | .rightBrace => s.rightBrace

/-- Lets all that waits through at the end of the expression. A function that still waits has no
parentheses; it takes the arguments counted so far. -/
def drain (s : Reordering) : List Token → Except ParseError (List Token)
  | [] => .ok s.emitted.reverse
  | t :: waiting =>
    match t.kind with
    | .leftBrace | .rightBrace => .error .unmatchedLeftBrace
    | .function => (s.finishCall t (s.argCounts.head?.getD 0)).drain waiting
    | _ => { s with emitted := t :: s.emitted }.drain waiting

/-- Takes in tokens from left to right. -/
def run (s : Reordering) (tokens : List Token) : Except ParseError Reordering :=
  tokens.foldlM step s

end Reordering

/-- The tokens in postfix order, each function with its number of arguments. -/
def toPostfix (tokens : List Token) : Except ParseError (List Token) := do
  let s ← Reordering.start.run tokens
  s.drain s.waiting

end MatrixCalculator
