import ProcCheck.Tree
import ProcCheck.SyntaxError

/-!
# Reading from a list of tokens

A reader takes tokens from the front of a list that holds no end token, or refuses. A refusal
keeps the tokens that were left when it was raised, so the token that it is about is the first
of them, or the end of the input if none is left.

Loops count down from a bound on the number of tokens left. Each round takes at least one, so
a loop that reaches zero has nothing left to read and gives the answer for no tokens.
-/

namespace ProcCheck.Grammar

/-- An unmet expectation, and the tokens from the offending one on. -/
structure Refusal where
  expected : Expectation
  rest : List Token
  deriving DecidableEq, Repr

/-- A reader of a list of tokens. -/
abbrev Parse := StateT (List Token) (Except Refusal)

/-- Refuses whatever stands next. -/
def refuse {α : Type} (expected : Expectation) : Parse α := fun ts => .error ⟨expected, ts⟩

/-- Whether the next token is of a kind that `p` accepts. -/
def nextIs (p : TokenKind → Bool) : Parse Bool := fun ts =>
  .ok (ts.head?.any (p ·.kind), ts)

/-- Takes the next token if `f` has a value for its kind. -/
def take? {β : Type} (f : TokenKind → Option β) : Parse (Option (β × Token)) := fun ts =>
  match ts with
  | [] => .ok (none, [])
  | t :: rest =>
    match f t.kind with
    | some b => .ok (some (b, t), rest)
    | none => .ok (none, t :: rest)

/-- Takes the next token if it is of the kind `kind`, and tells whether it did. -/
def skip (kind : TokenKind) : Parse Bool := do
  let taken ← take? fun k => if k = kind then some () else none
  return taken.isSome

/-- Takes the next token, which must be of a kind that `p` accepts. -/
def expectWhere (p : TokenKind → Bool) (expected : Expectation) : Parse Token := fun ts =>
  match ts with
  | [] => .error ⟨expected, []⟩
  | t :: rest => if p t.kind then .ok (t, rest) else .error ⟨expected, t :: rest⟩

/-- Takes the next token, which must be of the kind `kind`. -/
def expect (kind : TokenKind) (expected : Expectation) : Parse Token :=
  expectWhere (· = kind) expected

/-- Reads with `p` unless the next token is of the kind `stop`. -/
def unlessNext {α : Type} (stop : TokenKind) (p : Parse α) : Parse (Option α) := do
  if ← nextIs (· = stop) then return none else return some (← p)

/-- One or more items with commas between them: the first, then each comma with the item
behind it. -/
def commaList {α : Type} (item : Parse α) : Nat → Parse (α × List (Token × α))
  | 0 => return (← item, [])
  | bound + 1 => do
    let first ← item
    match ← take? fun k => if k = .comma then some () else none with
    | none => return (first, [])
    | some (_, comma) =>
      let (second, more) ← commaList item bound
      return (first, (comma, second) :: more)

/-- Items up to the end of the input or a token that `stop` accepts. Semicolons between them
are empty statements and leave nothing behind. -/
def sequence {α : Type} (item : Parse α) (stop : TokenKind → Bool) : Nat → Parse (List α)
  | 0 => return []
  | bound + 1 => do
    if ← nextIs stop then return []
    else if ← skip .semicolon then sequence item stop bound
    else if ← nextIs fun _ => true then
      let first ← item
      return first :: (← sequence item stop bound)
    else return []

end ProcCheck.Grammar
