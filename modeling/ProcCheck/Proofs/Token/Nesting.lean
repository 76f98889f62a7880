import ProcCheck.Symbol

/-!
# Control structures among tokens

Where a control structure ends, what its condition is and whether it has an alternative can be told
from the tokens by counting brackets, without a tree. `Token.controls` lists the control structures
of a run of tokens that way: one for each of their words, inside of all earlier ones that have not
ended at the word.
-/

namespace ProcCheck

/-- Whether a control structure starts with a kind of token. -/
def TokenKind.isControl : TokenKind → Bool
  | ifWord | whileWord | forWord => true
  | _ => false

/-! ## Brackets -/

section Brackets

variable {opening closing : TokenKind}

/-- How many kinds there are up to the one that closes a bracket, that one included, while `inner`
more are open inside of it. -/
def closeAfter (opening closing : TokenKind) : Nat → List TokenKind → Nat
  | _, [] => 0
  | inner, kind :: rest =>
    if kind = opening then closeAfter opening closing (inner + 1) rest + 1
    else if kind = closing then
      match inner with
      | 0 => 1
      | inner + 1 => closeAfter opening closing inner rest + 1
    else closeAfter opening closing inner rest + 1

theorem closeAfter_opening (inner : Nat) (rest : List TokenKind) :
    closeAfter opening closing inner (opening :: rest) =
      closeAfter opening closing (inner + 1) rest + 1 := by
  cases inner <;> simp [closeAfter]

theorem closeAfter_closing (different : closing ≠ opening) (rest : List TokenKind) :
    closeAfter opening closing 0 (closing :: rest) = 1 := by
  simp [closeAfter, different]

theorem closeAfter_closing_succ (different : closing ≠ opening) (inner : Nat)
    (rest : List TokenKind) : closeAfter opening closing (inner + 1) (closing :: rest) =
      closeAfter opening closing inner rest + 1 := by
  simp [closeAfter, different]

theorem closeAfter_other {kind : TokenKind} (noOpening : kind ≠ opening) (noClosing : kind ≠ closing)
    (inner : Nat) (rest : List TokenKind) : closeAfter opening closing inner (kind :: rest) =
      closeAfter opening closing inner rest + 1 := by
  cases inner <;> simp [closeAfter, noOpening, noClosing]

/-- Every bracket in a list of kinds is closed in it, and none is closed that is opened before. -/
def Closed (opening closing : TokenKind) (kinds : List TokenKind) : Prop :=
  ∀ inner more, closeAfter opening closing inner (kinds ++ more) =
    kinds.length + closeAfter opening closing inner more

namespace Closed

variable {kinds others : List TokenKind}

theorem nil : Closed opening closing [] := fun inner more => by simp

theorem append (first : Closed opening closing kinds) (second : Closed opening closing others) :
    Closed opening closing (kinds ++ others) := by
  intro inner more
  rw [List.append_assoc, first, second, List.length_append, Nat.add_assoc]

/-- Kinds that are no brackets leave all brackets as they are. -/
theorem of_none (none : ∀ kind ∈ kinds, kind ≠ opening ∧ kind ≠ closing) :
    Closed opening closing kinds := by
  induction kinds with
  | nil => exact nil
  | cons kind kinds ih =>
    obtain ⟨⟨noOpening, noClosing⟩, others⟩ := List.forall_mem_cons.1 none
    intro inner more
    rw [List.cons_append, closeAfter_other noOpening noClosing, ih others, List.length_cons]
    omega

/-- A bracket ends behind what is closed inside of it. -/
theorem closeAfter_append (inside : Closed opening closing kinds) (different : closing ≠ opening)
    (more : List TokenKind) :
    closeAfter opening closing 0 (kinds ++ closing :: more) = kinds.length + 1 := by
  rw [inside, closeAfter_closing different]

/-- A bracket around what is closed is closed. -/
theorem bracket (inside : Closed opening closing kinds) (different : closing ≠ opening) :
    Closed opening closing (opening :: (kinds ++ [closing])) := by
  intro inner more
  have whole : opening :: (kinds ++ [closing]) ++ more = opening :: (kinds ++ closing :: more) := by
    simp
  rw [whole, closeAfter_opening, inside, closeAfter_closing_succ different]
  simp only [List.length_cons, List.length_append, List.length_nil]
  omega

end Closed

end Brackets

/-! ## Extents -/

namespace Token

/-- How long the bracket is that a list of tokens starts with. -/
def bracketLength (opening closing : TokenKind) (ts : List Token) : Nat :=
  closeAfter opening closing 0 ((ts.drop 1).map (·.kind)) + 1

/-- The tokens of the clauses behind the word of a control structure, in their parentheses. -/
def clauses (rest : List Token) : List Token :=
  rest.take (bracketLength .openParen .closeParen rest)

/-- What is behind the clauses: the first block and what follows it. -/
def behindClauses (rest : List Token) : List Token :=
  rest.drop (bracketLength .openParen .closeParen rest)

/-- What is behind the first block. -/
def behindBlock (rest : List Token) : List Token :=
  (behindClauses rest).drop (bracketLength .openBrace .closeBrace (behindClauses rest))

/-- Whether an alternative follows the first block. -/
def hasAlternative (word : Token) (rest : List Token) : Bool :=
  word.kind = .ifWord && (behindBlock rest).head?.any (·.kind = .elseWord)

/-- How many tokens a control structure has that starts with `word` and goes on in `rest`, up to
the end of its last block. -/
def controlLength (word : Token) (rest : List Token) : Nat :=
  let first := 1 + bracketLength .openParen .closeParen rest +
    bracketLength .openBrace .closeBrace (behindClauses rest)
  if hasAlternative word rest then
    first + 1 + bracketLength .openBrace .closeBrace ((behindBlock rest).drop 1)
  else first

/-- The tokens of the condition of a control structure: of the three clauses of a counting loop it
is the second, and otherwise there is one clause only. -/
def conditionTokens (word : Token) (rest : List Token) : List Token :=
  let inside := ((clauses rest).drop 1).dropLast
  if word.kind = .forWord then
    ((inside.dropWhile (·.kind ≠ .semicolon)).drop 1).takeWhile (·.kind ≠ .semicolon)
  else inside

/-- The kind of a control structure. -/
def controlKind (word : Token) (rest : List Token) : ControlKind :=
  if word.kind = .whileWord then .whileLoop
  else if word.kind = .forWord then .forLoop
  else if hasAlternative word rest then .branchElse
  else .branch

/-- The control structure that starts with `word` and goes on in `rest`. -/
def controlAt (depth : Nat) (word : Token) (rest : List Token) : ControlStructure where
  kind := controlKind word rest
  startLine := word.pos.line
  endLine := (((word :: rest).take (controlLength word rest)).getLastD word).pos.line
  condition := (conditionTokens word rest).flatMap (·.spelling)
  depth

/-- The control structures of some tokens from a place on; `ends` are the places behind those that
start before it. -/
def controlsFrom (ends : List Nat) (place : Nat) : List Token → List ControlStructure
  | [] => []
  | t :: rest =>
    if t.kind.isControl then
      controlAt (ends.countP (place < ·)) t rest ::
        controlsFrom ((place + controlLength t rest) :: ends) (place + 1) rest
    else controlsFrom ends (place + 1) rest

/-- The control structures of some tokens: one for each word that starts one, in their order. Its
depth is the number of those that start before the word and end behind it. -/
def controls (ts : List Token) : List ControlStructure := controlsFrom [] 0 ts

/-! ## Shapes -/

/-- A bracket is as long as what is inside of it, and two more. -/
theorem bracketLength_eq {opening closing : TokenKind} {first last : Token}
    {inside more : List Token} (closed : Closed opening closing (inside.map (·.kind)))
    (different : closing ≠ opening) (closes : last.kind = closing) :
    bracketLength opening closing (first :: (inside ++ last :: more)) = inside.length + 2 := by
  rw [bracketLength, List.drop_one, List.tail_cons, List.map_append, List.map_cons, closes,
    closed.closeAfter_append different, List.length_map]

/-- Tokens that close all their brackets and start no control structure. -/
structure Inert (used : List Token) : Prop where
  parens : Closed .openParen .closeParen (used.map (·.kind))
  braces : Closed .openBrace .closeBrace (used.map (·.kind))
  others : ∀ t ∈ used, t.kind.isControl = false

namespace Inert

variable {used used' : List Token}

theorem nil : Inert [] := ⟨.nil, .nil, by simp⟩

theorem append (first : Inert used) (second : Inert used') : Inert (used ++ used') := by
  refine ⟨?_, ?_, List.forall_mem_append.2 ⟨first.others, second.others⟩⟩
  · rw [List.map_append]
    exact first.parens.append second.parens
  · rw [List.map_append]
    exact first.braces.append second.braces

theorem semicolon {t : Token} (isSemicolon : t.kind = .semicolon) : Inert [t] where
  parens := .of_none (by simp [isSemicolon])
  braces := .of_none (by simp [isSemicolon])
  others := by simp [isSemicolon, TokenKind.isControl]

end Inert

end Token

/-- What is behind the word of a control structure: clauses in parentheses and a block in braces. -/
structure ControlShape where
  paren : Token
  inside : List Token
  closing : Token
  brace : Token
  statements : List Token
  close : Token
  isParen : paren.kind = .openParen
  inert : Token.Inert inside
  isClosing : closing.kind = .closeParen
  isBrace : brace.kind = .openBrace
  isClose : close.kind = .closeBrace
  statementsClosed : Closed .openBrace .closeBrace (statements.map (·.kind))

namespace ControlShape

variable (shape : ControlShape) (word : Token) (more : List Token)

/-- The tokens of a shape up to the end of its statements. -/
def front : List Token :=
  shape.paren :: (shape.inside ++ shape.closing :: shape.brace :: shape.statements)

/-- The tokens of a shape and those behind it. -/
def tokens : List Token := shape.front ++ shape.close :: more

theorem tokens_append (first second : List Token) :
    shape.tokens (first ++ second) = shape.tokens first ++ second := by
  simp [tokens]

theorem clauses_append : shape.tokens more = shape.paren :: (shape.inside ++ shape.closing ::
    (shape.brace :: (shape.statements ++ shape.close :: more))) := by
  simp [tokens, front]

theorem parens : Token.bracketLength .openParen .closeParen (shape.tokens more) =
    shape.inside.length + 2 := by
  rw [clauses_append]
  exact Token.bracketLength_eq shape.inert.parens (by simp) shape.isClosing

theorem behindClauses_eq : Token.behindClauses (shape.tokens more) =
    shape.brace :: (shape.statements ++ shape.close :: more) := by
  rw [Token.behindClauses, parens, clauses_append]
  simp

theorem braces : Token.bracketLength .openBrace .closeBrace
    (shape.brace :: (shape.statements ++ shape.close :: more)) = shape.statements.length + 2 :=
  Token.bracketLength_eq shape.statementsClosed (by simp) shape.isClose

theorem behindBlock_eq : Token.behindBlock (shape.tokens more) = more := by
  rw [Token.behindBlock, behindClauses_eq, braces]
  simp

theorem hasAlternative_eq : Token.hasAlternative word (shape.tokens more) =
    (word.kind = .ifWord && more.head?.any (·.kind = .elseWord)) := by
  rw [Token.hasAlternative, behindBlock_eq]

/-- The clauses are between the parentheses. -/
theorem clauses_eq : ((Token.clauses (shape.tokens more)).drop 1).dropLast = shape.inside := by
  have split : shape.tokens more = (shape.paren :: (shape.inside ++ [shape.closing])) ++
      shape.brace :: (shape.statements ++ shape.close :: more) := by
    rw [clauses_append]
    simp
  have taken : Token.clauses (shape.tokens more) =
      shape.paren :: (shape.inside ++ [shape.closing]) := by
    rw [Token.clauses, parens, split]
    exact List.take_left' (by simp)
  rw [taken, List.drop_one, List.tail_cons, List.dropLast_concat]

theorem conditionTokens_eq (noFor : word.kind ≠ .forWord) :
    Token.conditionTokens word (shape.tokens more) = shape.inside := by
  rw [Token.conditionTokens, if_neg noFor, clauses_eq]

/-- The condition of a counting loop is between its two semicolons. -/
theorem conditionTokens_for {init test update : List Token} {first second : Token}
    (isFor : word.kind = .forWord)
    (split : shape.inside = init ++ first :: (test ++ second :: update))
    (initOther : ∀ t ∈ init, t.kind ≠ .semicolon) (isFirst : first.kind = .semicolon)
    (testOther : ∀ t ∈ test, t.kind ≠ .semicolon) (isSecond : second.kind = .semicolon) :
    Token.conditionTokens word (shape.tokens more) = test := by
  have behind : (init ++ first :: (test ++ second :: update)).dropWhile (·.kind ≠ .semicolon) =
      first :: (test ++ second :: update) := by
    rw [List.dropWhile_append_of_pos (by simpa using initOther),
      List.dropWhile_cons_of_neg (by simp [isFirst])]
  have taken : (test ++ second :: update).takeWhile (·.kind ≠ .semicolon) = test := by
    rw [List.takeWhile_append_of_pos (by simpa using testOther),
      List.takeWhile_cons_of_neg (by simp [isSecond]), List.append_nil]
  rw [Token.conditionTokens, if_pos isFor, clauses_eq, split, behind, List.drop_one,
    List.tail_cons, taken]

/-- Without an alternative a control structure ends with its block. -/
theorem controlLength_eq (none : Token.hasAlternative word (shape.tokens more) = false) :
    Token.controlLength word (shape.tokens more) = shape.front.length + 2 := by
  simp only [Token.controlLength, none, parens, behindClauses_eq, braces, front]
  simp only [Bool.false_eq_true, if_false, List.length_cons, List.length_append]
  omega

/-- With an alternative it ends with the block of that one. -/
theorem controlLength_alternative {other brace close : Token} {statements : List Token}
    (isIf : word.kind = .ifWord) (isElse : other.kind = .elseWord)
    (closed : Closed .openBrace .closeBrace (statements.map (·.kind)))
    (isClose : close.kind = .closeBrace) :
    Token.controlLength word (shape.tokens (other :: brace :: (statements ++ close :: more))) =
      (shape.tokens (other :: brace :: statements)).length + 2 := by
  have alternative : Token.hasAlternative word
      (shape.tokens (other :: brace :: (statements ++ close :: more))) = true := by
    rw [hasAlternative_eq]
    simp [isIf, isElse]
  have block : Token.bracketLength .openBrace .closeBrace
      (brace :: (statements ++ close :: more)) = statements.length + 2 :=
    Token.bracketLength_eq closed (by simp) isClose
  simp only [Token.controlLength, alternative, parens, behindClauses_eq, behindBlock_eq, braces,
    List.drop_one, List.tail_cons, block, if_true]
  simp only [clauses_append, List.length_cons, List.length_append]
  omega

/-- All braces of a shape are closed. -/
theorem closedBraces : Closed .openBrace .closeBrace ((shape.tokens []).map (·.kind)) := by
  have single (kind : TokenKind) (noOpening : kind ≠ .openBrace) (noClosing : kind ≠ .closeBrace) :
      Closed .openBrace .closeBrace [kind] := .of_none (by simp [noOpening, noClosing])
  have block := shape.statementsClosed.bracket (by simp)
  have clauses := (single .openParen (by simp) (by simp)).append
    (shape.inert.braces.append (single .closeParen (by simp) (by simp)))
  have whole := clauses.append block
  simpa [clauses_append, shape.isParen, shape.isClosing, shape.isBrace, shape.isClose] using whole

/-- All braces of a shape and of an alternative behind it are closed. -/
theorem closedBraces_alternative {other brace close : Token} {statements : List Token}
    (isElse : other.kind = .elseWord) (isBrace : brace.kind = .openBrace)
    (closed : Closed .openBrace .closeBrace (statements.map (·.kind)))
    (isClose : close.kind = .closeBrace) : Closed .openBrace .closeBrace
      ((shape.tokens (other :: brace :: statements) ++ [close]).map (·.kind)) := by
  have word : Closed .openBrace .closeBrace [TokenKind.elseWord] := .of_none (by simp)
  have block := closed.bracket (by simp)
  have split : shape.tokens (other :: brace :: statements) ++ [close] =
      shape.tokens [] ++ (other :: brace :: (statements ++ [close])) := by
    simp [tokens]
  rw [split, List.map_append]
  refine shape.closedBraces.append ?_
  simpa [isElse, isBrace, isClose] using word.append block

end ControlShape

namespace Token

/-! ## Scanning -/

variable {ends others : List Nat} {place : Nat} {t : Token} {rest : List Token}

theorem controlsFrom_control (control : t.kind.isControl) :
    controlsFrom ends place (t :: rest) = controlAt (ends.countP (place < ·)) t rest ::
      controlsFrom ((place + controlLength t rest) :: ends) (place + 1) rest := by
  rw [controlsFrom, if_pos control]

theorem controlsFrom_other (other : t.kind.isControl = false) :
    controlsFrom ends place (t :: rest) = controlsFrom ends (place + 1) rest := by
  rw [controlsFrom, if_neg (by simp [other])]

/-- Every word of a control structure is found in its place, and nothing else is. -/
theorem controlsFrom_startLine : (controlsFrom ends place rest).map (·.startLine) =
    (rest.filter (·.kind.isControl)).map (·.pos.line) := by
  induction rest generalizing ends place with
  | nil => rfl
  | cons t rest ih =>
    by_cases control : t.kind.isControl
    · simp [controlsFrom_control control, control, ih, controlAt]
    · simp [controlsFrom, control, ih]

theorem controls_startLine : (controls rest).map (·.startLine) =
    (rest.filter (·.kind.isControl)).map (·.pos.line) :=
  controlsFrom_startLine

/-- Tokens that are no words of control structures are passed. -/
theorem controlsFrom_others {used : List Token} (others : ∀ t ∈ used, t.kind.isControl = false) :
    controlsFrom ends place (used ++ rest) = controlsFrom ends (place + used.length) rest := by
  induction used generalizing place with
  | nil => rfl
  | cons t used ih =>
    obtain ⟨here, further⟩ := List.forall_mem_cons.1 others
    rw [List.cons_append, controlsFrom_other here, ih further, List.length_cons, Nat.add_assoc,
      Nat.add_comm 1]

/-- Only how many control structures end behind a place counts. -/
theorem controlsFrom_congr (same : ∀ k, place ≤ k → ends.countP (k < ·) = others.countP (k < ·)) :
    controlsFrom ends place rest = controlsFrom others place rest := by
  induction rest generalizing ends others place with
  | nil => rfl
  | cons t rest ih =>
    have later (k : Nat) (le : place + 1 ≤ k) := same k (Nat.le_of_succ_le le)
    by_cases control : t.kind.isControl
    · rw [controlsFrom_control control, controlsFrom_control control, same place (Nat.le_refl _)]
      congr 1
      refine ih fun k le => ?_
      rw [List.countP_cons, List.countP_cons, later k le]
    · have other : t.kind.isControl = false := by simpa using control
      rw [controlsFrom_other other, controlsFrom_other other, ih later]

/-- What has ended before a place does not count at it. -/
theorem controlsFrom_ended {e : Nat} (ended : e ≤ place) :
    controlsFrom (e :: ends) place rest = controlsFrom ends place rest := by
  refine controlsFrom_congr fun k le => ?_
  rw [List.countP_cons_of_neg]
  simp only [decide_eq_true_eq]
  omega

end Token

end ProcCheck
