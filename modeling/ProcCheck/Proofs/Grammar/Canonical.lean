import ProcCheck.Grammar.Expression
import ProcCheck.Proofs.Token.Lexeme
import ProcCheck.Proofs.Tree.Induction

/-!
# Canonical trees and their printed form

A canonical tree is one that follows the grammar, with the precedence of its operators:
`Expr.rank` says how tightly an expression holds together, and a binary operator takes what is
at least as tight on its left and what is tighter on its right. Trees print to a list of slots: a
lexeme, or a boundary between statements, where empty statements may stand. A list of tokens is
spelt out of slots if it has their lexemes in order and semicolons at boundaries.
-/

namespace ProcCheck

/-- The kind of token that a prefix operator is written with. -/
def PrefixOp.kind : PrefixOp → TokenKind
  | negate => .operator .sub
  | not => .bang

/-! ## Expressions -/

namespace Expr

/-- The lexemes of an expression. -/
def lexemes : Expr → List Lexeme
  | intLiteral src _ => [⟨.intLiteral, src.text⟩]
  | floatLiteral src _ => [⟨.floatLiteral, src.text⟩]
  | stringLiteral src _ => [⟨.stringLiteral, src.text⟩]
  | identifier _ name => [.word name]
  | call _ callee args =>
    .word callee :: .fixed .openParen :: (argLexemes args ++ [.fixed .closeParen])
  | assign _ target value => .word target :: .fixed .assign :: value.lexemes
  | binary _ op left right => left.lexemes ++ .fixed (.operator op) :: right.lexemes
  | prefixed _ op operand => .fixed op.kind :: operand.lexemes
  | group _ inner => .fixed .openParen :: (inner.lexemes ++ [.fixed .closeParen])
  | foreign _ _ => []
where
  /-- The lexemes of arguments, with commas between them. -/
  argLexemes : List Expr → List Lexeme
    | [] => []
    | first :: more => lexemes first ++ moreLexemes more
  /-- The lexemes of further arguments, each behind a comma. -/
  moreLexemes : List Expr → List Lexeme
    | [] => []
    | e :: rest => .fixed .comma :: (lexemes e ++ moreLexemes rest)

theorem moreLexemes_eq (args : List Expr) :
    lexemes.moreLexemes args = args.flatMap fun e => .fixed .comma :: e.lexemes := by
  induction args with
  | nil => rfl
  | cons e rest ih => simp [lexemes.moreLexemes, ih]

/-- How tightly an expression holds together: assignments not at all, then the levels of the
binary operators, prefix operators, and what needs no operator. -/
def rank : Expr → Nat
  | assign _ _ _ => 0
  | binary _ op _ _ => op.level + 1
  | prefixed _ _ _ => 7
  | _ => 8

end Expr

/-- The spellings of lexemes, joined. -/
def Lexeme.joined (lexemes : List Lexeme) : Text := lexemes.flatMap (·.spelling)

/-- A name by which a function can be called: an identifier or the reserved name. -/
def TokenKind.spellsCallee (name : Text) : Bool :=
  identifier.spells name || mainWord.spells name

/-- An expression follows the grammar, and its texts and values are those of its lexemes. -/
inductive Expr.Canonical : Expr → Prop
  | intLiteral {src : Excerpt} (spelt : TokenKind.intLiteral.spells src.text) :
      Canonical (.intLiteral src (Text.toFloat src.text))
  | floatLiteral {src : Excerpt} (spelt : TokenKind.floatLiteral.spells src.text) :
      Canonical (.floatLiteral src (Text.toFloat src.text))
  | stringLiteral {src : Excerpt} (spelt : TokenKind.stringLiteral.spells src.text) :
      Canonical (.stringLiteral src (Grammar.unquoted src.text))
  | identifier {src : Excerpt} (spelt : TokenKind.identifier.spells src.text) :
      Canonical (.identifier src src.text)
  | call {src : Excerpt} {callee : Text} {args : List Expr}
      (name : TokenKind.spellsCallee callee) (each : ∀ a ∈ args, Canonical a)
      (text : src.text = Lexeme.joined (Expr.call src callee args).lexemes) :
      Canonical (.call src callee args)
  | assign {src : Excerpt} {target : Text} {value : Expr}
      (name : TokenKind.identifier.spells target) (canonical : Canonical value)
      (text : src.text = Lexeme.joined (Expr.assign src target value).lexemes) :
      Canonical (.assign src target value)
  | binary {src : Excerpt} {op : BinaryOp} {left right : Expr}
      (leftCanonical : Canonical left) (rightCanonical : Canonical right)
      (leftRank : op.level + 1 ≤ left.rank) (rightRank : op.level + 1 < right.rank)
      (text : src.text = Lexeme.joined (Expr.binary src op left right).lexemes) :
      Canonical (.binary src op left right)
  | prefixed {src : Excerpt} {op : PrefixOp} {operand : Expr}
      (canonical : Canonical operand) (operandRank : 7 ≤ operand.rank)
      (text : src.text = Lexeme.joined (Expr.prefixed src op operand).lexemes) :
      Canonical (.prefixed src op operand)
  | group {src : Excerpt} {inner : Expr} (canonical : Canonical inner)
      (text : src.text = Lexeme.joined (Expr.group src inner).lexemes) :
      Canonical (.group src inner)

/-! ## Slots -/

/-- A slot of a printed tree: a lexeme, or a boundary between statements. -/
inductive Slot where
  | lexeme (l : Lexeme)
  | boundary
  deriving DecidableEq, Repr

namespace Slot

/-- The lexeme in a slot. -/
def lexeme? : Slot → Option Lexeme
  | lexeme l => some l
  | boundary => none

/-- Tokens are spelt out of slots: they have the lexemes of the slots, and any number of
semicolons at each boundary. -/
inductive Spell : List Slot → List Token → Prop
  | done : Spell [] []
  | token {t : Token} {slots : List Slot} {ts : List Token} (rest : Spell slots ts) :
      Spell (.lexeme t.lexeme :: slots) (t :: ts)
  | pass {slots : List Slot} {ts : List Token} (rest : Spell slots ts) :
      Spell (.boundary :: slots) ts
  | empty {t : Token} {slots : List Slot} {ts : List Token}
      (semicolon : t.lexeme = .fixed .semicolon) (rest : Spell (.boundary :: slots) ts) :
      Spell (.boundary :: slots) (t :: ts)

/-- The slots of lexemes without boundaries. -/
def ofLexemes (lexemes : List Lexeme) : List Slot := lexemes.map .lexeme

/-- The slot of a lexeme with one spelling. -/
def fixed (kind : TokenKind) : Slot := .lexeme (.fixed kind)

/-- The slot of a whole word. -/
def word (text : Text) : Slot := .lexeme (.word text)

/-- Pieces with boundaries before, between and after them. -/
def between (pieces : List (List Slot)) : List Slot :=
  (pieces.flatMap fun piece => .boundary :: piece) ++ [.boundary]

end Slot

/-! ## Statements -/

/-- The slots of an expression. -/
def Expr.slots (e : Expr) : List Slot := Slot.ofLexemes e.lexemes

/-- The slots of a value behind the sign that introduces it. -/
def Expr.initSlots : Option Expr → List Slot
  | none => []
  | some e => .fixed .assign :: e.slots

/-- The slots of an expression that may be left out. -/
def Expr.optionSlots (e : Option Expr) : List Slot := e.elim [] slots

/-- The slots of a declaration. -/
def VarDecl.slots (decl : VarDecl) : List Slot :=
  .word decl.type :: .word decl.name :: (Expr.initSlots decl.init ++ [.fixed .semicolon])

namespace Stmt

/-- The slots of a statement. -/
def slots : Stmt → List Slot
  | var decl => decl.slots
  | block body => blockSlots body
  | branch condition thenBlock elseBlock _ =>
    .fixed .ifWord :: .fixed .openParen ::
      (condition.slots ++ .fixed .closeParen :: (blockSlots thenBlock ++ elseSlots elseBlock))
  | whileLoop condition body _ =>
    .fixed .whileWord :: .fixed .openParen ::
      (condition.slots ++ .fixed .closeParen :: blockSlots body)
  | forLoop init condition update body _ =>
    .fixed .forWord :: .fixed .openParen ::
      (initSlots init ++ (Expr.optionSlots condition ++ .fixed .semicolon ::
        (Expr.optionSlots update ++ .fixed .closeParen :: blockSlots body)))
  | expr e _ => e.slots ++ [.fixed .semicolon]
  | ret value _ => .fixed .returnWord :: (Expr.optionSlots value ++ [.fixed .semicolon])
  | foreign _ _ => []
where
  /-- The slots of a block. -/
  blockSlots : Block Stmt → List Slot
    | ⟨statements, _⟩ => .fixed .openBrace :: (allSlots statements ++ [.fixed .closeBrace])
  /-- The slots of an alternative. -/
  elseSlots : Option (Block Stmt) → List Slot
    | none => []
    | some body => .fixed .elseWord :: blockSlots body
  /-- The slots of the first clause of a loop, its semicolon among them. -/
  initSlots : Option Stmt → List Slot
    | none => [.fixed .semicolon]
    | some s => slots s
  /-- The slots of several statements, with boundaries around them. -/
  allSlots : List Stmt → List Slot
    | [] => [.boundary]
    | s :: rest => .boundary :: (slots s ++ allSlots rest)

/-- Whether a statement can be the first clause of a loop. -/
def isClause : Stmt → Bool
  | var _ | expr _ _ => true
  | _ => false

/-- Whether a statement is the declaration of a variable. -/
def isVar : Stmt → Bool
  | var _ => true
  | _ => false

end Stmt

/-- A word that spells a type. -/
def TokenKind.spellsType (word : Text) : Bool := (ofWord word).isType

/-- A declaration follows the grammar. -/
structure VarDecl.Canonical (decl : VarDecl) : Prop where
  type : TokenKind.spellsType decl.type
  name : TokenKind.identifier.spells decl.name
  init : ∀ e ∈ decl.init, e.Canonical

/-- A statement follows the grammar. -/
inductive Stmt.Canonical : Stmt → Prop
  | var {decl : VarDecl} (canonical : decl.Canonical) : Canonical (.var decl)
  | block {body : Block Stmt} (each : ∀ s ∈ body.statements, Canonical s) :
      Canonical (.block body)
  | branch {condition : Expr} {thenBlock : Block Stmt} {elseBlock : Option (Block Stmt)}
      {span : Span} (test : condition.Canonical)
      (thenEach : ∀ s ∈ thenBlock.statements, Canonical s)
      (elseEach : ∀ body ∈ elseBlock, ∀ s ∈ body.statements, Canonical s) :
      Canonical (.branch condition thenBlock elseBlock span)
  | whileLoop {condition : Expr} {body : Block Stmt} {span : Span}
      (test : condition.Canonical) (each : ∀ s ∈ body.statements, Canonical s) :
      Canonical (.whileLoop condition body span)
  | forLoop {init : Option Stmt} {condition update : Option Expr} {body : Block Stmt}
      {span : Span} (clause : ∀ s ∈ init, s.isClause) (first : ∀ s ∈ init, Canonical s)
      (test : ∀ e ∈ condition, e.Canonical) (last : ∀ e ∈ update, e.Canonical)
      (each : ∀ s ∈ body.statements, Canonical s) :
      Canonical (.forLoop init condition update body span)
  | expr {e : Expr} {span : Span} (canonical : e.Canonical) : Canonical (.expr e span)
  | ret {value : Option Expr} {span : Span} (canonical : ∀ e ∈ value, e.Canonical) :
      Canonical (.ret value span)

/-! ## Programs -/

/-- The slots of a parameter. -/
def Param.slots (param : Param) : List Slot := [.word param.type, .word param.name]

/-- The slots of parameters, with commas between them. -/
def Param.listSlots : List Param → List Slot
  | [] => []
  | first :: more => first.slots ++ more.flatMap fun param => .fixed .comma :: param.slots

/-- The slots of a function. -/
def FunctionDecl.slots (decl : FunctionDecl) : List Slot :=
  .word decl.returnType :: .word decl.name :: .fixed .openParen ::
    (Param.listSlots decl.params ++ .fixed .closeParen :: (Stmt.block decl.body).slots)

/-- The slots of a top-level node. -/
def TopLevel.slots : TopLevel → List Slot
  | global decl => decl.slots
  | function decl => decl.slots
  | statement s => s.slots

/-- The slots of a program, with boundaries around its nodes. -/
def Program.slots (p : Program) : List Slot := Slot.between (p.declarations.map TopLevel.slots)

/-- The printed form of a program. -/
def Program.lexemes (p : Program) : List Lexeme := p.slots.filterMap Slot.lexeme?

/-- A parameter follows the grammar. -/
structure Param.Canonical (param : Param) : Prop where
  type : TokenKind.spellsType param.type
  name : TokenKind.identifier.spells param.name

/-- A function follows the grammar: it has either a name or the reserved name, and its list of
parameters is absent or not empty. -/
structure FunctionDecl.Canonical (decl : FunctionDecl) : Prop where
  returnType : TokenKind.spellsType decl.returnType
  name : (∃ name, TokenKind.identifier.spells name ∧ decl.name? = some name ∧
      decl.entryName? = none) ∨
    decl.name? = none ∧ decl.entryName? = some "main"
  params : ∀ params ∈ decl.params?, params ≠ [] ∧ ∀ param ∈ params, param.Canonical
  body : ∀ s ∈ decl.body.statements, s.Canonical

/-- A top-level node follows the grammar: a variable that is declared there is a global one. -/
inductive TopLevel.Canonical : TopLevel → Prop
  | global {decl : VarDecl} (canonical : decl.Canonical) : Canonical (.global decl)
  | function {decl : FunctionDecl} (canonical : decl.Canonical) : Canonical (.function decl)
  | statement {s : Stmt} (other : s.isVar = false) (canonical : s.Canonical) :
      Canonical (.statement s)

/-- A program follows the grammar. -/
def Program.Canonical (p : Program) : Prop := ∀ node ∈ p.declarations, node.Canonical

end ProcCheck
