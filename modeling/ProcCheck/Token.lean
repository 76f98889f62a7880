import ProcCheck.Source.Position

/-!
# Tokens

A token is a kind, its spelling and its place. The kinds that have one spelling only are
listed with it: `TokenKind.keywords` holds the reserved words and `TokenKind.fixed` the
operators and punctuation, the longer before its own beginning.
-/

namespace ProcCheck

/-- The types that a declaration can name. -/
inductive ValueType where
  | int
  | float
  | double
  | string
  | void
  deriving DecidableEq, Repr, Inhabited

/-- The operators between two operands. -/
inductive BinaryOp where
  | or
  | and
  | equal
  | notEqual
  | less
  | lessEqual
  | greater
  | greaterEqual
  | add
  | sub
  | mul
  | div
  | mod
  deriving DecidableEq, Repr

namespace BinaryOp

/-- How tightly an operator binds; a greater level binds tighter. -/
def level : BinaryOp → Nat
  | or => 0
  | and => 1
  | equal | notEqual => 2
  | less | lessEqual | greater | greaterEqual => 3
  | add | sub => 4
  | mul | div | mod => 5

/-- How an operator is written. -/
def spelling : BinaryOp → Text
  | or => "||"
  | and => "&&"
  | equal => "=="
  | notEqual => "!="
  | less => "<"
  | lessEqual => "<="
  | greater => ">"
  | greaterEqual => ">="
  | add => "+"
  | sub => "-"
  | mul => "*"
  | div => "/"
  | mod => "%"

end BinaryOp

/-- What a token is. -/
inductive TokenKind where
  | ifWord
  | elseWord
  | whileWord
  | forWord
  | returnWord
  | mainWord
  | typeWord (type : ValueType)
  | identifier
  | assign
  | openBrace
  | closeBrace
  | openParen
  | closeParen
  | comma
  | semicolon
  | operator (op : BinaryOp)
  | bang
  | stringLiteral
  | intLiteral
  | floatLiteral
  | endOfInput
  deriving DecidableEq, Repr

namespace TokenKind

/-- The reserved words. -/
def keywords : List (Text × TokenKind) :=
  [("if", ifWord), ("else", elseWord), ("while", whileWord), ("for", forWord),
   ("return", returnWord), ("main", mainWord), ("int", typeWord .int),
   ("float", typeWord .float), ("double", typeWord .double), ("string", typeWord .string),
   ("void", typeWord .void)]

/-- The kind of a whole word: a reserved word or an identifier. -/
def ofWord (word : Text) : TokenKind := (keywords.lookup word).getD identifier

/-- The operators and the punctuation. Where one spelling begins another the longer one
comes first, so that the first match is the longest. -/
def fixed : List (Text × TokenKind) :=
  [("==", operator .equal), ("!=", operator .notEqual), ("<=", operator .lessEqual),
   (">=", operator .greaterEqual), ("&&", operator .and), ("||", operator .or),
   ("=", assign), ("<", operator .less), (">", operator .greater), ("!", bang),
   ("\x7b", openBrace), ("\x7d", closeBrace), ("(", openParen), (")", closeParen),
   (",", comma), (";", semicolon), ("+", operator .add), ("-", operator .sub),
   ("*", operator .mul), ("/", operator .div), ("%", operator .mod)]

/-- Whether the kind is a type keyword. -/
def isType : TokenKind → Bool
  | typeWord _ => true
  | _ => false

/-- Whether a function can be called by a token of this kind. -/
def isCallable : TokenKind → Bool
  | identifier | mainWord => true
  | _ => false

end TokenKind

/-- A kind, the spelling in the source and the place of its first unit. A string literal
is spelt with its quotes. -/
structure Token where
  kind : TokenKind
  spelling : Text
  pos : Position
  deriving DecidableEq, Repr

namespace Token

/-- The place behind the last unit of a token. -/
def stop (t : Token) : Position := ⟨t.pos.line, t.pos.col + t.spelling.length⟩

/-- From the first unit of a token to its last. -/
def span (t : Token) : Span := ⟨t.pos, t.stop⟩

/-- The token as a stretch of source. -/
def excerpt (t : Token) : Excerpt := ⟨t.spelling, t.span⟩

/-- Whether a token ends the input. -/
def isEnd (t : Token) : Bool := t.kind = .endOfInput

end Token

end ProcCheck
