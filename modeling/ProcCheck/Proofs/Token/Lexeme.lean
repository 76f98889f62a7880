import ProcCheck.Analysis.Literal
import ProcCheck.Token.Lexer

/-!
# Lexical classes

A lexeme is a token without its place. Every kind of token has a class of spellings: reserved
words, operators and punctuation have one each, identifiers are the words that are not reserved,
and literals are the texts of their form. `TokenKind.spells` decides the class.
-/

namespace ProcCheck

namespace Text

/-- A word: a letter or an underscore, then letters, digits and underscores. -/
def isWord : Text → Bool
  | [] => false
  | u :: rest => u.isWordStart && rest.all (·.isWordUnit)

/-- Digits, a point and digits. -/
def isPointed (t : Text) : Bool :=
  let whole := t.takeWhile (·.isDigit)
  let rest := t.drop whole.length
  Text.isWhole whole && Text.startsWith rest '.' && Text.isWhole (rest.drop 1)

/-- Two quotes with a text between them that holds neither a quote nor a line feed. -/
def isQuoted : Text → Bool
  | [] => false
  | u :: rest =>
    u == .quote && rest.getLast? == some .quote &&
      rest.dropLast.all fun (v : CodeUnit) => v ≠ .quote && v ≠ .lineFeed

/-- A quoted text is a text on one line without quotes between two quotes. -/
theorem isQuoted_cases {t : Text} (quoted : t.isQuoted) :
    ∃ body : Text, t = .quote :: (body ++ [.quote]) ∧ CodeUnit.quote ∉ body ∧
      CodeUnit.lineFeed ∉ body := by
  cases t with
  | nil => cases quoted
  | cons u rest =>
    simp only [isQuoted, Bool.and_eq_true, beq_iff_eq] at quoted
    obtain ⟨⟨rfl, closed⟩, inside⟩ := quoted
    obtain ⟨body, rfl⟩ := List.getLast?_eq_some_iff.1 closed
    rw [List.dropLast_concat, List.all_eq_true] at inside
    refine ⟨body, rfl, fun member => ?_, fun member => ?_⟩ <;> simpa using inside _ member

theorem wordUnits_of_isWord {t : Text} (word : t.isWord) : ∀ u ∈ t, CodeUnit.isWordUnit u := by
  cases t with
  | nil => simp
  | cons u rest =>
    simp only [isWord, Bool.and_eq_true, List.all_eq_true] at word
    refine List.forall_mem_cons.2 ⟨?_, word.2⟩
    rw [CodeUnit.isWordUnit, word.1, Bool.true_or]

end Text

namespace TokenKind

/-- The spelling of a kind that has one only. -/
def spelling (kind : TokenKind) : Text :=
  (((keywords ++ fixed).find? (·.2 = kind)).map (·.1)).getD []

/-- Whether the kind has a class of spellings and not one only. -/
def isOpen : TokenKind → Bool
  | identifier | stringLiteral | intLiteral | floatLiteral => true
  | _ => false

/-- Whether a text is in the class of the kind. The end of the input is spelt by nothing. -/
def spells : TokenKind → Text → Bool
  | identifier, t => t.isWord && (keywords.lookup t).isNone
  | stringLiteral, t => t.isQuoted
  | intLiteral, t => t.isWhole
  | floatLiteral, t => t.isPointed
  | kind, t => t = kind.spelling

end TokenKind

/-- A kind and a spelling. -/
structure Lexeme where
  kind : TokenKind
  spelling : Text
  deriving DecidableEq, Repr

namespace Lexeme

/-- The lexeme of a kind that has one spelling only. -/
def fixed (kind : TokenKind) : Lexeme := ⟨kind, kind.spelling⟩

/-- The lexeme of a whole word. -/
def word (text : Text) : Lexeme := ⟨.ofWord text, text⟩

/-- The token of a lexeme at the first place of a text. -/
def token (l : Lexeme) : Token := ⟨l.kind, l.spelling, .origin⟩

end Lexeme

/-- The lexeme of a token. -/
def Token.lexeme (t : Token) : Lexeme := ⟨t.kind, t.spelling⟩

/-- Whether the spelling of a token is in the class of its kind. -/
def Token.isSpelt (t : Token) : Bool := t.kind.spells t.spelling

@[simp] theorem Lexeme.lexeme_token (l : Lexeme) : l.token.lexeme = l := rfl

namespace TokenKind

@[simp] theorem fixed_kind (kind : TokenKind) : (Lexeme.fixed kind).kind = kind := rfl

@[simp] theorem word_spelling (text : Text) : (Lexeme.word text).spelling = text := rfl

/-- A kind with one spelling is spelt by it alone. -/
theorem spells_fixed {kind : TokenKind} (closed : kind.isOpen = false) {t : Text} :
    kind.spells t = true ↔ t = kind.spelling := by
  cases kind <;> simp_all [spells, isOpen]

end TokenKind

/-- A token is spelt in the class of the kind that it is known to have. -/
theorem Token.spells_of_kind {t : Token} {kind : TokenKind} (spelt : t.isSpelt)
    (same : t.kind = kind) : kind.spells t.spelling := by
  rw [← same]
  exact spelt

/-- A token that can name a function is an identifier or the reserved word. -/
theorem Token.callable_cases {t : Token} (spelt : t.isSpelt) (callable : t.kind.isCallable) :
    t.kind = .identifier ∧ TokenKind.identifier.spells t.spelling ∨
      t.kind = .mainWord ∧ TokenKind.mainWord.spells t.spelling := by
  have kinds : t.kind = .identifier ∨ t.kind = .mainWord := by
    revert callable
    cases t.kind <;> simp [TokenKind.isCallable]
  exact kinds.imp (fun same => ⟨same, spells_of_kind spelt same⟩)
    fun same => ⟨same, spells_of_kind spelt same⟩

/-- A token of a kind with one spelling has the lexeme of its kind. -/
theorem Token.lexeme_fixed {t : Token} {kind : TokenKind} (spelt : t.isSpelt)
    (same : t.kind = kind) (closed : kind.isOpen = false) : t.lexeme = .fixed kind := by
  subst same
  rw [lexeme, Lexeme.fixed, (TokenKind.spells_fixed closed).1 spelt]

theorem TokenKind.isWord_of_spells {name : Text} (spells : identifier.spells name) :
    name.isWord := by
  simp only [TokenKind.spells, Bool.and_eq_true] at spells
  exact spells.1

/-- The kind of a word is that of a reserved word, or an identifier. -/
theorem TokenKind.ofWord_eq_identifier {t : Text} (spelt : TokenKind.identifier.spells t) :
    ofWord t = .identifier := by
  simp only [spells, Bool.and_eq_true, Option.isNone_iff_eq_none] at spelt
  simp [ofWord, spelt.2]

/-- A name or a type word has the lexeme of its whole word. -/
theorem Token.lexeme_word {t : Token} (spelt : t.isSpelt)
    (word : t.kind.isCallable ∨ t.kind.isType) : t.lexeme = .word t.spelling := by
  obtain ⟨kind, spelling, pos⟩ := t
  suffices same : TokenKind.ofWord spelling = kind by simp [lexeme, Lexeme.word, same]
  by_cases name : kind = .identifier
  · subst name
    exact TokenKind.ofWord_eq_identifier spelt
  · have closed : kind.isOpen = false := by
      cases kind <;> simp_all [TokenKind.isCallable, TokenKind.isType, TokenKind.isOpen]
    obtain rfl := (TokenKind.spells_fixed closed).1 spelt
    cases kind <;> simp_all [TokenKind.isCallable, TokenKind.isType]
    case mainWord => decide
    case typeWord type => cases type <;> decide

end ProcCheck
