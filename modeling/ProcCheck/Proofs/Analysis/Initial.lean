import Mathlib.Data.List.TakeDrop
import ProcCheck.Proofs.Analysis.Tables
import ProcCheck.Proofs.Grammar.Snapshot

/-!
# Initial values

An analysis decides from the text of an initializer whether it is a bare literal. `ValueType.Bare`
says the same of its tree. Numbers are told from all other expressions by their text, and so are
string literals from all expressions but one kind: a chain of operators that make no text compound,
with string literals at both ends, looks like a single literal and is taken for one.
-/

namespace ProcCheck

/-! ## Units of numbers -/

namespace CodeUnit

/-- The units of numbers without signs. -/
def isNumeral (u : CodeUnit) : Bool := u.isDigit || u == '.' || u == 'e' || u == 'E'

theorem isNumeral_of_isDigit {u : CodeUnit} (digit : u.isDigit) : u.isNumeral := by
  simp [isNumeral, digit]

end CodeUnit

namespace Text

variable {t : Text}

theorem spanDigits_eq (t : Text) :
    t.spanDigits = (t.takeWhile (·.isDigit), t.dropWhile (·.isDigit)) :=
  List.span_eq_takeWhile_dropWhile _ t

theorem isWhole_iff : t.isWhole = true ↔ t ≠ [] ∧ ∀ u ∈ t, CodeUnit.isDigit u := by
  simp [isWhole]

/-- A whole number starts with all its digits. -/
theorem isWhole_spanDigits (whole : t.isWhole) : t.spanDigits = (t, []) := by
  obtain ⟨-, digits⟩ := isWhole_iff.1 whole
  rw [spanDigits_eq, List.takeWhile_eq_self_iff.2 digits, List.dropWhile_eq_nil_iff.2 digits]

/-- A pointed number starts with digits and a point, and digits are behind it. -/
theorem isPointed_spanDigits (pointed : t.isPointed) : ∃ whole fraction : Text,
    t.spanDigits = (whole, ('.' : CodeUnit) :: fraction) ∧ whole.isWhole ∧ fraction.isWhole := by
  obtain ⟨whole, fraction, rfl, wholeDigits, fractionDigits⟩ := isPointed_cases pointed
  have digits := (isWhole_iff.1 wholeDigits).2
  have noDigit : ¬ CodeUnit.isDigit '.' := by decide
  refine ⟨whole, fraction, ?_, wholeDigits, fractionDigits⟩
  rw [spanDigits_eq, List.takeWhile_append_of_pos digits, List.dropWhile_append_of_pos digits,
    List.takeWhile_cons_of_neg noDigit, List.dropWhile_cons_of_neg noDigit, List.append_nil]

theorem isUnsignedNumber_of_isWhole (whole : t.isWhole) : t.isUnsignedNumber := by
  simp [isUnsignedNumber, isWhole_spanDigits whole, startsWith, isPlainExponent,
    (isWhole_iff.1 whole).1]

theorem isUnsignedNumber_of_isPointed (pointed : t.isPointed) : t.isUnsignedNumber := by
  obtain ⟨whole, fraction, split, wholeDigits, digits⟩ := isPointed_spanDigits pointed
  simp [isUnsignedNumber, split, startsWith, isWhole_spanDigits digits, isPlainExponent,
    (isWhole_iff.1 digits).1]

theorem isWhole_of_isPointed (pointed : t.isPointed) : t.isWhole = false := by
  obtain ⟨whole, fraction, split, -⟩ := isPointed_spanDigits pointed
  by_contra digits
  rw [isWhole_spanDigits (by simpa using digits)] at split
  cases split

theorem numerals_of_isPlainExponent (exponent : t.isPlainExponent) :
    ∀ u ∈ t, CodeUnit.isNumeral u := by
  cases t with
  | nil => simp
  | cons e digits =>
    simp only [isPlainExponent, Bool.and_eq_true, Bool.or_eq_true, decide_eq_true_eq] at exponent
    obtain ⟨sign, whole⟩ := exponent
    refine List.forall_mem_cons.2 ⟨?_, fun u member => ?_⟩
    · rcases sign with rfl | rfl <;> decide
    · exact CodeUnit.isNumeral_of_isDigit ((isWhole_iff.1 whole).2 u member)

/-- The digits at the start of a text are numerals. -/
theorem numerals_spanDigits : ∀ u ∈ t.spanDigits.1, CodeUnit.isNumeral u := by
  intro u member
  rw [spanDigits_eq] at member
  exact CodeUnit.isNumeral_of_isDigit (List.mem_takeWhile_imp member)

theorem spanDigits_append (t : Text) : t.spanDigits.1 ++ t.spanDigits.2 = t := by
  rw [spanDigits_eq]
  exact List.takeWhile_append_dropWhile

/-- A number consists of numerals. -/
theorem numerals_of_isUnsignedNumber (number : t.isUnsignedNumber) :
    ∀ u ∈ t, CodeUnit.isNumeral u := by
  rw [← spanDigits_append t]
  refine List.forall_mem_append.2 ⟨numerals_spanDigits, ?_⟩
  simp only [isUnsignedNumber] at number
  split at number
  next point =>
    obtain ⟨rest, same⟩ := startsWith_iff.1 point
    simp only [same, List.drop_one, List.tail_cons, Bool.and_eq_true] at number
    rw [same, ← spanDigits_append rest]
    refine List.forall_mem_cons.2 ⟨by decide, List.forall_mem_append.2 ⟨numerals_spanDigits, ?_⟩⟩
    exact numerals_of_isPlainExponent number.2
  next =>
    simp only [Bool.and_eq_true] at number
    exact numerals_of_isPlainExponent number.2

/-- A number starts with a digit or with a point, hence not like a word. -/
theorem isWordStart_of_isUnsignedNumber {u : CodeUnit} {rest : Text}
    (number : isUnsignedNumber (u :: rest)) : u.isWordStart = false := by
  by_cases digit : u.isDigit
  · exact CodeUnit.isWordStart_of_isDigit digit
  · have front : spanDigits (u :: rest) = ([], u :: rest) := by
      rw [spanDigits_eq, List.takeWhile_cons_of_neg digit, List.dropWhile_cons_of_neg digit]
    simp only [isUnsignedNumber, front] at number
    split at number
    next point =>
      obtain rfl : u = '.' := by simpa [startsWith] using point
      decide
    next => simp at number

/-- No numeral makes a text compound. -/
theorem isCompound_of_numerals (numerals : ∀ u ∈ t, CodeUnit.isNumeral u) :
    t.isCompound = false := by
  have signs : compoundSigns.any CodeUnit.isNumeral = false := by decide
  rw [isCompound, List.any_eq_false]
  intro u member isSign
  exact List.any_eq_false.1 signs u (List.contains_iff_mem.1 isSign) (numerals u member)

end Text

/-! ## Quotes at the ends of an expression -/

/-- A spelling that is no string literal holds units of words and of numbers and those of the fixed
spellings only. -/
theorem TokenKind.not_mem_of_spells {kind : TokenKind} {t : Text} {u : CodeUnit}
    (noWord : ¬ u.isWordUnit) (noNumeral : ¬ u.isNumeral)
    (noFixed : ∀ entry ∈ keywords ++ fixed, u ∉ entry.1) (other : kind ≠ .stringLiteral)
    (spells : kind.spells t) : u ∉ t := by
  intro member
  by_cases isOpen : kind.isOpen
  · cases kind with
    | identifier => exact noWord (Text.wordUnits_of_isWord (isWord_of_spells spells) _ member)
    | intLiteral =>
      have number := Text.isUnsignedNumber_of_isWhole spells
      exact noNumeral (Text.numerals_of_isUnsignedNumber number _ member)
    | floatLiteral =>
      have number := Text.isUnsignedNumber_of_isPointed spells
      exact noNumeral (Text.numerals_of_isUnsignedNumber number _ member)
    | stringLiteral => exact other rfl
    | _ => cases isOpen
  · have closed : kind.isOpen = false := by simpa using isOpen
    obtain rfl := (spells_fixed closed).1 spells
    rw [spelling] at member
    cases found : (keywords ++ fixed).find? (·.2 = kind) with
    | none => simp [found] at member
    | some entry =>
      rw [found] at member
      exact noFixed entry (List.mem_of_find?_eq_some found) member

/-- Only string literals hold a quote. -/
theorem TokenKind.quote_not_mem_of_spells {kind : TokenKind} {t : Text}
    (other : kind ≠ .stringLiteral) (spells : kind.spells t) : CodeUnit.quote ∉ t :=
  not_mem_of_spells (by decide) (by decide) (by decide) other spells

/-- Of a quoted text the text between the quotes is left. -/
theorem Text.trimQuotes_of_isQuoted {t : Text} (quoted : t.isQuoted) :
    t.trimQuotes = Grammar.unquoted t := by
  obtain ⟨body, rfl, clean, -⟩ := isQuoted_cases quoted
  let isQuote (u : CodeUnit) : Bool := u = .quote
  have inside : body.all (!isQuote ·) := by
    rw [List.all_eq_true]
    intro u member
    have other : u ≠ .quote := fun same => clean (same ▸ member)
    simp [isQuote, other]
  have keep {l : Text} (plain : l.all (!isQuote ·)) : l.dropWhile isQuote = l := by
    cases l with
    | nil => rfl
    | cons u rest => exact List.dropWhile_cons_of_neg (by simpa using (List.all_eq_true.1 plain) u)
  have front : (.quote :: (body ++ [.quote])).dropWhile isQuote =
      if body = [] then [] else body ++ [.quote] := by
    rw [List.dropWhile_cons_of_pos rfl, List.dropWhile_append, keep inside]
    cases body <;> rfl
  rw [trimQuotes, Grammar.unquoted]
  change ((List.dropWhile isQuote _).reverse.dropWhile isQuote).reverse = _
  rw [front]
  split
  next empty => simp [empty]
  next =>
    rw [List.reverse_concat, List.dropWhile_cons_of_pos rfl, keep (by rwa [List.all_reverse])]
    simp

/-- The lexemes of a canonical expression are spelt in the classes of their kinds, and none of them
is empty. -/
theorem Expr.Canonical.spells {e : Expr} (canonical : e.Canonical) :
    ∀ l ∈ e.lexemes, l.kind.spells l.spelling ∧ l.spelling ≠ [] := by
  have each {ls : List Lexeme} (adjacent : Lexeme.Adjacent [] ls) :
      ∀ l ∈ ls, l.kind.spells l.spelling ∧ l.spelling ≠ [] := by
    induction ls with
    | nil => simp
    | cons l ls ih =>
      obtain ⟨stands, others⟩ := Lexeme.adjacent_cons.1 adjacent
      obtain ⟨u, rest, same⟩ := TokenKind.spells_nonempty stands.1 stands.2.1
      exact List.forall_mem_cons.2 ⟨⟨stands.2.1, by simp [same]⟩, ih others⟩
  exact each (canonical.adjacent rfl)

/-- The first and the last lexeme of an expression are string literals. -/
def Expr.isBetweenStrings (e : Expr) : Bool :=
  e.lexemes.head?.any (·.kind = .stringLiteral) && e.lexemes.getLast?.any (·.kind = .stringLiteral)

/-- A lexeme starts and ends with a quote if it is a string literal, and with none if not. -/
theorem Lexeme.quote_ends {l : Lexeme} (spells : l.kind.spells l.spelling) :
    (l.spelling.head? = some .quote ↔ l.kind = .stringLiteral) ∧
      (l.spelling.getLast? = some .quote ↔ l.kind = .stringLiteral) := by
  by_cases string : l.kind = .stringLiteral
  · rw [string] at spells
    obtain ⟨body, same, -⟩ := Text.isQuoted_cases spells
    simp [string, same, List.getLast?_cons, List.getLast?_append]
  · have none := TokenKind.quote_not_mem_of_spells string spells
    refine ⟨⟨fun first => ?_, fun same => absurd same string⟩,
      ⟨fun last => ?_, fun same => absurd same string⟩⟩
    · exact absurd (List.mem_of_mem_head? first) none
    · exact absurd (List.mem_of_getLast? last) none

/-- The text of an expression starts and ends with a quote if the expression starts and ends with a
string literal. -/
theorem Expr.Canonical.isBetweenStrings_iff {e : Expr} (canonical : e.Canonical) :
    e.isBetweenStrings = true ↔ e.text.startsWith .quote ∧ e.text.endsWith .quote := by
  obtain ⟨first, more, front, -⟩ := canonical.starts
  obtain ⟨init, last, back⟩ : ∃ init last, e.lexemes = init ++ [last] :=
    ⟨_, _, (List.dropLast_append_getLast (by simp [front])).symm⟩
  have firstSpells := canonical.spells first (by simp [front])
  have lastSpells := canonical.spells last (by simp [back])
  have starts : e.text.head? = first.spelling.head? := by
    rw [text, canonical.text_eq, front, Lexeme.joined_cons, List.head?_append_of_ne_nil]
    exact firstSpells.2
  have ends : e.text.getLast? = last.spelling.getLast? := by
    rw [text, canonical.text_eq, back, Lexeme.joined_append, Lexeme.joined_cons,
      Lexeme.joined_nil, List.append_nil, List.getLast?_append_of_ne_nil]
    exact lastSpells.2
  have atStart := (Lexeme.quote_ends firstSpells.1).1
  have atEnd := (Lexeme.quote_ends lastSpells.1).2
  have head : e.lexemes.head? = some first := by simp [front]
  have tail : e.lexemes.getLast? = some last := by simp [back]
  simp [isBetweenStrings, head, tail, Text.startsWith, Text.endsWith, starts, ends, atStart, atEnd]

/-! ## Bare literals -/

/-- Whether a type holds fractions. -/
def ValueType.isReal : ValueType → Bool
  | float | double => true
  | _ => false

/-- An expression is a literal that fits a type, with its value. -/
inductive ValueType.Literal : ValueType → Expr → InitialValue → Prop
  | int {src : Excerpt} {value : Float} (fits : src.text.digitsValue ≤ maxInt) :
      Literal .int (.intLiteral src value) (.number value)
  | whole {type : ValueType} {src : Excerpt} {value : Float} (real : type.isReal) :
      Literal type (.intLiteral src value) (.number value)
  | pointed {type : ValueType} {src : Excerpt} {value : Float} (real : type.isReal) :
      Literal type (.floatLiteral src value) (.number value)
  | string {src : Excerpt} {value : Text} (plain : src.text.isCompound = false) :
      Literal .string (.stringLiteral src value) (.string value)

/-- An initializer is taken for a bare literal of a type, with its value: it is one, or it is an
operator expression between two string literals, whose text counts as one string. -/
inductive ValueType.Bare : ValueType → Expr → InitialValue → Prop
  | literal {type : ValueType} {e : Expr} {v : InitialValue} (literal : type.Literal e v) :
      Bare type e v
  | strings {src : Excerpt} {op : BinaryOp} {left right : Expr}
      (plain : src.text.isCompound = false)
      (between : (Expr.binary src op left right).isBetweenStrings) :
      Bare .string (.binary src op left right) (.string src.text.trimQuotes)

namespace Expr

/-- An expression that holds the spelling of a sign is no number. -/
theorem not_number_of_sign {e : Expr} {kind : TokenKind}
    (text : e.text = Lexeme.joined e.lexemes) (member : .fixed kind ∈ e.lexemes)
    (sign : kind.spelling.any (!·.isNumeral)) : e.text.isUnsignedNumber = false := by
  by_contra number
  obtain ⟨u, among, other⟩ := List.any_eq_true.1 sign
  have inside : u ∈ e.text := by
    rw [text, Lexeme.joined]
    exact List.mem_flatMap.2 ⟨_, member, among⟩
  have numeral := Text.numerals_of_isUnsignedNumber (by simpa using number) u inside
  simp [numeral] at other

/-- A canonical expression whose text is a number is a literal. -/
theorem Canonical.number_cases {e : Expr} (canonical : e.Canonical)
    (number : e.text.isUnsignedNumber) :
    (∃ src, TokenKind.intLiteral.spells src.text ∧ e = .intLiteral src src.text.toFloat) ∨
      ∃ src, TokenKind.floatLiteral.spells src.text ∧ e = .floatLiteral src src.text.toFloat := by
  have text : e.text = Lexeme.joined e.lexemes := canonical.text_eq
  have noSign (kind : TokenKind) (member : .fixed kind ∈ e.lexemes)
      (sign : kind.spelling.any (!·.isNumeral)) : False := by
    rw [not_number_of_sign text member sign] at number
    cases number
  cases canonical with
  | intLiteral spelt => exact .inl ⟨_, spelt, rfl⟩
  | floatLiteral spelt => exact .inr ⟨_, spelt, rfl⟩
  | @stringLiteral src spelt =>
    obtain ⟨body, same, -⟩ := Text.isQuoted_cases spelt
    have quote : CodeUnit.quote ∈ src.text := by simp [same]
    exact absurd (Text.numerals_of_isUnsignedNumber number _ quote) (by decide)
  | @identifier src spelt =>
    obtain ⟨u, rest, same⟩ := TokenKind.spells_nonempty (by simp) spelt
    have word := TokenKind.isWord_of_spells spelt
    change src.text.isUnsignedNumber at number
    rw [same] at word number
    simp only [Text.isWord, Bool.and_eq_true] at word
    have noWord := Text.isWordStart_of_isUnsignedNumber number
    simp [word.1] at noWord
  | call => exact (noSign .openParen (by simp [lexemes]) (by decide)).elim
  | assign => exact (noSign .assign (by simp [lexemes]) (by decide)).elim
  | @binary src op =>
    exact (noSign (.operator op) (by simp [lexemes]) (by cases op <;> decide)).elim
  | @prefixed src op =>
    exact (noSign op.kind (by simp [lexemes]) (by cases op <;> decide)).elim
  | group => exact (noSign .openParen (by simp [lexemes]) (by decide)).elim

/-- A canonical expression between string literals is one literal or consists of operands. -/
theorem Canonical.string_cases {e : Expr} (canonical : e.Canonical)
    (between : e.isBetweenStrings) :
    (∃ src, TokenKind.stringLiteral.spells src.text ∧
        e = .stringLiteral src (Grammar.unquoted src.text)) ∨
      ∃ src op left right, e = .binary src op left right := by
  simp only [isBetweenStrings, Bool.and_eq_true] at between
  have first := between.1
  cases canonical with
  | stringLiteral spelt => exact .inl ⟨_, spelt, rfl⟩
  | binary => exact .inr ⟨_, _, _, _, rfl⟩
  | identifier spelt =>
    simp [lexemes, Lexeme.word, TokenKind.ofWord_eq_identifier spelt] at first
  | assign name =>
    simp [lexemes, Lexeme.word, TokenKind.ofWord_eq_identifier name] at first
  | call name =>
    have callable := TokenKind.ofWord_isCallable name
    simp only [lexemes, Lexeme.word, List.head?_cons, Option.any_some, decide_eq_true_eq] at first
    rw [first] at callable
    cases callable
  | @prefixed src op => cases op <;> cases first
  | intLiteral | floatLiteral | group => cases first

end Expr

namespace ValueType

variable {type : ValueType} {e : Expr} {v : InitialValue}

/-- A text that holds a value for a type is that of a bare literal. -/
theorem bare_of_initial? (canonical : e.Canonical) (given : type.initial? (some e) = some v) :
    type.Bare e v := by
  simp only [initial?] at given
  split at given
  next => cases given
  next plain =>
  have real (isReal : type.isReal) (given : (if e.text.isUnsignedNumber then
      some (InitialValue.number e.text.toFloat) else none) = some v) : type.Bare e v := by
    split at given
    next number =>
      cases given
      rcases canonical.number_cases number with ⟨src, -, rfl⟩ | ⟨src, -, rfl⟩
      · exact .literal (.whole isReal)
      · exact .literal (.pointed isReal)
    next => cases given
  cases type with
  | int =>
    simp only [literal?] at given
    split at given
    next fits =>
      cases given
      rcases canonical.number_cases (Text.isUnsignedNumber_of_isWhole fits.1) with
        ⟨src, -, rfl⟩ | ⟨src, spelt, rfl⟩
      · exact .literal (.int fits.2)
      · exact absurd fits.1 (by simp [Expr.text, Expr.src, Text.isWhole_of_isPointed spelt])
    next => cases given
  | float => exact real rfl given
  | double => exact real rfl given
  | string =>
    simp only [literal?] at given
    split at given
    next quotes =>
      cases given
      have plain : e.text.isCompound = false := by simpa using plain
      have between := canonical.isBetweenStrings_iff.2 quotes
      rcases canonical.string_cases between with ⟨src, spelt, rfl⟩ | ⟨src, op, left, right, rfl⟩
      · rw [Expr.text, Expr.src, Text.trimQuotes_of_isQuoted spelt]
        exact .literal (.string plain)
      · exact .strings plain between
    next => cases given
  | void => cases given

/-- A bare literal of a type has a text that holds its value. -/
theorem Bare.initial? (bare : type.Bare e v) (canonical : e.Canonical) :
    type.initial? (some e) = some v := by
  have number (isNumber : e.text.isUnsignedNumber) : e.text.isCompound = false :=
    Text.isCompound_of_numerals (Text.numerals_of_isUnsignedNumber isNumber)
  have real (isReal : type.isReal) (isNumber : e.text.isUnsignedNumber) :
      type.initial? (some e) = some (.number e.text.toFloat) := by
    simp only [ValueType.initial?, number isNumber]
    cases type with
    | float | double => simp [literal?, isNumber]
    | _ => cases isReal
  have string (plain : e.text.isCompound = false) (between : e.isBetweenStrings) :
      ValueType.string.initial? (some e) = some (.string e.text.trimQuotes) := by
    simp [ValueType.initial?, plain, literal?, canonical.isBetweenStrings_iff.1 between]
  cases bare with
  | strings plain between => exact string plain between
  | literal literal =>
    cases literal with
    | @int src value fits =>
      cases canonical with
      | intLiteral spelt =>
        have whole : src.text.isWhole := spelt
        have plain : src.text.isCompound = false := number (Text.isUnsignedNumber_of_isWhole spelt)
        simp [ValueType.initial?, literal?, Expr.text, Expr.src, plain, whole, fits]
    | whole isReal =>
      cases canonical with
      | intLiteral spelt => exact real isReal (Text.isUnsignedNumber_of_isWhole spelt)
    | pointed isReal =>
      cases canonical with
      | floatLiteral spelt => exact real isReal (Text.isUnsignedNumber_of_isPointed spelt)
    | string plain =>
      cases canonical with
      | stringLiteral spelt =>
        rw [string plain rfl, ← Text.trimQuotes_of_isQuoted spelt]
        rfl

end ValueType

/-! ## Tables -/

/-- Every declaration in a canonical statement is canonical. -/
theorem Stmt.Canonical.of_mem_varDecls {s : Stmt} {decl : VarDecl} (canonical : s.Canonical)
    (member : decl ∈ s.varDecls) : decl.Canonical := by
  have place : Site.declare decl ∈ s.sites := by
    obtain ⟨site, among, same⟩ := List.mem_filterMap.1 member
    cases site with
    | declare other =>
      cases same
      exact among
    | check => cases same
  clear member
  induction canonical with
  | var inner =>
    cases List.mem_singleton.1 place
    exact inner
  | block _ ih =>
    simp only [sites, blockSites_eq, List.mem_flatMap] at place
    obtain ⟨s, among, place⟩ := place
    exact ih s among place
  | branch _ _ _ ihThen ihElse =>
    simp only [sites, blockSites_eq, elseSites_eq, List.mem_cons, List.mem_append,
      List.mem_flatMap, reduceCtorEq, false_or, Option.mem_toList] at place
    rcases place with ⟨s, among, place⟩ | ⟨body, alternative, s, among, place⟩
    · exact ihThen s among place
    · exact ihElse body alternative s among place
  | whileLoop _ _ ih =>
    simp only [sites, blockSites_eq, List.mem_cons, List.mem_flatMap, reduceCtorEq,
      false_or] at place
    obtain ⟨s, among, place⟩ := place
    exact ih s among place
  | forLoop _ _ _ _ _ ihFirst ih =>
    simp only [sites, initSites_eq, blockSites_eq, List.mem_append, List.mem_flatMap,
      List.mem_map, reduceCtorEq, and_false, exists_false, or_false, Option.mem_toList] at place
    rcases place with ⟨s, among, place⟩ | ⟨s, among, place⟩
    · exact ihFirst s among place
    · exact ih s among place
  | expr => cases List.mem_singleton.1 place
  | @ret value =>
    cases value with
    | none => cases place
    | some e => cases List.mem_singleton.1 place

/-- A variable is the one that a declaration declares, and it starts with the value of the
initializer if that is a bare literal of its type; otherwise it starts with none. -/
structure VarDecl.StartsBare (isGlobal : Bool) (decl : VarDecl) (v : Variable) : Prop where
  declares : decl.Declares isGlobal v
  initial : ∀ value, v.initial = some value ↔ ∃ e ∈ decl.init, v.type.Bare e value

theorem VarDecl.Declares.startsBare {isGlobal : Bool} {decl : VarDecl} {v : Variable}
    (declares : decl.Declares isGlobal v) (canonical : decl.Canonical) :
    decl.StartsBare isGlobal v := by
  refine ⟨declares, fun value => ?_⟩
  rw [declares.initial]
  cases init : decl.init with
  | none => simp [ValueType.initial?]
  | some e =>
    have inner := canonical.init e init
    constructor
    · intro given
      exact ⟨e, rfl, ValueType.bare_of_initial? inner given⟩
    · rintro ⟨_, ⟨⟩, bare⟩
      exact bare.initial? inner

/-- A table of variables whose declarations are canonical starts bare. -/
theorem VarDecl.startsBare_table {isGlobal : Bool} {decls : List VarDecl} {table : List Variable}
    (declared : List.Forall₂ (VarDecl.Declares isGlobal) decls table)
    (canonical : ∀ decl ∈ decls, decl.Canonical) :
    List.Forall₂ (VarDecl.StartsBare isGlobal) decls table := by
  have both := (List.forall₂_and_left decls table).2 ⟨canonical, declared⟩
  exact both.imp fun decl v h => h.2.startsBare h.1

namespace Text

/-- The initial values in the tables of a source are the values of bare literals: a variable has
one exactly if the initializer of its declaration is a bare literal of its type, and then it is the
value of that literal. -/
theorem symbols_initial {source entry : Text} {symbols : Symbols}
    (returned : source.symbols entry = .ok symbols) : ∃ p, source.program = .ok p ∧
      List.Forall₂ (VarDecl.StartsBare true) (firsts VarDecl.name [] p.globals) symbols.globals ∧
      List.Forall₂ (fun decl f => FunctionDecl.Declares decl f ∧
          List.Forall₂ (VarDecl.StartsBare false)
            (firsts VarDecl.name (decl.params.map (·.name)) (Stmt.block decl.body).varDecls)
            f.locals)
        (firsts FunctionDecl.name [] p.functions) symbols.functions := by
  obtain ⟨p, read, scanned⟩ := program_of_symbols returned
  have canonical := canonical_of_program read
  obtain ⟨globals, functions⟩ := Program.symbols_tables scanned
  have globalCanonical : ∀ decl ∈ firsts VarDecl.name [] p.globals, decl.Canonical := by
    intro decl member
    obtain ⟨node, among, same⟩ := List.mem_filterMap.1 (firsts_subset member)
    cases canonical node among <;> cases same
    assumption
  have bodyCanonical : ∀ decl ∈ firsts FunctionDecl.name [] p.functions,
      (Stmt.block decl.body).Canonical := by
    intro decl member
    obtain ⟨node, among, same⟩ := List.mem_filterMap.1 (firsts_subset member)
    cases canonical node among with
    | function inner =>
      cases same
      exact .block inner.body
    | _ => cases same
  refine ⟨p, read, VarDecl.startsBare_table globals globalCanonical, ?_⟩
  have both := (List.forall₂_and_left _ _).2 ⟨bodyCanonical, functions⟩
  refine both.imp fun decl f h => ⟨h.2, VarDecl.startsBare_table h.2.locals fun inner member => ?_⟩
  exact h.1.of_mem_varDecls (firsts_subset member)

/-- Bare literals of all kinds, of which the third does not fit its type, and initializers that are
none. -/
def initialized : Text :=
  "int i = 7; double d = 2.5; int n = 3000000000; string s = \"hi\"; void main() \x7b " ++
    "string t = \"a-b\"; float f = 1; int j = i; \x7d"

theorem initialized_initial : ∃ symbols, initialized.symbols "main" = .ok symbols ∧
    (∃ p, initialized.program = .ok p ∧
      List.Forall₂ (VarDecl.StartsBare true) (firsts VarDecl.name [] p.globals) symbols.globals ∧
      List.Forall₂ (fun decl f => FunctionDecl.Declares decl f ∧
          List.Forall₂ (VarDecl.StartsBare false)
            (firsts VarDecl.name (decl.params.map (·.name)) (Stmt.block decl.body).varDecls)
            f.locals)
        (firsts FunctionDecl.name [] p.functions) symbols.functions) ∧
    symbols.globals.map (·.initial.isSome) = [true, true, false, true] ∧
    symbols.functions.map (·.locals.map (·.initial.isSome)) = [[false, true, false]] := by
  have found : (initialized.symbols "main").toOption.map (fun symbols =>
      (symbols.globals.map (·.initial.isSome),
        symbols.functions.map (·.locals.map (·.initial.isSome)))) =
      some ([true, true, false, true], [[false, true, false]]) := by
    decide +kernel
  cases returned : initialized.symbols "main" with
  | error e =>
    rw [returned] at found
    cases found
  | ok symbols =>
    rw [returned] at found
    obtain ⟨globals, functions⟩ := Prod.mk.inj (Option.some.inj found)
    exact ⟨symbols, rfl, symbols_initial returned, globals, functions⟩

/-- A string whose initializer compares two strings. -/
def compared : Text := "string s = \"a\" == \"b\";\nint main() \x7b\x7d"

/-- The comparison of two strings is no literal, but what is stored is its text without the first
and the last quote. -/
theorem compared_initial : ∃ p symbols decl v, compared.program = .ok p ∧
    compared.symbols "main" = .ok symbols ∧ p.globals = [decl] ∧ symbols.globals = [v] ∧
    decl.Declares true v ∧ v.initial = some (.string "a\"==\"b") ∧
    ∀ e ∈ decl.init, ∀ value, ¬ v.type.Literal e value := by
  -- a chain holds together less tightly than any literal
  have found : compared.program.toOption.bind (fun p => (p.symbols "main").toOption.map
      fun symbols => (p.globals.map (·.init.all (·.rank < 7)), symbols.globals.map (·.initial))) =
      some ([true], [some (.string "a\"==\"b")]) := by
    decide +kernel
  cases read : compared.program with
  | error e =>
    rw [read] at found
    cases found
  | ok p =>
    rw [read] at found
    cases scanned : p.symbols "main" with
    | error abort => simp [Except.toOption, scanned] at found
    | ok symbols =>
      simp only [Except.toOption, Option.bind_some, scanned, Option.map_some,
        Option.some.injEq, Prod.mk.injEq] at found
      obtain ⟨chains, initials⟩ := found
      obtain ⟨decl, single, isChain⟩ := List.map_eq_singleton_iff.1 chains
      obtain ⟨v, alone, initial⟩ := List.map_eq_singleton_iff.1 initials
      obtain ⟨tables, -⟩ := Program.symbols_tables scanned
      have first : firsts VarDecl.name [] [decl] = [decl] := by simp [firsts, inOrder]
      rw [single, alone, first, List.forall₂_cons] at tables
      refine ⟨p, symbols, decl, v, rfl, symbols_eq_ok read scanned, single, alone, tables.1,
        initial, ?_⟩
      intro e given value literal
      rw [Option.mem_def.1 given] at isChain
      generalize v.type = type at literal
      cases literal <;> cases isChain

end Text

end ProcCheck
