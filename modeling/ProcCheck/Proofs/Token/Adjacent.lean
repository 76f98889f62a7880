import ProcCheck.Proofs.Grammar.Precedence
import ProcCheck.Proofs.Token.Layout

/-!
# Lexemes side by side

`Piece.atHead` finds every spelling that stands at the start of a text, so a text that is made of
spellings without space between them splits into them again, provided that each of them ends where
the next one begins.
-/

namespace ProcCheck

/-! ## First units -/

namespace CodeUnit

/-- The units that words, numbers and strings start with. -/
def opensLexeme (u : CodeUnit) : Bool := u.isWordStart || u.isDigit || u == .quote

theorem opensLexeme_bounds {u : CodeUnit} (opens : u.opensLexeme) :
    34 ≤ u.toNat ∧ u.toNat ≤ 122 := by
  have bounds : u = 95 ∨ u = 34 ∨ (97 ≤ u ∧ u ≤ 122) ∨ (65 ≤ u ∧ u ≤ 90) ∨ (48 ≤ u ∧ u ≤ 57) := by
    simp only [opensLexeme, isWordStart, isLetter, isDigit, Bool.or_eq_true, Bool.and_eq_true,
      decide_eq_true_eq, beq_iff_eq] at opens
    rcases opens with (((letter | letter) | underscore) | digit) | quote
    · exact .inr (.inr (.inl letter))
    · exact .inr (.inr (.inr (.inl letter)))
    · exact .inl underscore
    · exact .inr (.inr (.inr (.inr digit)))
    · exact .inr (.inl quote)
  simp only [UInt16.le_iff_toNat_le, ← UInt16.toNat_inj, UInt16.reduceToNat] at bounds
  omega

theorem isBlank_of_opensLexeme {u : CodeUnit} (opens : u.opensLexeme) : u.isBlank = false := by
  have := opensLexeme_bounds opens
  simp only [isBlank, Bool.or_eq_false_iff, Bool.and_eq_false_iff, decide_eq_false_iff_not,
    beq_eq_false_iff_ne, ne_eq, UInt16.le_iff_toNat_le, ← UInt16.toNat_inj, UInt16.reduceToNat]
  omega

/-- No digit starts a word. -/
theorem isWordStart_of_isDigit {u : CodeUnit} (digit : u.isDigit) : u.isWordStart = false := by
  by_contra start
  simp only [isDigit, isWordStart, isLetter, Bool.not_eq_false, Bool.or_eq_true, Bool.and_eq_true,
    decide_eq_true_eq, beq_iff_eq] at digit start
  have nine : u ≤ 57 := digit.2
  have letter : 65 ≤ u := by
    rcases start with (letter | letter) | rfl
    · exact UInt16.le_trans (by decide) letter.1
    · exact letter.1
    · decide
  exact absurd (UInt16.le_trans letter nine) (by decide)

end CodeUnit

namespace Piece

variable {u : CodeUnit} {rest taken after : Text} {kind : TokenKind}

/-- No operator starts like a word, a number or a string. -/
theorem fixed?_of_opensLexeme (opens : u.opensLexeme) : fixed? (u :: rest) = none := by
  have entries : ∀ entry ∈ TokenKind.fixed, ∃ v more, entry.1 = v :: more ∧
      CodeUnit.opensLexeme v = false := by
    have heads : ∀ entry ∈ TokenKind.fixed, entry.1.head?.any (fun v => !v.opensLexeme) := by
      decide
    intro entry member
    have head := heads entry member
    cases spelling : entry.1 with
    | nil => simp [spelling] at head
    | cons v more => exact ⟨v, more, rfl, by simpa [spelling] using head⟩
  rw [fixed?, Option.map_eq_none_iff, List.find?_eq_none]
  intro entry member starts
  obtain ⟨v, more, spelling, other⟩ := entries entry member
  rw [spelling] at starts
  obtain ⟨rfl, -⟩ := List.cons_prefix_cons.1 (List.isPrefixOf_iff_prefix.1 starts)
  rw [opens] at other
  cases other

/-- What starts like a word, a number or a string is one. -/
theorem atHead_of_opensLexeme (opens : u.opensLexeme) :
    atHead u rest = if u = .quote then stringLiteral rest
      else if u.isWordStart then .ok (word u rest) else .ok (number rest) := by
  have slash : ¬ u = '/' := by
    rintro rfl
    revert opens
    decide
  rw [atHead, CodeUnit.isBlank_of_opensLexeme opens, fixed?_of_opensLexeme opens]
  simp only [slash, false_and, if_false, Bool.false_eq_true]
  split
  · rfl
  split
  · rfl
  next noQuote noWord =>
    have digit : u.isDigit := by
      simpa [CodeUnit.opensLexeme, noQuote, noWord] using opens
    rw [if_pos digit]

/-! ## Words, numbers and strings -/

/-- A run of units ends where the next unit is of another kind. -/
theorem takeWhile_append_eq {p : CodeUnit → Bool} (inside : taken.all p)
    (ends : after.head?.any p = false) : (taken ++ after).takeWhile p = taken := by
  rw [List.takeWhile_append_of_pos (List.all_eq_true.1 inside)]
  cases after with
  | nil => simp
  | cons v after =>
    have stop : ¬ p v = true := by simpa using ends
    rw [List.takeWhile_cons_of_neg stop, List.append_nil]

theorem atHead_word (isWord : Text.isWord (u :: taken))
    (ends : after.head?.any (·.isWordUnit) = false) :
    atHead u (taken ++ after) = .ok ⟨some (.ofWord (u :: taken)), taken.length⟩ := by
  simp only [Text.isWord, Bool.and_eq_true] at isWord
  have noQuote : u ≠ .quote := by
    rintro rfl
    exact absurd isWord.1 (by decide)
  rw [atHead_of_opensLexeme (by simp [CodeUnit.opensLexeme, isWord.1]), if_neg noQuote,
    if_pos isWord.1, word, takeWhile_append_eq isWord.2 ends]

/-- A digit starts neither a word nor a string. -/
theorem atHead_digit (digit : u.isDigit) : atHead u rest = .ok (number rest) := by
  have noQuote : u ≠ .quote := by
    rintro rfl
    exact absurd digit (by decide)
  rw [atHead_of_opensLexeme (by simp [CodeUnit.opensLexeme, digit]), if_neg noQuote,
    if_neg (by simp [CodeUnit.isWordStart_of_isDigit digit])]

theorem atHead_int (whole : Text.isWhole (u :: taken))
    (ends : TokenKind.intLiteral.endsAt after) :
    atHead u (taken ++ after) = .ok ⟨some .intLiteral, taken.length⟩ := by
  simp only [Text.isWhole, List.isEmpty_cons, Bool.not_false, Bool.true_and, List.all_cons,
    Bool.and_eq_true] at whole
  simp only [TokenKind.endsAt, Bool.and_eq_true, Bool.not_eq_true', Bool.and_eq_false_iff] at ends
  have dropped : (taken ++ after).drop (taken.length + 1) = after.drop 1 := by
    rw [← List.drop_drop, List.drop_left]
  rw [atHead_digit whole.1, number, takeWhile_append_eq whole.2 ends.1, dropped, List.drop_left,
    if_neg]
  rintro ⟨point, fraction⟩
  rcases ends.2 with noPoint | noDigit
  · rw [point] at noPoint
    cases noPoint
  · cases next : after.drop 1 with
    | nil => simp [next] at fraction
    | cons v tail =>
      have stop : ¬ v.isDigit = true := by simpa [next] using noDigit
      rw [next, List.takeWhile_cons_of_neg stop] at fraction
      exact absurd fraction (by simp)

theorem atHead_float (pointed : Text.isPointed (u :: taken))
    (ends : TokenKind.floatLiteral.endsAt after) :
    atHead u (taken ++ after) = .ok ⟨some .floatLiteral, taken.length⟩ := by
  obtain ⟨whole, fractionDigits, same, wholeDigits, fraction⟩ := Text.isPointed_cases pointed
  cases whole with
  | nil => exact absurd wholeDigits (by decide)
  | cons v whole =>
    rw [List.cons_append] at same
    obtain ⟨rfl, rfl⟩ := List.cons.inj same
    simp only [Text.isWhole, Bool.and_eq_true, Bool.not_eq_true', List.isEmpty_eq_false_iff,
      List.all_cons] at wholeDigits fraction
    obtain ⟨-, first, inside⟩ := wholeDigits
    simp only [TokenKind.endsAt, Bool.not_eq_true'] at ends
    have dropped : (whole ++ ((('.' : CodeUnit) :: fractionDigits) ++ after)).drop
        (whole.length + 1) = fractionDigits ++ after := by
      rw [← List.drop_drop, List.drop_left]
      rfl
    have positive := List.length_pos_of_ne_nil fraction.1
    rw [atHead_digit first, List.append_assoc, number,
      takeWhile_append_eq inside (by rfl), dropped, takeWhile_append_eq fraction.2 ends,
      List.drop_left, if_pos ⟨rfl, positive⟩]
    simp only [List.length_append, List.length_cons]
    rw [Nat.add_assoc, Nat.add_comm 1]

theorem atHead_string (quoted : Text.isQuoted (u :: taken)) :
    atHead u (taken ++ after) = .ok ⟨some .stringLiteral, taken.length⟩ := by
  simp only [Text.isQuoted, Bool.and_eq_true, beq_iff_eq] at quoted
  obtain ⟨⟨rfl, closed⟩, inside⟩ := quoted
  obtain ⟨body, rfl⟩ := List.getLast?_eq_some_iff.1 closed
  rw [List.dropLast_concat] at inside
  have run : (body ++ (.quote :: after)).takeWhile
      (fun (v : CodeUnit) => decide (v ≠ .quote ∧ v ≠ .lineFeed)) = body :=
    takeWhile_append_eq (by simpa using inside) (by simp)
  rw [atHead_of_opensLexeme (by decide), if_pos rfl, List.append_assoc, List.singleton_append,
    stringLiteral, run, List.drop_left, if_pos (by simp [Text.startsWith])]
  simp

/-! ## Operators and punctuation -/

/-- Of two spellings one begins the other only if it can go on with `=`. -/
theorem fixed_begins : ∀ a ∈ TokenKind.fixed, ∀ b ∈ TokenKind.fixed, a.1 <+: b.1 → a = b ∨
    b.1 = a.1 ++ [('=' : CodeUnit)] ∧
      a.2 ∈ [.assign, .bang, .operator .less, .operator .greater] := by
  decide

/-- The first spelling that fits is the one that ends in front of what follows. -/
theorem fixed?_of_endsAt (member : (u :: taken, kind) ∈ TokenKind.fixed)
    (ends : kind.endsAt after) :
    fixed? (u :: (taken ++ after)) = some ⟨some kind, taken.length⟩ := by
  have starts : u :: taken <+: u :: (taken ++ after) := ⟨after, rfl⟩
  rw [fixed?]
  cases first : TokenKind.fixed.find? fun entry => entry.1.isPrefixOf (u :: (taken ++ after)) with
  | none =>
    have other := List.find?_eq_none.1 first _ member
    rw [List.isPrefixOf_iff_prefix] at other
    exact absurd starts other
  | some entry =>
    have longest := fixed_longest first member starts
    have listed := List.mem_of_find?_eq_some first
    rcases fixed_begins _ member _ listed longest with rfl | ⟨longer, goesOn⟩
    · simp
    -- A longer spelling would go on with `=`, which the end of the shorter one excludes.
    · have fits := List.isPrefixOf_iff_prefix.1 (List.find?_eq_some_iff_append.1 first).1
      rw [longer, List.cons_append, List.cons_prefix_cons, List.prefix_append_right_inj] at fits
      obtain ⟨tail, rfl⟩ := fits.2
      simp only [List.mem_cons, List.not_mem_nil, or_false] at goesOn
      rcases goesOn with rfl | rfl | rfl | rfl <;> cases ends

/-- The spelling of an operator is found where it ends: neither a longer operator nor a comment
starts there. -/
theorem atHead_fixed (member : (u :: taken, kind) ∈ TokenKind.fixed) (ends : kind.endsAt after) :
    atHead u (taken ++ after) = .ok ⟨some kind, taken.length⟩ := by
  have blank : ∀ entry ∈ TokenKind.fixed, entry.1.head?.any (·.isBlank) = false := by decide
  have slash : ∀ entry ∈ TokenKind.fixed, entry.1.head? = some '/' →
      entry = ([('/' : CodeUnit)], TokenKind.operator .div) := by
    decide
  have noComment (sign : CodeUnit) (isSign : sign = '/' ∨ sign = '*') :
      ¬ (u = '/' ∧ Text.startsWith (taken ++ after) sign) := by
    rintro ⟨rfl, opens⟩
    cases slash _ member rfl
    simp only [TokenKind.endsAt, Bool.not_eq_true', Bool.or_eq_false_iff] at ends
    rw [List.nil_append] at opens
    rcases isSign with rfl | rfl
    · exact absurd opens (by simp [ends.1])
    · exact absurd opens (by simp [ends.2])
  have notBlank : u.isBlank = false := by simpa using blank _ member
  rw [atHead, notBlank, if_neg Bool.false_ne_true, if_neg (noComment '/' (.inl rfl)),
    if_neg (noComment '*' (.inr rfl)), fixed?_of_endsAt member ends]

/-- A kind with one spelling is that of a reserved word, of an operator or of punctuation. -/
theorem closed_cases (closed : kind.isOpen = false) (noEnd : kind ≠ .endOfInput) :
    (kind.spelling, kind) ∈ TokenKind.keywords ∨ (kind.spelling, kind) ∈ TokenKind.fixed := by
  cases kind with
  | operator op => cases op <;> decide
  | typeWord type => cases type <;> decide
  | identifier | stringLiteral | intLiteral | floatLiteral => cases closed
  | endOfInput => exact absurd rfl noEnd
  | _ => decide

theorem atHead_keyword (member : (u :: taken, kind) ∈ TokenKind.keywords)
    (ends : kind.endsAt after) : atHead u (taken ++ after) = .ok ⟨some kind, taken.length⟩ := by
  have words : ∀ entry ∈ TokenKind.keywords,
      Text.isWord entry.1 ∧ TokenKind.ofWord entry.1 = entry.2 := by
    decide
  have stops : ∀ entry ∈ TokenKind.keywords,
      entry.2.endsAt after → after.head?.any (·.isWordUnit) = false := by
    simp [TokenKind.keywords, TokenKind.endsAt]
  obtain ⟨isWord, same⟩ := words _ member
  rw [atHead_word isWord (stops _ member ends), same]

/-- Whatever can stand at the start of a text is found there. -/
theorem atHead_of_stands (stands : Stands (some kind) (u :: taken) after) :
    atHead u (taken ++ after) = .ok ⟨some kind, taken.length⟩ := by
  obtain ⟨noEnd, spells, ends⟩ := stands
  by_cases closed : kind.isOpen = false
  · have spelling := (TokenKind.spells_fixed closed).1 spells
    rcases closed_cases closed noEnd with member | member
    · exact atHead_keyword (spelling ▸ member) ends
    · exact atHead_fixed (spelling ▸ member) ends
  · cases kind with
    | identifier =>
      have isWord := spells
      simp only [TokenKind.spells, Bool.and_eq_true] at isWord
      simp only [TokenKind.endsAt, Bool.not_eq_true'] at ends
      rw [atHead_word isWord.1 ends, TokenKind.ofWord_eq_identifier spells]
    | stringLiteral => exact atHead_string spells
    | intLiteral => exact atHead_int spells ends
    | floatLiteral => exact atHead_float spells ends
    | _ => exact absurd rfl closed

end Piece

/-! ## Lists of lexemes -/

theorem tokensFrom_nil (pos : Position) : tokensFrom pos [] = .ok [⟨.endOfInput, [], pos⟩] := by
  unfold tokensFrom
  rfl

/-- A lexeme at the start of a text is the first of its tokens. -/
theorem tokensFrom_cons {u : CodeUnit} {rest : Text} {kind : TokenKind} {more : Nat}
    (found : Piece.atHead u rest = .ok ⟨some kind, more⟩) (pos : Position) :
    tokensFrom pos (u :: rest) =
      (tokensFrom (pos.after (u :: rest.take more)) (rest.drop more)).map
        (⟨kind, u :: rest.take more, pos⟩ :: ·) := by
  rw [tokensFrom.eq_def]
  simp only [found]

/-- No spelling of a token but the end is empty. -/
theorem TokenKind.spells_nonempty {kind : TokenKind} {t : Text} (noEnd : kind ≠ .endOfInput)
    (spells : kind.spells t) : ∃ u rest, t = u :: rest := by
  cases t with
  | cons u rest => exact ⟨u, rest, rfl⟩
  | nil =>
    exfalso
    revert noEnd spells
    cases kind with
    | operator op => cases op <;> decide
    | typeWord type => cases type <;> decide
    | _ => decide

namespace Lexeme

/-- Lexemes stand side by side in front of `after`: each ends where the next one begins. -/
def Adjacent (after : Text) : List Lexeme → Prop
  | [] => True
  | l :: ls => Piece.Stands (some l.kind) l.spelling (joined ls ++ after) ∧ Adjacent after ls

variable {ls ls' : List Lexeme} {after : Text}

@[simp] theorem adjacent_nil : Adjacent after [] := trivial

@[simp] theorem adjacent_cons {l : Lexeme} : Adjacent after (l :: ls) ↔
    Piece.Stands (some l.kind) l.spelling (joined ls ++ after) ∧ Adjacent after ls := .rfl

@[simp] theorem adjacent_append :
    Adjacent after (ls ++ ls') ↔ Adjacent (joined ls' ++ after) ls ∧ Adjacent after ls' := by
  induction ls with
  | nil => simp
  | cons l ls ih => simp only [List.cons_append, adjacent_cons, ih, joined_append,
      List.append_assoc, and_assoc]

/-- Spellings that stand side by side split into the tokens that they are. -/
theorem tokensFrom_of_adjacent (adjacent : Adjacent [] ls) (pos : Position) :
    ∃ tokens last, tokensFrom pos (joined ls) = .ok (tokens ++ [last]) ∧ last.isEnd ∧
      tokens.map Token.lexeme = ls := by
  induction ls generalizing pos with
  | nil =>
    exact ⟨[], ⟨.endOfInput, [], pos⟩, tokensFrom_nil pos, rfl, rfl⟩
  | cons l ls ih =>
    obtain ⟨stands, others⟩ := adjacent_cons.1 adjacent
    obtain ⟨kind, spelling⟩ := l
    obtain ⟨u, taken, rfl⟩ := TokenKind.spells_nonempty stands.1 stands.2.1
    obtain ⟨tokens, last, split, isEnd, same⟩ := ih others (pos.after (u :: taken))
    have found := Piece.atHead_of_stands stands
    rw [List.append_nil] at found
    refine ⟨⟨kind, u :: taken, pos⟩ :: tokens, last, ?_, isEnd, by simp [Token.lexeme, same]⟩
    rw [joined_cons, List.cons_append, tokensFrom_cons found, List.take_left, List.drop_left, split]
    rfl

end Lexeme

end ProcCheck
