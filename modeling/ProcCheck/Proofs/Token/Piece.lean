import Mathlib.Data.List.TakeWhile
import ProcCheck.Proofs.Token.Lexeme

/-!
# Pieces at the start of a text

Each piece that the lexer finds is either part of a gap or the spelling of a token. A gap is
made of blank units and comments; whether one can stand somewhere depends on what follows it,
since a line comment goes on to the end of its line. A spelling is as long as it can be:
`TokenKind.endsAt` says what may not follow it.
-/

namespace ProcCheck

namespace Text

/-- The two units that close a block comment. -/
def commentEnd : Text := ['*', '/']

/-- A gap in front of `rest`: blank units, line comments up to a line feed or the end, and block
comments that are closed by the first `*/` in them. -/
inductive Gap : Text → Text → Prop
  | empty {rest : Text} : Gap [] rest
  | blank {u : CodeUnit} {gap rest : Text} (isBlank : u.isBlank) (more : Gap gap rest) :
      Gap (u :: gap) rest
  | lineComment {body gap rest : Text} (inside : ∀ u ∈ body, u ≠ .lineFeed)
      (ends : ∀ u ∈ (gap ++ rest).head?, u = .lineFeed) (more : Gap gap rest) :
      Gap (('/' : CodeUnit) :: '/' :: (body ++ gap)) rest
  | blockComment {body gap rest : Text} (inside : ¬ commentEnd <:+: body ++ [('*' : CodeUnit)])
      (more : Gap gap rest) : Gap (('/' : CodeUnit) :: '*' :: (body ++ commentEnd ++ gap)) rest

/-- A piece that gives no token, in front of `after`. -/
inductive Skipped (after : Text) : Text → Prop
  | blank {u : CodeUnit} (isBlank : u.isBlank) : Skipped after [u]
  | lineComment {body : Text} (inside : CodeUnit.lineFeed ∉ body)
      (ends : ∀ u ∈ after.head?, u = .lineFeed) : Skipped after ('/' :: '/' :: body)
  | blockComment {body : Text} (inside : ¬ commentEnd <:+: body ++ [('*' : CodeUnit)]) :
      Skipped after ('/' :: '*' :: (body ++ commentEnd))

theorem startsWith_iff {t : Text} {u : CodeUnit} :
    t.startsWith u = true ↔ ∃ rest : Text, t = u :: rest := by
  cases t <;> simp [startsWith]

/-- The longest run of units that `p` accepts, and what is behind it. -/
theorem exists_takeWhile (p : CodeUnit → Bool) (t : Text) : ∃ body after : Text,
    t = body ++ after ∧ t.takeWhile p = body ∧ body.all p ∧ after.head?.any p = false := by
  refine ⟨t.takeWhile p, t.dropWhile p, List.takeWhile_append_dropWhile.symm, rfl, ?_, ?_⟩
  · exact List.all_eq_true.2 fun u member => List.mem_takeWhile_imp member
  · have first := List.head?_dropWhile_not p t
    cases next : (t.dropWhile p).head? with
    | none => rfl
    | some u =>
      rw [next] at first
      simpa using first

/-- A pointed number is digits, a point and digits. -/
theorem isPointed_cases {t : Text} (pointed : t.isPointed) : ∃ whole fraction : Text,
    t = whole ++ ('.' : CodeUnit) :: fraction ∧ whole.isWhole ∧ fraction.isWhole := by
  obtain ⟨whole, rest, same, front, -⟩ := exists_takeWhile (·.isDigit) t
  simp only [isPointed, front, Bool.and_eq_true] at pointed
  obtain ⟨⟨wholeDigits, point⟩, digits⟩ := pointed
  rw [same, List.drop_left] at point digits
  obtain ⟨fraction, rfl⟩ := startsWith_iff.1 point
  exact ⟨whole, fraction, same, wholeDigits, digits⟩

end Text

namespace TokenKind

/-- Whether the spelling of a token of some kind cannot go on in the text behind it. -/
def endsAt : TokenKind → Text → Bool
  | identifier, rest | ifWord, rest | elseWord, rest | whileWord, rest | forWord, rest
  | returnWord, rest | mainWord, rest | typeWord _, rest => !rest.head?.any (·.isWordUnit)
  | intLiteral, rest =>
    !rest.head?.any (·.isDigit) &&
      !(Text.startsWith rest '.' && (rest.drop 1).head?.any (·.isDigit))
  | floatLiteral, rest => !rest.head?.any (·.isDigit)
  | assign, rest | bang, rest | operator .less, rest | operator .greater, rest =>
    !Text.startsWith rest '='
  | operator .div, rest => !(Text.startsWith rest '/' || Text.startsWith rest '*')
  | _, _ => true

end TokenKind

namespace Piece

/-- A piece stands where it was found: it extends every gap behind it, or it is the spelling of a
token that could not be longer. -/
def Stands (kind? : Option TokenKind) (spelling after : Text) : Prop :=
  match kind? with
  | none => ∀ gap rest, after = gap ++ rest → Text.Gap gap rest → Text.Gap (spelling ++ gap) rest
  | some kind => kind ≠ .endOfInput ∧ kind.spells spelling ∧ kind.endsAt after

/-- A piece takes units of `rest` behind the unit `u`, and stands there. -/
def FoundAt (u : CodeUnit) (rest : Text) (piece : Piece) : Prop :=
  ∃ taken after, rest = taken ++ after ∧ piece.more = taken.length ∧
    Stands piece.kind? (u :: taken) after

/-- A gap takes units of `rest` behind the unit `u`. -/
def SkippedAt (u : CodeUnit) (rest : Text) (piece : Piece) : Prop :=
  piece.kind? = none ∧ ∃ taken after, rest = taken ++ after ∧ piece.more = taken.length ∧
    Text.Skipped after (u :: taken)

variable {u : CodeUnit} {rest : Text} {piece : Piece}

/-! ## Gaps -/

/-- What is skipped extends every gap behind it. -/
theorem SkippedAt.foundAt (skipped : SkippedAt u rest piece) : FoundAt u rest piece := by
  obtain ⟨gap, taken, after, rfl, more, skipped⟩ := skipped
  refine ⟨taken, after, rfl, more, ?_⟩
  rw [gap]
  rintro gap rest rfl others
  cases skipped with
  | blank isBlank => exact .blank isBlank others
  | lineComment inside ends =>
    exact .lineComment (fun v member same => inside (same ▸ member)) ends others
  | blockComment inside => exact .blockComment inside others

theorem blank_skippedAt (blank : u.isBlank) : SkippedAt u rest ⟨none, 0⟩ :=
  ⟨rfl, [], rest, rfl, rfl, .blank blank⟩

theorem lineComment_skippedAt : SkippedAt '/' ('/' :: rest) (lineComment ('/' :: rest)) := by
  obtain ⟨body, after, same, taken, inside, ends⟩ := Text.exists_takeWhile (· ≠ .lineFeed) rest
  refine ⟨rfl, '/' :: body, after, by rw [same, List.cons_append], ?_, ?_⟩
  · have slash : ('/' : CodeUnit) ≠ .lineFeed := by decide
    rw [lineComment, List.takeWhile_cons_of_pos (by simpa using slash), taken]
  · refine .lineComment (fun member => by simpa using List.all_eq_true.1 inside _ member) ?_
    intro v member
    rw [Option.mem_def] at member
    simpa [member] using ends

/-- The first `*/` of a text, when there is one. -/
theorem commentEnd?_eq_some {t : Text} {n : Nat} (closed : commentEnd? t = some n) :
    ∃ body after : Text, t = body ++ Text.commentEnd ++ after ∧ n = body.length + 2 ∧
      ¬ Text.commentEnd <:+: body ++ [('*' : CodeUnit)] := by
  induction t generalizing n with
  | nil => cases closed
  | cons v tail ih =>
    rw [commentEnd?] at closed
    split at closed
    next here =>
      obtain ⟨rfl, slash⟩ := here
      obtain ⟨after, rfl⟩ := Text.startsWith_iff.1 slash
      refine ⟨[], after, rfl, (Option.some.inj closed).symm, fun early => ?_⟩
      exact absurd early.length_le (by decide)
    next later =>
      obtain ⟨m, closedLater, rfl⟩ := Option.map_eq_some_iff.1 closed
      obtain ⟨body, after, rfl, rfl, inside⟩ := ih closedLater
      refine ⟨v :: body, after, rfl, rfl, fun early => ?_⟩
      rcases List.infix_cons_iff.1 early with front | early
      · -- The comment would have been closed at `v`.
        obtain ⟨isStar, slash⟩ := List.cons_prefix_cons.1 front
        refine later ⟨isStar.symm, ?_⟩
        cases body with
        | nil => exact absurd (List.cons_prefix_cons.1 slash).1 (by decide)
        | cons w body =>
          obtain ⟨rfl, -⟩ := List.cons_prefix_cons.1 slash
          rfl
      · exact inside early

theorem blockComment_skippedAt (found : blockComment rest = .ok piece) :
    SkippedAt '/' ('*' :: rest) piece := by
  unfold blockComment at found
  split at found
  case h_1 n closed =>
    obtain rfl := Except.ok.inj found
    obtain ⟨body, after, rfl, rfl, inside⟩ := commentEnd?_eq_some closed
    exact ⟨rfl, '*' :: (body ++ Text.commentEnd), after, rfl, by simp [Text.commentEnd],
      .blockComment inside⟩
  case h_2 => cases found

/-! ## Operators and punctuation -/

/-- No spelling begins one that comes later. -/
theorem fixed_pairwise : TokenKind.fixed.Pairwise fun a b => ¬ a.1 <+: b.1 := by
  decide

/-- The first spelling that a text begins with is the longest one. -/
theorem fixed_longest {text : Text} {entry other : Text × TokenKind}
    (first : (TokenKind.fixed.find? fun entry => entry.1.isPrefixOf text) = some entry)
    (member : other ∈ TokenKind.fixed) (starts : other.1 <+: text) : other.1 <+: entry.1 := by
  obtain ⟨matching, before, after, split, earlier⟩ := List.find?_eq_some_iff_append.1 first
  have starts' : entry.1 <+: text := List.isPrefixOf_iff_prefix.1 matching
  rw [split, List.mem_append, List.mem_cons] at member
  rcases member with member | rfl | member
  · have none := earlier other member
    simp [List.isPrefixOf_iff_prefix.2 starts] at none
  · exact List.prefix_refl _
  · rcases List.prefix_or_prefix_of_prefix starts starts' with begins | begins
    · exact begins
    · have ordered := fixed_pairwise
      rw [split, List.pairwise_append] at ordered
      exact absurd begins ((List.pairwise_cons.1 ordered.2.1).1 other member)

/-- An operator that goes on with `=` in the text is found as the longer operator. -/
theorem fixed_not_continued {spelling : Text} {kind : TokenKind}
    (first : (TokenKind.fixed.find? fun entry => entry.1.isPrefixOf (spelling ++ rest)) =
      some (spelling, kind))
    (longer : spelling ++ [('=' : CodeUnit)] ∈ TokenKind.fixed.map (·.1)) :
    rest.startsWith '=' = false := by
  by_contra goesOn
  rw [Bool.not_eq_false, Text.startsWith_iff] at goesOn
  obtain ⟨tail, rfl⟩ := goesOn
  obtain ⟨⟨_, kind⟩, member, rfl⟩ := List.mem_map.1 longer
  have longest : spelling ++ [('=' : CodeUnit)] <+: spelling :=
    fixed_longest first member ⟨tail, by simp⟩
  have length := longest.length_le
  rw [List.length_append, List.length_singleton] at length
  omega

/-- The kinds with one spelling that are no words end as they should: the longer operators were
tried first, and no comment starts there. -/
theorem fixed_endsAt {spelling : Text} {kind : TokenKind}
    (first : (TokenKind.fixed.find? fun entry => entry.1.isPrefixOf (spelling ++ rest)) =
      some (spelling, kind))
    (noComment : spelling = [('/' : CodeUnit)] →
      rest.startsWith '/' = false ∧ rest.startsWith '*' = false) :
    kind.endsAt rest := by
  have member := List.mem_of_find?_eq_some first
  have spellings : ∀ entry ∈ TokenKind.fixed, entry.1 = entry.2.spelling := by decide
  obtain rfl : spelling = kind.spelling := spellings _ member
  cases kind with
  | assign | bang => simp [TokenKind.endsAt, fixed_not_continued first (by decide)]
  | operator op =>
    cases op with
    | less | greater => simp [TokenKind.endsAt, fixed_not_continued first (by decide)]
    | div => simp [TokenKind.endsAt, noComment (by decide)]
    | _ => rfl
  | identifier | ifWord | elseWord | whileWord | forWord | returnWord | mainWord | typeWord _
  | intLiteral | floatLiteral => simp [TokenKind.fixed] at member
  | _ => rfl

theorem fixed_foundAt (noLine : ¬ (u = '/' ∧ rest.startsWith '/'))
    (noBlock : ¬ (u = '/' ∧ rest.startsWith '*')) (found : fixed? (u :: rest) = some piece) :
    FoundAt u rest piece := by
  obtain ⟨⟨spelling, kind⟩, first, rfl⟩ := Option.map_eq_some_iff.1 found
  have entries : ∀ entry ∈ TokenKind.fixed, entry.1 ≠ [] ∧ entry.2 ≠ .endOfInput ∧
      entry.2.spells entry.1 := by
    decide
  obtain ⟨nonempty, noEnd, spells⟩ := entries _ (List.mem_of_find?_eq_some first)
  have starts : spelling <+: u :: rest :=
    List.isPrefixOf_iff_prefix.1 (List.find?_eq_some_iff_append.1 first).1
  obtain ⟨v, taken, rfl⟩ := List.exists_cons_of_ne_nil nonempty
  obtain ⟨rfl, after, rfl⟩ := List.cons_prefix_cons.1 starts
  rw [← List.cons_append] at first
  refine ⟨taken, after, rfl, rfl, noEnd, spells, fixed_endsAt first fun slash => ?_⟩
  obtain ⟨rfl, rfl⟩ := List.cons.inj slash
  simpa using And.intro noLine noBlock

/-! ## Strings, words and numbers -/

theorem stringLiteral_foundAt (found : stringLiteral rest = .ok piece) :
    FoundAt .quote rest piece := by
  obtain ⟨body, after, rfl, taken, inside, -⟩ :=
    Text.exists_takeWhile (fun v => v ≠ .quote ∧ v ≠ .lineFeed) rest
  simp only [stringLiteral, taken, List.drop_left'] at found
  split at found
  case isTrue closed =>
    obtain rfl := Except.ok.inj found
    obtain ⟨after, rfl⟩ := Text.startsWith_iff.1 closed
    refine ⟨body ++ [.quote], after, by simp, by simp, by decide, ?_, rfl⟩
    simpa [TokenKind.spells, Text.isQuoted] using inside
  case isFalse => cases found

/-- A whole word is spelt by the kind that it has. -/
theorem spells_ofWord {t : Text} (isWord : t.isWord) : (TokenKind.ofWord t).spells t := by
  have entries : ∀ entry ∈ TokenKind.keywords, entry.2.spells entry.1 := by decide
  rw [TokenKind.ofWord]
  cases reserved : TokenKind.keywords.lookup t with
  | none => simp [TokenKind.spells, isWord, reserved]
  | some kind =>
    obtain ⟨before, after, split, -⟩ := List.lookup_eq_some_iff.1 reserved
    exact entries (t, kind) (by simp [split])

/-- Whatever kind a word has, it ends where no unit of a word follows. -/
theorem endsAt_ofWord {t after : Text} (ends : after.head?.any (·.isWordUnit) = false) :
    (TokenKind.ofWord t).endsAt after ∧ TokenKind.ofWord t ≠ .endOfInput := by
  have entries : ∀ entry ∈ TokenKind.keywords, entry.2.endsAt after ∧ entry.2 ≠ .endOfInput := by
    simp [TokenKind.keywords, TokenKind.endsAt, ends]
  rw [TokenKind.ofWord]
  cases reserved : TokenKind.keywords.lookup t with
  | none => simp [TokenKind.endsAt, ends]
  | some kind =>
    obtain ⟨before, after, split, -⟩ := List.lookup_eq_some_iff.1 reserved
    exact entries (t, kind) (by simp [split])

theorem word_foundAt (starts : u.isWordStart) : FoundAt u rest (word u rest) := by
  obtain ⟨body, after, rfl, taken, inside, ends⟩ := Text.exists_takeWhile (·.isWordUnit) rest
  have isWord : Text.isWord (u :: body) := by simp [Text.isWord, starts, inside]
  obtain ⟨stops, noEnd⟩ : (TokenKind.ofWord (u :: body)).endsAt after ∧ _ := endsAt_ofWord ends
  refine ⟨body, after, rfl, by simp [word, taken], ?_⟩
  simp only [word, taken]
  exact ⟨noEnd, spells_ofWord isWord, stops⟩

theorem number_foundAt (digit : u.isDigit) : FoundAt u rest (number rest) := by
  obtain ⟨whole, tail, rfl, takenWhole, insideWhole, endsWhole⟩ :=
    Text.exists_takeWhile (·.isDigit) rest
  obtain ⟨fraction, after, same, takenFraction, insideFraction, endsFraction⟩ :=
    Text.exists_takeWhile (·.isDigit) (tail.drop 1)
  have dropped : (whole ++ tail).drop (whole.length + 1) = tail.drop 1 := by
    rw [← List.drop_drop, List.drop_left]
  simp only [number, takenWhole, dropped, takenFraction, List.drop_left']
  split
  case isTrue pointed =>
    obtain ⟨point, some⟩ := pointed
    obtain ⟨tail, rfl⟩ := Text.startsWith_iff.1 point
    obtain rfl : tail = fraction ++ after := same
    have digits : ∀ v ∈ u :: whole, v.isDigit := by simpa [digit] using insideWhole
    have noDigit : ¬ CodeUnit.isDigit '.' := by decide
    have front : (u :: (whole ++ ('.' : CodeUnit) :: fraction)).takeWhile (·.isDigit) =
        u :: whole := by
      rw [← List.cons_append, List.takeWhile_append_of_pos digits,
        List.takeWhile_cons_of_neg noDigit, List.append_nil]
    refine ⟨whole ++ ('.' : CodeUnit) :: fraction, after, by simp, by simp; omega, by decide,
      ?_, ?_⟩
    · have nonempty : fraction ≠ [] := List.ne_nil_of_length_pos some
      simp [TokenKind.spells, Text.isPointed, front, Text.isWhole, digit, insideWhole,
        insideFraction, Text.startsWith, nonempty]
    · simpa [TokenKind.endsAt] using endsFraction
  case isFalse plain =>
    refine ⟨whole, tail, rfl, rfl, by decide, ?_, ?_⟩
    · simp [TokenKind.spells, Text.isWhole, digit, insideWhole]
    · cases point : Text.startsWith tail '.' with
      | false => simp [TokenKind.endsAt, endsWhole, point]
      | true =>
        have empty : fraction = [] := by simpa [point] using plain
        have noFraction : (tail.drop 1).head?.any (·.isDigit) = false := by
          rw [same, empty, List.nil_append]
          exact endsFraction
        simp only [TokenKind.endsAt, endsWhole, noFraction, Bool.and_false, Bool.not_false,
          Bool.and_true]

/-! ## Starts of texts -/

/-- The ways in which a text can start, in the order in which they are tried, each with what is found
there. -/
inductive Starts (u : CodeUnit) (rest : Text) : Except Fault Piece → Prop
  | blank (isBlank : u.isBlank) : Starts u rest (.ok ⟨none, 0⟩)
  | lineComment {body : Text} (first : u = '/') (second : rest = ('/' : CodeUnit) :: body) :
      Starts u rest (.ok (lineComment rest))
  | blockComment {body : Text} {found : Except Fault Piece} (first : u = '/')
      (second : rest = ('*' : CodeUnit) :: body) (same : blockComment body = found) :
      Starts u rest found
  | fixed {piece : Piece} (noLine : ¬ (u = '/' ∧ rest.startsWith '/'))
      (noBlock : ¬ (u = '/' ∧ rest.startsWith '*')) (same : fixed? (u :: rest) = some piece) :
      Starts u rest (.ok piece)
  | stringLiteral {found : Except Fault Piece} (quote : u = .quote)
      (same : stringLiteral rest = found) : Starts u rest found
  | word (start : u.isWordStart) : Starts u rest (.ok (word u rest))
  | number (digit : u.isDigit) : Starts u rest (.ok (number rest))
  | nothing (visible : u.isBlank = false) (noFixed : fixed? (u :: rest) = none)
      (noQuote : u ≠ .quote) (noWord : u.isWordStart = false) (noDigit : u.isDigit = false) :
      Starts u rest (.error (.unexpectedUnit u))

theorem starts (u : CodeUnit) (rest : Text) : Starts u rest (atHead u rest) := by
  unfold atHead
  split
  case isTrue blank => exact .blank blank
  rename_i visible
  split
  case isTrue line =>
    obtain ⟨body, second⟩ := Text.startsWith_iff.1 line.2
    exact .lineComment line.1 second
  split
  case isTrue block =>
    obtain ⟨body, second⟩ := Text.startsWith_iff.1 block.2
    exact .blockComment block.1 second (by rw [second, List.drop_one, List.tail_cons])
  rename_i noLine noBlock
  split
  case h_1 other => exact .fixed noLine noBlock other
  rename_i noFixed
  split
  case isTrue quote => exact .stringLiteral quote rfl
  split
  case isTrue start => exact .word start
  split
  case isTrue digit => exact .number digit
  rename_i noQuote noWord noDigit
  exact .nothing (by simpa using visible) (Option.eq_none_iff_forall_ne_some.2 noFixed) noQuote
    (by simpa using noWord) (by simpa using noDigit)

/-- Whatever stands at the start of a text takes its units off it and stands there. -/
theorem atHead_foundAt (found : atHead u rest = .ok piece) : FoundAt u rest piece := by
  have starts := starts u rest
  rw [found] at starts
  cases starts with
  | blank isBlank => exact (blank_skippedAt isBlank).foundAt
  | lineComment first second =>
    subst first second
    exact lineComment_skippedAt.foundAt
  | blockComment first second same =>
    subst first second
    exact (blockComment_skippedAt same).foundAt
  | fixed noLine noBlock same => exact fixed_foundAt noLine noBlock same
  | stringLiteral quote same => exact quote ▸ stringLiteral_foundAt same
  | word start => exact word_foundAt start
  | number digit => exact number_foundAt digit

/-- What gives no token is skipped. -/
theorem atHead_skippedAt (found : atHead u rest = .ok piece) (gap : piece.kind? = none) :
    SkippedAt u rest piece := by
  have starts := starts u rest
  rw [found] at starts
  cases starts with
  | blank isBlank => exact blank_skippedAt isBlank
  | lineComment first second =>
    subst first second
    exact lineComment_skippedAt
  | blockComment first second same =>
    subst first second
    exact blockComment_skippedAt same
  | fixed noLine noBlock same =>
    obtain ⟨entry, -, rfl⟩ := Option.map_eq_some_iff.1 same
    cases gap
  | stringLiteral quote same =>
    simp only [stringLiteral] at same
    split at same
    · obtain rfl := Except.ok.inj same
      cases gap
    · cases same
  | word start => cases gap
  | number digit =>
    simp only [number] at gap
    split at gap <;> cases gap

end Piece

end ProcCheck
