import ProcCheck.Grammar.Program

/-!
# Goals

Which kinds of tokens can stand next is told by a stack of goals: what is still to be read, the
innermost first. One token is looked at a time, and only its kind counts. Some goals are optional;
one of them is given up by a token that it has no use for. With no goal left the next token starts
a declaration or a statement at the top level.

Every stack of goals can be met by some further tokens, so a token that is refused by the goals is
the first one that no program can have in its place.
-/

namespace ProcCheck

/-- Whether a kind of token neither stands between two operands or items nor ends the input. -/
def TokenKind.isPlain : TokenKind → Bool
  | comma | operator _ | endOfInput => false
  | _ => true

namespace Grammar

/-- What is still to be read. -/
inductive Goal where
  /-- A token of one kind. -/
  | token (kind : TokenKind) (plain : kind.isPlain := by decide)
  /-- A declaration or a statement at the top level. -/
  | top
  /-- What is behind a type at the top level. -/
  | topName
  /-- What is behind a type and a name at the top level. -/
  | topRest
  /-- The parameters of a function with the parenthesis that closes them. -/
  | parameters
  | parameter
  /-- Further parameters, each with a comma. -/
  | moreParameters
  | statement
  /-- Statements with the brace that closes them. -/
  | statements
  /-- The alternative of a branch. -/
  | alternative
  /-- What is behind the name of a variable. -/
  | initial
  /-- The first clause of a counting loop with its semicolon. -/
  | firstClause
  /-- An expression, unless there is none, with the token that ends it. -/
  | clause (stop : TokenKind) (plain : stop.isPlain := by decide)
  | expression
  | operand
  /-- An operand without operators in front of it. -/
  | primary
  /-- What is behind an operand: operators, each with an operand. -/
  | operators
  /-- What is behind an identifier that an expression starts with. -/
  | target
  /-- What is behind an identifier that is an operand. -/
  | name
  /-- The arguments of a call with the parenthesis that closes them. -/
  | arguments
  /-- Further arguments, each with a comma. -/
  | moreArguments

namespace Goal

/-! ## One token -/

/-- A condition in parentheses. -/
def condition : List Goal := [token .openParen, expression, token .closeParen]

/-- Statements in braces. -/
def body : List Goal := [token .openBrace, statements]

/-- A function from the parenthesis behind its name on. -/
def function : List Goal := [token .openParen, parameters] ++ body

/-- The first clause of a counting loop and all behind it, without its parenthesis. -/
def clauses : List Goal := [firstClause, clause .semicolon, clause .closeParen]

/-- What is left of an operand without operators in front of it behind a token that it starts
with. -/
def primaryAfter : TokenKind → Option (List Goal)
  | .identifier => some [name]
  | .mainWord => some [token .openParen, arguments]
  | .intLiteral | .floatLiteral | .stringLiteral => some []
  | .openParen => some [expression, token .closeParen]
  | _ => none

/-- What is left of an operand behind a token that it starts with. -/
def operandAfter (kind : TokenKind) : Option (List Goal) :=
  if kind.prefixOp?.isSome then some [operand] else primaryAfter kind

/-- What is left of an expression behind a token that it starts with. -/
def expressionAfter : TokenKind → Option (List Goal)
  | .identifier => some [target]
  | kind => (operandAfter kind).map (· ++ [operators])

/-- What is left of a parameter behind a token that it starts with. -/
def parameterAfter (kind : TokenKind) : Option (List Goal) :=
  if kind.isType then some [token .identifier] else none

/-- What is left of a statement behind a token that it starts with. -/
def statementAfter : TokenKind → Option (List Goal)
  | .typeWord _ => some [token .identifier, initial]
  | .ifWord => some (condition ++ body ++ [alternative])
  | .whileWord => some (condition ++ body)
  | .forWord => some (token .openParen :: (clauses ++ body))
  | .returnWord => some [clause .semicolon]
  | .openBrace => some [statements]
  | kind => (expressionAfter kind).map (· ++ [token .semicolon])

/-- What is left of a declaration or statement at the top level behind a token that it starts
with. -/
def topAfter (kind : TokenKind) : Option (List Goal) :=
  if kind.isType then some [topName] else statementAfter kind

/-- What is left of a goal behind a token, if the goal has a use for it. -/
def after : Goal → TokenKind → Option (List Goal)
  | token wanted _, kind => if kind = wanted then some [] else none
  | top, kind => topAfter kind
  | topName, .identifier => some [topRest]
  | topName, .mainWord => some function
  | topRest, .assign => some [expression, token .semicolon]
  | topRest, .semicolon => some []
  | topRest, .openParen => some (parameters :: body)
  | parameters, .closeParen => some []
  | parameters, kind => (parameterAfter kind).map (· ++ [moreParameters, token .closeParen])
  | parameter, kind => parameterAfter kind
  | moreParameters, .comma => some [parameter, moreParameters]
  | statement, kind => statementAfter kind
  | statements, .closeBrace => some []
  | statements, .semicolon => some [statements]
  | statements, kind => (statementAfter kind).map (· ++ [statements])
  | alternative, .elseWord => some body
  | initial, .assign => some [expression, token .semicolon]
  | initial, .semicolon => some []
  | firstClause, .semicolon => some []
  | firstClause, .typeWord _ => some [token .identifier, initial]
  | firstClause, kind => (expressionAfter kind).map (· ++ [token .semicolon])
  | clause stop plain, kind =>
    if kind = stop then some [] else (expressionAfter kind).map (· ++ [token stop plain])
  | expression, kind => expressionAfter kind
  | operand, kind => operandAfter kind
  | primary, kind => primaryAfter kind
  | operators, .operator _ => some [operand, operators]
  | target, .assign => some [expression]
  | target, .openParen => some [arguments, operators]
  | target, .operator _ => some [operand, operators]
  | name, .openParen => some [arguments]
  | arguments, .closeParen => some []
  | arguments, kind =>
    (expressionAfter kind).map (· ++ [moreArguments, token .closeParen])
  | moreArguments, .comma => some [expression, moreArguments]
  | _, _ => none

/-- Whether nothing has to be read for a goal. -/
def optional : Goal → Bool
  | moreParameters | alternative | operators | target | name | moreArguments => true
  | _ => false

/-- The goals behind a token, if it can stand next. -/
def step : List Goal → TokenKind → Option (List Goal)
  | [], kind => if kind = .semicolon then some [] else topAfter kind
  | goal :: goals, kind =>
    match goal.after kind with
    | some new => some (new ++ goals)
    | none => if goal.optional then step goals kind else none

/-- The goals behind some tokens, if all of them can stand in their places. -/
def run : List Goal → List TokenKind → Option (List Goal)
  | goals, [] => some goals
  | goals, kind :: kinds => (step goals kind).bind (run · kinds)

/-- The tokens from the first one on that cannot stand in its place. The input ends with its last
token or in front of an end token; it is in the place if all goals that are left are optional. -/
def stuck : List Goal → List Token → Option (List Token)
  | goals, [] => if goals.all optional then none else some []
  | goals, t :: rest =>
    match step goals t.kind with
    | some later => stuck later rest
    | none => if t.isEnd ∧ goals.all optional then none else some (t :: rest)

variable {goal : Goal} {goals later new : List Goal} {kind : TokenKind} {t : Token}
  {ts used rest left : List Token}

theorem step_after (reads : goal.after kind = some new) :
    step (goal :: goals) kind = some (new ++ goals) := by
  rw [step, reads]

theorem step_given_up (optional : goal.optional) (useless : goal.after kind = none) :
    step (goal :: goals) kind = step goals kind := by
  rw [step, useless]
  exact if_pos optional

theorem step_refused (required : goal.optional = false) (useless : goal.after kind = none) :
    step (goal :: goals) kind = none := by
  rw [step, useless]
  exact if_neg (by simp [required])

theorem stuck_step (next : step goals t.kind = some later) :
    stuck goals (t :: rest) = stuck later rest := by
  rw [stuck, next]

theorem stuck_required (required : goal.optional = false)
    (useless : ∀ t ∈ ts.head?, goal.after t.kind = none) : stuck (goal :: goals) ts = some ts := by
  cases ts with
  | nil => simp [stuck, required]
  | cons t rest => simp [stuck, step_refused required (useless t rfl), required]

/-- Goals that go the same way behind the next token are stuck in the same place. -/
theorem stuck_congr (first : ∀ t ∈ ts.head?, step goals t.kind = step later t.kind)
    (ends : (∀ t ∈ ts.head?, t.isEnd) → goals.all optional = later.all optional) :
    stuck goals ts = stuck later ts := by
  cases ts with
  | nil => rw [stuck, stuck, ends (by simp)]
  | cons t rest =>
    rw [stuck, stuck, first t rfl]
    by_cases isEnd : t.isEnd
    · rw [ends (by simpa using isEnd)]
    · simp [isEnd]

theorem stuck_given_up (optional : goal.optional)
    (useless : ∀ t ∈ ts.head?, goal.after t.kind = none) :
    stuck (goal :: goals) ts = stuck goals ts := by
  refine stuck_congr (fun t member => step_given_up optional (useless t member)) fun _ => ?_
  rw [List.all_cons, optional, Bool.true_and]

/-- A goal that starts as another one does, with more behind it. -/
theorem step_map {first : Goal} (more : List Goal) (required : goal.optional = false)
    (firstRequired : first.optional = false)
    (same : goal.after kind = (first.after kind).map (· ++ more)) :
    step (goal :: goals) kind = step (first :: (more ++ goals)) kind := by
  cases reads : first.after kind with
  | none =>
    rw [reads] at same
    rw [step_refused required same, step_refused firstRequired reads]
  | some new =>
    rw [reads] at same
    rw [step_after same, step_after reads, List.append_assoc]

theorem stuck_map {first : Goal} (more : List Goal) (required : goal.optional = false)
    (firstRequired : first.optional = false)
    (same : ∀ t ∈ ts.head?, goal.after t.kind = (first.after t.kind).map (· ++ more)) :
    stuck (goal :: goals) ts = stuck (first :: (more ++ goals)) ts := by
  refine stuck_congr (fun t member => step_map more required firstRequired (same t member)) fun _ => ?_
  rw [List.all_cons, List.all_cons, required, firstRequired, Bool.false_and, Bool.false_and]

theorem stuck_same {first : Goal} (required : goal.optional = false)
    (firstRequired : first.optional = false)
    (same : ∀ t ∈ ts.head?, goal.after t.kind = first.after t.kind) :
    stuck (goal :: goals) ts = stuck (first :: goals) ts :=
  stuck_map [] required firstRequired fun t member => by simpa using same t member

/-! ## Many tokens -/

theorem run_append {first second : List TokenKind} :
    run goals (first ++ second) = (run goals first).bind (run · second) := by
  induction first generalizing goals with
  | nil => rfl
  | cons kind first ih =>
    rw [List.cons_append, run, run]
    cases step goals kind with
    | none => rfl
    | some later => exact ih

theorem stuck_run (reached : run goals (used.map (·.kind)) = some later) :
    stuck goals (used ++ rest) = stuck later rest := by
  induction used generalizing goals with
  | nil =>
    cases reached
    rfl
  | cons t used ih =>
    obtain ⟨mid, next, further⟩ := Option.bind_eq_some_iff.1 reached
    rw [List.cons_append, stuck_step next, ih further]

/-- No goal has a use for what ends the input. -/
theorem after_endOfInput (goal : Goal) : goal.after .endOfInput = none := by
  cases goal with
  | token kind plain => exact if_neg (by rintro rfl; cases plain)
  | clause stop plain =>
    rw [after, if_neg (by rintro rfl; cases plain)]
    rfl
  | _ => rfl

theorem step_endOfInput (goals : List Goal) : step goals .endOfInput = none := by
  induction goals with
  | nil => rfl
  | cons goal goals ih => rw [step, after_endOfInput, ih, ite_self]

theorem stuck_ended (met : goals.all optional) (ends : ∀ t ∈ ts.head?, t.isEnd) :
    stuck goals ts = none := by
  cases ts with
  | nil => rw [stuck, if_pos met]
  | cons t rest =>
    have isEnd : t.isEnd := ends t rfl
    have kind : t.kind = .endOfInput := of_decide_eq_true isEnd
    rw [stuck, kind, step_endOfInput]
    exact if_pos ⟨isEnd, met⟩

/-- What is behind an end token does not count. -/
theorem stuck_takeWhile :
    stuck goals (ts.takeWhile (!·.isEnd)) = none ↔ stuck goals ts = none := by
  induction ts generalizing goals with
  | nil => rfl
  | cons t rest ih =>
    by_cases isEnd : t.isEnd
    · have kind : t.kind = .endOfInput := of_decide_eq_true isEnd
      rw [List.takeWhile_cons_of_neg (by simp [isEnd]), stuck, stuck, kind, step_endOfInput]
      simp [isEnd]
    · rw [List.takeWhile_cons_of_pos (by simp [isEnd]), stuck, stuck]
      cases step goals t.kind with
      | none => simp [isEnd]
      | some later => exact ih

/-- A kind of token that cannot stand next; what ends the input cannot while a goal is required. -/
def Refuses (goals : List Goal) (kind : TokenKind) : Prop :=
  step goals kind = none ∧ (kind = .endOfInput → goals.all optional = false)

/-- The kind of the first of some tokens, or what ends the input. -/
def nextKind (ts : List Token) : TokenKind := (ts.head?.map (·.kind)).getD .endOfInput

/-- Goals are stuck behind tokens that can stand in their places, at one that cannot. -/
theorem stuck_eq_some : stuck goals ts = some left ↔
    ∃ used later, ts = used ++ left ∧ run goals (used.map (·.kind)) = some later ∧
      Refuses later (nextKind left) := by
  constructor
  · intro stops
    induction ts generalizing goals with
    | nil =>
      rw [stuck] at stops
      split at stops
      next => cases stops
      next required =>
        cases stops
        exact ⟨[], goals, rfl, rfl, step_endOfInput goals, fun _ => Bool.eq_false_iff.2 required⟩
    | cons t rest ih =>
      rw [stuck] at stops
      split at stops
      next mid next =>
        obtain ⟨used, later, rfl, reached, refuses⟩ := ih stops
        refine ⟨t :: used, later, rfl, ?_, refuses⟩
        rw [List.map_cons, run, next]
        exact reached
      next refused =>
        split at stops
        next => cases stops
        next required =>
          cases stops
          refine ⟨[], goals, rfl, rfl, refused, fun isEnd => ?_⟩
          rw [not_and, Bool.not_eq_true] at required
          exact required (decide_eq_true isEnd)
  · rintro ⟨used, later, rfl, reached, refused, required⟩
    rw [stuck_run reached]
    cases left with
    | nil =>
      rw [stuck, required rfl]
      rfl
    | cons t left =>
      have here : step later t.kind = none := refused
      rw [stuck, here]
      refine if_neg fun ⟨isEnd, met⟩ => ?_
      rw [required (of_decide_eq_true isEnd)] at met
      cases met

/-- A token that is taken is not in the way any more. -/
theorem stuck_ne_self : stuck goals rest ≠ some (t :: rest) := by
  intro stops
  obtain ⟨used, _, same, -⟩ := stuck_eq_some.1 stops
  have := congrArg List.length same
  simp only [List.length_append, List.length_cons] at this
  omega

/-- Every kind of token has a use for some goal, apart from what ends the input. -/
theorem exists_after {kind : TokenKind} (noEnd : kind ≠ .endOfInput) :
    ∃ (goal : Goal) (new : List Goal), goal.after kind = some new := by
  cases plain : kind.isPlain with
  | true => exact ⟨token kind plain, [], if_pos rfl⟩
  | false =>
    cases kind <;> cases plain
    · exact ⟨moreArguments, _, rfl⟩
    · exact ⟨operators, _, rfl⟩
    · exact absurd rfl noEnd

theorem exists_refused (kind : TokenKind) : ∃ goal : Goal,
    goal.optional = false ∧ goal.after kind = none := by
  by_cases semicolon : kind = .semicolon
  · exact ⟨token .identifier, rfl, by rw [semicolon]; rfl⟩
  · exact ⟨token .semicolon, rfl, if_neg semicolon⟩

/-! ## Meeting goals -/

/-- Kinds of tokens that meet a goal. -/
def finish : Goal → List TokenKind
  | token kind _ => [kind]
  | top | statement => [.openBrace, .closeBrace]
  | topName => [.identifier, .semicolon]
  | topRest | initial | firstClause => [.semicolon]
  | parameter => [.typeWord .int, .identifier]
  | statements => [.closeBrace]
  | alternative => [.elseWord, .openBrace, .closeBrace]
  | clause stop _ => [stop]
  | expression | operand | primary => [.intLiteral]
  | target | name => [.openParen, .closeParen]
  | parameters | arguments => [.closeParen]
  | moreParameters | operators | moreArguments => []

/-- What these tokens leave of a goal: the goals that only a token can give up. -/
def unfinished : Goal → List Goal
  | expression | target => [operators]
  | moreParameters => [moreParameters]
  | operators => [operators]
  | moreArguments => [moreArguments]
  | _ => []

theorem run_finish (goal : Goal) (goals : List Goal) :
    run (goal :: goals) goal.finish = some (goal.unfinished ++ goals) := by
  cases goal <;> simp [run, step, after, finish, unfinished, topAfter, statementAfter, body,
    expressionAfter, operandAfter, primaryAfter, parameterAfter, TokenKind.isType,
    TokenKind.prefixOp?]

theorem finish_plain (goal : Goal) : ∀ kind ∈ goal.finish, kind.isPlain := by
  cases goal with
  | token kind plain => simpa [finish] using plain
  | clause stop plain => simpa [finish] using plain
  | _ => simp [finish, TokenKind.isPlain]

/-- What is left unfinished is given up by any plain token, and by the end. -/
theorem unfinished_optional (goal : Goal) : ∀ left ∈ goal.unfinished,
    left.optional ∧ ∀ kind : TokenKind, kind.isPlain → left.after kind = none := by
  have gives : ∀ left, (left = operators ∨ left = moreParameters ∨ left = moreArguments) →
      left.optional ∧ ∀ kind : TokenKind, kind.isPlain → left.after kind = none := by
    rintro left (rfl | rfl | rfl) <;> refine ⟨rfl, fun kind plain => ?_⟩ <;> cases kind <;>
      simp_all [after, TokenKind.isPlain]
  intro left member
  refine gives left ?_
  cases goal <;> simp_all [unfinished]

theorem step_unfinished {goals others : List Goal} {kind : TokenKind}
    (gives : ∀ left ∈ others, left.optional ∧ left.after kind = none) :
    step (others ++ goals) kind = step goals kind := by
  induction others with
  | nil => rfl
  | cons left others ih =>
    obtain ⟨⟨optional, useless⟩, gives⟩ := List.forall_mem_cons.1 gives
    rw [List.cons_append, step_given_up optional useless, ih gives]

/-- All goals can be met by some plain tokens. -/
theorem exists_finish (goals : List Goal) : ∃ kinds : List TokenKind, (∀ kind ∈ kinds, kind.isPlain) ∧
    ∃ later, run goals kinds = some later ∧ later.all optional := by
  induction goals with
  | nil => exact ⟨[], by simp, [], rfl, rfl⟩
  | cons goal goals ih =>
    obtain ⟨kinds, plain, later, reached, met⟩ := ih
    have gives := goal.unfinished_optional
    refine ⟨goal.finish ++ kinds, List.forall_mem_append.2 ⟨goal.finish_plain, plain⟩, ?_⟩
    rw [run_append, run_finish, Option.bind_some]
    cases kinds with
    | nil =>
      cases reached
      refine ⟨goal.unfinished ++ goals, rfl, ?_⟩
      rw [List.all_append, met, Bool.and_true, List.all_eq_true]
      exact fun left member => (gives left member).1
    | cons kind kinds =>
      refine ⟨later, ?_, met⟩
      rw [run, step_unfinished fun left member => ⟨(gives left member).1,
        (gives left member).2 kind (plain kind List.mem_cons_self)⟩]
      exact reached

end Goal

end Grammar

end ProcCheck
