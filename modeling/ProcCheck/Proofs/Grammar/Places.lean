import ProcCheck.Proofs.Grammar.Completeness
import ProcCheck.Proofs.Grammar.ExpressionPlaces
import ProcCheck.Proofs.Grammar.FirstError

/-!
# Programs by place

Reading by place gives what reading from the front of a list gives, and so it ends, looks at no place
outside the list and takes no end token. What stands behind the first end token is seen by a reader
that looks ahead, but the end token in front of it decides first.
-/

namespace ProcCheck

namespace Grammar

/-! ## Other ways to read -/

theorem varDecl_eq : varDecl = do
    let type ← expectWhere TokenKind.isType .variableName
    let name ← expect .identifier .variableName
    let init ← ifNext .assign expression
    let last ← expect .semicolon .declarationEnd
    return ⟨type.spelling, name.spelling, init, type.span ++ last.span⟩ := by
  unfold varDecl
  congr 1
  funext type
  congr 1
  funext name
  rw [ifNext, bind_assoc]
  congr 1
  funext sign
  cases sign
  · rfl
  · simp

theorem ifStmt_eq {body : Parse (Block Stmt)} {first : Token} : ifStmt body first = do
    let test ← condition .ifParen
    let thenBlock ← body
    let elseBlock ← ifNext .elseWord body
    return .branch test thenBlock elseBlock (first.span ++ (elseBlock.getD thenBlock).span) := by
  unfold ifStmt
  congr 1
  funext test
  congr 1
  funext thenBlock
  rw [ifNext, bind_assoc]
  congr 1
  funext word
  cases word
  · rfl
  · simp

/-- What does not start with a type is a statement. -/
theorem topLevel_statement {ts : List Token} (noType : ∀ t ∈ ts.head?, ¬ t.kind.isType) :
    topLevel ts = (TopLevel.statement <$> statement) ts := by
  cases ts with
  | nil => rfl
  | cons type rest =>
    have other : ¬ type.kind.isType := noType type rfl
    cases rest with
    | nil => exact if_neg other
    | cons name rest =>
      have noFunction : ¬ startsFunction (type :: name :: rest) :=
        fun starts => other (startsFunction_eq_true.1 starts).1
      exact (if_neg noFunction).trans (if_neg other)

end Grammar

namespace Cursor

variable {α : Type} {tokens ts rest used : List Token} {last t : Token} {c n bound rounds : Nat}

/-! ## Statements -/

section Statements

/-- The same block, read from the tokens that it covers. -/
abbrev CoversBlock (b a : Block Stmt) (used : List Token) : Prop :=
  a = b ∧ used ≠ [] ∧ b.span = (Token.excerpts used).span

variable {body : Grammar.Parse (Block Stmt)} {body' : Cursor (Block Stmt)}

theorem ifNext_expression {opening : TokenKind} (enough : n ≤ rounds) :
    Mirrors n Same (Grammar.ifNext opening Grammar.expression)
      (ifNext opening (expression rounds)) :=
  (ifNext_mirrors (expression_mirrors enough)).mono fun _ _ _ read => read.eq <| by
    rintro b a used ⟨_, _, -, covers⟩
    exact covers.1

theorem unlessNext_expression {ending : TokenKind} (enough : n ≤ rounds) :
    Mirrors n Same (Grammar.unlessNext ending Grammar.expression)
      (unlessNext ending (expression rounds)) :=
  (unlessNext_mirrors (expression_mirrors enough)).mono fun _ _ _ read => read.eq
    fun _ _ _ covers => covers.1

theorem varDecl_matches (enough : n ≤ rounds) (ahead : Ahead tokens last c (t :: rest))
    (isType : t.kind.isType) (short : rest.length < n) :
    Matches last Took c (t :: rest) (Grammar.varDecl (t :: rest)) (varDecl rounds tokens c) := by
  rw [Grammar.varDecl_eq, Grammar.bind_of_ok (Grammar.expectWhere_ok.2 ⟨rfl, isType⟩)]
  refine .located ahead (.behind ahead (Mirrors.bind consume_mirrors ?_ ahead.step short))
  rintro _ name _ ⟨rfl, rfl⟩
  refine (ifNext_expression (by omega)).bind ?_
  rintro _ init signed rfl
  refine consume_mirrors.bind ?_
  rintro _ final _ ⟨rfl, rfl⟩
  refine .pure ⟨by simp, ?_, by simp⟩
  simp [Token.excerpts_cons, Token.append_span_excerpts]

theorem exprStmt_mirrors (enough : n ≤ rounds) :
    Mirrors n Took Grammar.exprStmt (exprStmt rounds) := by
  intro tokens last c ts ahead short
  refine .located ahead (Mirrors.bind (expression_mirrors enough) ?_ ahead short)
  rintro _ e used ⟨rfl, moved, src⟩
  refine consume_mirrors.bind ?_
  rintro _ final _ ⟨rfl, rfl⟩
  refine .pure ⟨by simp, ?_, by simp⟩
  simp [Token.excerpts_append moved, Expr.span, src]

theorem returnStmt_matches (enough : n ≤ rounds) (ahead : Ahead tokens last c (t :: rest))
    (short : rest.length < n) :
    Matches last Took c (t :: rest) (Grammar.returnStmt t rest) (returnStmt rounds tokens c) := by
  refine .located ahead (.behind ahead (Mirrors.bind (unlessNext_expression enough) ?_ ahead.step
    short))
  rintro _ value used rfl
  refine consume_mirrors.bind ?_
  rintro _ final _ ⟨rfl, rfl⟩
  refine .pure ⟨by simp, ?_, by simp⟩
  simp [Token.excerpts_cons, Token.append_span_excerpts]

theorem block_mirrors {stmt : Grammar.Parse Stmt} {stmt' : Cursor Stmt}
    (mirrors : Mirrors n Took stmt stmt') (fits : n ≤ bound + 1) (enough : n ≤ rounds) :
    Mirrors (n + 1) CoversBlock (Grammar.block stmt bound) (block rounds stmt') := by
  intro tokens last c ts ahead short
  refine .located ahead (Mirrors.bind consume_mirrors ?_ ahead short)
  rintro _ first _ ⟨rfl, rfl⟩
  refine (sequence_mirrors fits enough mirrors ?_).bind ?_
  · intro tokens last c ts ahead
    rw [bind_of_ok ahead.check]
    cases ts with
    | nil =>
      rw [if_neg (by simp), bind_of_ok ahead.isAtEnd]
      rfl
    | cons t rest =>
      by_cases closes : t.kind = .closeBrace
      · rw [if_pos (by simpa using closes)]
        simp [closes]
        rfl
      · rw [if_neg (by simpa using closes), bind_of_ok ahead.isAtEnd]
        simp [closes]
        rfl
  rintro _ statements used rfl
  refine consume_mirrors.bind ?_
  rintro _ final _ ⟨rfl, rfl⟩
  refine .pure ⟨by simp, ?_, by simp, ?_⟩
  · simp [Token.excerpts_cons, Token.append_span_excerpts]
  · simp [Token.excerpts_cons, Token.append_span_excerpts]

theorem condition_mirrors {opening : Expectation} (enough : n ≤ rounds) :
    Mirrors n Took (Grammar.condition opening) (condition rounds opening) := by
  refine consume_mirrors.discard.bind ?_
  rintro _ _ _ ⟨t, -, rfl⟩
  refine (expression_mirrors (by omega)).bind ?_
  rintro _ e used ⟨rfl, moved, -⟩
  refine consume_mirrors.discard.bind ?_
  rintro _ _ _ ⟨u, -, rfl⟩
  exact .pure ⟨rfl, by simp⟩

theorem ifStmt_matches (enough : n ≤ rounds) (blocks : Mirrors n CoversBlock body body')
    (ahead : Ahead tokens last c (t :: rest)) (short : rest.length < n) :
    Matches last Took c (t :: rest) (Grammar.ifStmt body t rest) (ifStmt rounds body' tokens c) := by
  rw [Grammar.ifStmt_eq]
  refine .located ahead (.behind ahead (Mirrors.bind (condition_mirrors enough) ?_ ahead.step short))
  rintro _ test tested ⟨rfl, -⟩
  refine (blocks.fewer (Nat.sub_le _ _)).bind ?_
  rintro _ thenBlock thenUsed ⟨rfl, thenMoved, thenSpan⟩
  refine (ifNext_mirrors (blocks.fewer (by omega))).bind ?_
  rintro _ _ _ (⟨rfl, rfl, rfl⟩ | ⟨_, elseBlock, rfl, rfl, word, elseUsed, rfl, rfl, moved, span⟩)
  · refine .pure ⟨by simp, ?_, by simp⟩
    simp [Token.excerpts_cons, Token.append_span_excerpts, thenMoved, thenSpan]
  · refine .pure ⟨by simp, ?_, by simp⟩
    simp [Token.excerpts_cons, Token.append_span_excerpts, moved, span]

theorem whileStmt_matches (enough : n ≤ rounds) (blocks : Mirrors n CoversBlock body body')
    (ahead : Ahead tokens last c (t :: rest)) (short : rest.length < n) :
    Matches last Took c (t :: rest) (Grammar.whileStmt body t rest)
      (whileStmt rounds body' tokens c) := by
  refine .located ahead (.behind ahead (Mirrors.bind (condition_mirrors enough) ?_ ahead.step short))
  rintro _ test tested ⟨rfl, -⟩
  refine (blocks.fewer (Nat.sub_le _ _)).bind ?_
  rintro _ inner used ⟨rfl, moved, span⟩
  refine .pure ⟨by simp, ?_, by simp⟩
  simp [Token.excerpts_cons, Token.append_span_excerpts, moved, span]

theorem forInit_mirrors (enough : n ≤ rounds) :
    Mirrors n Same Grammar.forInit (forInit rounds) := by
  have expression : Mirrors n Same (some <$> Grammar.exprStmt) (some <$> exprStmt rounds) := by
    rw [map_eq_pure_bind, map_eq_pure_bind]
    refine (exprStmt_mirrors enough).bind ?_
    rintro _ s used ⟨rfl, -⟩
    exact .pure rfl
  refine accept_mirrors.bind ?_
  rintro _ skipped used ⟨rfl, taken⟩
  cases skipped with
  | true => exact .pure rfl
  | false =>
    obtain rfl := taken
    intro tokens last c ts ahead short
    have next : Grammar.nextIs TokenKind.isType ts = .ok (ts.head?.any (·.kind.isType), ts) := rfl
    simp only [Bool.false_eq_true, if_false]
    rw [Grammar.bind_of_ok next, bind_of_ok ahead.check]
    obtain ⟨t, rest, rfl, isType⟩ | other := Grammar.head_cases ts (·.isType)
    · rw [if_pos (by simpa using isType), if_pos (by simpa using isType)]
      refine (varDecl_matches enough ahead isType (Nat.lt_of_succ_lt short)).bind ?_
      rintro _ decl used rest' - ⟨rfl, -⟩
      exact .pure rfl
    · have noType : ¬ ts.head?.any (·.kind.isType) := by simpa [Option.any_eq_true] using other
      rw [if_neg noType, if_neg noType]
      exact expression ahead short

theorem forStmt_matches (enough : n ≤ rounds) (blocks : Mirrors n CoversBlock body body')
    (ahead : Ahead tokens last c (t :: rest)) (short : rest.length < n) :
    Matches last Took c (t :: rest) (Grammar.forStmt body t rest)
      (forStmt rounds body' tokens c) := by
  refine .located ahead (.behind ahead (Mirrors.bind consume_mirrors.discard ?_ ahead.step short))
  rintro _ _ _ ⟨u, -, rfl⟩
  refine (forInit_mirrors (by omega)).bind ?_
  rintro _ init initUsed rfl
  refine (unlessNext_expression (by omega)).bind ?_
  rintro _ test tested rfl
  refine consume_mirrors.discard.bind ?_
  rintro _ _ _ ⟨v, -, rfl⟩
  refine (unlessNext_expression (by omega)).bind ?_
  rintro _ update updated rfl
  refine consume_mirrors.discard.bind ?_
  rintro _ _ _ ⟨w, -, rfl⟩
  refine (blocks.fewer (by omega)).bind ?_
  rintro _ inner used ⟨rfl, moved, span⟩
  refine .pure ⟨by simp, ?_, by simp⟩
  simp [Token.excerpts_cons, Token.append_span_excerpts, moved, span]

theorem stmtWith_mirrors (enough : n ≤ rounds) (blocks : Mirrors n CoversBlock body body') :
    Mirrors n Took (Grammar.stmtWith body) (stmtWith rounds body') := by
  intro tokens last c ts ahead short
  cases ts with
  | nil =>
    have next (k : TokenKind → Bool) (f : Bool → Cursor Stmt) :
        (check k >>= f) tokens c = f false tokens c := bind_of_ok ahead.check
    simp only [stmtWith, next, Bool.false_eq_true, if_false]
    exact exprStmt_mirrors enough ahead short
  | cons t rest =>
    have next (k : TokenKind → Bool) (f : Bool → Cursor Stmt) :
        (check k >>= f) tokens c = f (k t.kind) tokens c := bind_of_ok ahead.check
    have fits := Nat.lt_of_succ_lt short
    unfold Grammar.stmtWith
    cases kind : t.kind <;>
      simp only [stmtWith, next, kind, TokenKind.isType, decide_true, decide_false, if_true, if_false,
        reduceCtorEq, Bool.false_eq_true]
    case typeWord type =>
      exact (varDecl_matches enough ahead (by rw [kind]; rfl) fits).map
        fun _ _ _ took => ⟨congrArg Stmt.var took.1, took.2⟩
    case ifWord => exact ifStmt_matches enough blocks ahead fits
    case whileWord => exact whileStmt_matches enough blocks ahead fits
    case forWord => exact forStmt_matches enough blocks ahead fits
    case returnWord => exact returnStmt_matches enough ahead fits
    case openBrace =>
      exact (blocks ahead short).map fun _ _ _ covers => ⟨congrArg Stmt.block covers.1, covers.2.1⟩
    all_goals exact exprStmt_mirrors enough ahead short

theorem stmtWithin_mirrors (fits : n ≤ bound + 1) (enough : n ≤ rounds) :
    Mirrors n Took (Grammar.stmtWithin bound) (statement rounds) := by
  induction rounds generalizing n bound with
  | zero => exact .of_zero (by omega)
  | succ rounds ih =>
    cases n with
    | zero => exact .of_zero rfl
    | succ n =>
    cases bound with
    | succ bound =>
      exact stmtWith_mirrors enough (block_mirrors (ih (by omega) (by omega)) (by omega) (by omega))
    | zero =>
      intro tokens last c ts ahead short
      obtain rfl := Nat.le_zero.1 (Nat.le_of_succ_le_succ fits)
      obtain rfl := List.length_eq_zero_iff.1 (Nat.lt_one_iff.1 short)
      have none := ih (Nat.zero_le (0 + 1)) (Nat.zero_le rounds)
      have blocks := block_mirrors none (Nat.zero_le (0 + 1)) (Nat.zero_le (rounds + 1))
      exact stmtWith_mirrors enough blocks ahead short

theorem statement_mirrors (enough : n ≤ rounds) :
    Mirrors n Took Grammar.statement (statement rounds) := by
  intro tokens last c ts ahead short
  exact stmtWithin_mirrors (Nat.le_refl _) (Nat.le_trans short enough) ahead (Nat.lt_succ_self _)

theorem body_mirrors (enough : n ≤ rounds) :
    Mirrors n CoversBlock Grammar.body (block rounds (statement rounds)) := by
  intro tokens last c ts ahead short
  have le : ts.length ≤ rounds := by omega
  have statements := stmtWithin_mirrors (Nat.le_succ ts.length) le
  exact block_mirrors statements (Nat.le_succ ts.length) le ahead (Nat.lt_succ_self _)

end Statements

/-! ## Declarations -/

section Declarations

theorem param_mirrors : Mirrors n Took Grammar.param param := by
  intro tokens last c ts ahead short
  refine .located ahead (Mirrors.bind consumeWhere_mirrors ?_ ahead short)
  rintro _ type _ ⟨rfl, rfl⟩
  refine consume_mirrors.bind ?_
  rintro _ name _ ⟨rfl, rfl⟩
  refine .pure ⟨by simp, ?_, by simp⟩
  simp [Token.excerpts_cons]

theorem Listed.same {list : α × List (Token × α)} {as : List α} (listed : Listed Took list as used) :
    as = list.1 :: list.2.map (·.2) := by
  induction listed with
  | one took => rw [took.1]; rfl
  | more took _ ih => rw [took.1, ih]; rfl

theorem params_mirrors (enough : n ≤ rounds) :
    Mirrors n Same Grammar.params (commaList param rounds) := by
  intro tokens last c ts ahead short
  have list := commaList_mirrors (Nat.le_refl (ts.length + 1)) (Nat.le_trans short enough)
    param_mirrors fun _ _ _ took => took.2
  rw [← bind_pure (commaList param rounds)]
  rw [Grammar.params, map_eq_pure_bind]
  refine (list ahead (Nat.lt_succ_self _)).bind fun list as used rest split listed => .pure ?_
  exact listed.same

theorem functionDecl_matches {type name : Token} (enough : n ≤ rounds)
    (ahead : Ahead tokens last c (type :: name :: rest)) (short : rest.length < n) :
    Matches last Took c (type :: name :: rest) (Grammar.functionDecl type name rest)
      (functionDecl rounds tokens c) := by
  refine .located ahead (.behind ahead (.behind ahead.step (Mirrors.bind consume_mirrors.discard ?_
    ahead.step.step short)))
  rintro _ _ _ ⟨opening, -, rfl⟩
  refine (unlessNext_mirrors (params_mirrors (by omega))).bind ?_
  intro _ params? listed related
  obtain rfl := related.eq fun _ _ _ same => same
  refine consume_mirrors.discard.bind ?_
  rintro _ _ _ ⟨closing, -, rfl⟩
  refine check_mirrors.bind ?_
  rintro _ opens _ ⟨rfl, rfl⟩
  cases opens with
  | false =>
    intro tokens last c ts ahead short
    refine .refused (r := ⟨.functionBody, ts⟩) rfl ?_
    change (peek >>= _) tokens c = _
    rw [bind_of_ok ahead.peek, List.headD_eq_head?_getD]
    rfl
  | true =>
    simp only [Bool.not_true, Bool.false_eq_true, if_false]
    refine (body_mirrors (by omega)).bind ?_
    rintro _ body used ⟨rfl, moved, span⟩
    refine .pure ⟨by simp, ?_, by simp⟩
    simp [Token.excerpts_cons, Token.append_span_excerpts, moved, span]

/-- The token two places ahead may be behind the first end token, but then the one in front of it is
that token, and there is no function. -/
theorem topLevel_mirrors (enough : n ≤ rounds) :
    Mirrors n Took Grammar.topLevel (topLevel rounds) := by
  intro tokens last c ts ahead short
  rw [topLevel, bind_of_ok ahead.check]
  obtain ⟨type, more, rfl, isType⟩ | other := Grammar.head_cases ts (·.isType)
  · have ofGlobal : Matches last Took c (type :: more)
        ((TopLevel.global <$> Grammar.varDecl) (type :: more))
        ((varDecl rounds >>= fun decl => pure (.global decl)) tokens c) :=
      (varDecl_matches enough ahead isType (Nat.lt_of_succ_lt short)).map
        fun _ _ _ took => ⟨congrArg TopLevel.global took.1, took.2⟩
    have one : peekAt 1 tokens c = .ok (more[0]?.getD last, c) := ahead.peekAt (i := 1) (by simp)
    rw [if_pos (by simpa using isType), bind_of_ok one]
    cases more with
    | nil =>
      obtain ⟨behind, two⟩ := ahead.exists_peekAt 2
      have read : Grammar.topLevel [type] = (TopLevel.global <$> Grammar.varDecl) [type] :=
        if_pos isType
      have noName : last.kind.isCallable = false := by
        rw [of_decide_eq_true ahead.isEnd]
        rfl
      rw [read, bind_of_ok two, if_neg (by simp [noName])]
      exact ofGlobal
    | cons name rest =>
      have starts : Grammar.startsFunction (type :: name :: rest) =
          (name.kind.isCallable && decide ((rest[0]?.getD last).kind = .openParen)) := by
        cases rest with
        | nil => simp [Grammar.startsFunction, of_decide_eq_true ahead.isEnd]
        | cons paren rest => simp [Grammar.startsFunction, isType]
      have read : Grammar.topLevel (type :: name :: rest) =
          if Grammar.startsFunction (type :: name :: rest) then
            (TopLevel.function <$> Grammar.functionDecl type name) rest
          else (TopLevel.global <$> Grammar.varDecl) (type :: name :: rest) := by
        simp only [Grammar.topLevel, isType, if_true]
      have two : peekAt 2 tokens c = .ok (rest[0]?.getD last, c) := ahead.peekAt (i := 2) (by simp)
      rw [read, starts, bind_of_ok two]
      by_cases function : name.kind.isCallable && decide ((rest[0]?.getD last).kind = .openParen)
      · rw [if_pos function, List.getElem?_cons_zero, Option.getD_some, if_pos function]
        have fits : rest.length < n := Nat.lt_of_succ_lt (Nat.lt_of_succ_lt short)
        exact (functionDecl_matches enough ahead fits).map
          fun _ _ _ took => ⟨congrArg TopLevel.function took.1, took.2⟩
      · rw [if_neg function, List.getElem?_cons_zero, Option.getD_some, if_neg function]
        exact ofGlobal
  · have noType : ¬ ts.head?.any (·.kind.isType) := by simpa [Option.any_eq_true] using other
    rw [Grammar.topLevel_statement other, if_neg noType]
    exact (statement_mirrors enough ahead short).map
      fun _ _ _ took => ⟨congrArg TopLevel.statement took.1, took.2⟩

end Declarations

/-! ## Whole lists -/

theorem Ahead.of_ended (ended : Token.Ended tokens) (inside : c < tokens.length) :
    ∃ last ts, Ahead tokens last c ts ∧ c + ts.length < tokens.length := by
  have endedFrom : Token.Ended (tokens.drop c) := by
    obtain ⟨last, member, isEnd⟩ := ended
    refine ⟨last, ?_, isEnd⟩
    rw [List.getLast?_drop, if_neg (Nat.not_le.2 inside)]
    exact member
  obtain ⟨last, behind, split, isEnd⟩ := endedFrom.split
  refine ⟨last, _, ⟨⟨behind, split⟩, isEnd, fun t => Token.isEnd_of_mem_takeWhile⟩, ?_⟩
  have length := congrArg List.length split
  simp only [List.length_drop, List.length_append, List.length_cons] at length
  omega

/-- A reader that takes tokens moves the cursor on and leaves it in the list. -/
theorem Mirrors.moves {p : Grammar.Parse α} {q : Cursor α} {a : α} {c' : Nat}
    (mirrors : Mirrors n Took p q) (ended : Token.Ended tokens) (inside : c < tokens.length)
    (enough : tokens.length ≤ c + n) (run : q tokens c = .ok (a, c')) :
    c < c' ∧ c' < tokens.length := by
  obtain ⟨last, ts, ahead, short⟩ := Ahead.of_ended ended inside
  cases mirrors ahead (by omega) with
  | refused _ run' =>
    rw [run] at run'
    cases run'
  | read used split _ run' took =>
    rw [run] at run'
    cases run'
    have moved := List.length_pos_iff.2 took.2
    subst split
    rw [List.length_append] at short
    omega

/-- What is read by place from the first token on is the program, or the syntax error, that the
tokens up to the first end token give. -/
theorem parse_eq (ended : Token.Ended tokens) (enough : tokens.length ≤ rounds) :
    parse rounds tokens = (Program.ofTokens tokens).mapError .refused := by
  obtain ⟨last, behind, whole, isEnd⟩ := ended.split
  have noEnd : ∀ t ∈ tokens.takeWhile (!·.isEnd), t.isEnd = false :=
    fun t => Token.isEnd_of_mem_takeWhile
  generalize tokens.takeWhile (!·.isEnd) = body at whole noEnd
  subst whole
  have ahead : Ahead (body ++ last :: behind) last 0 body := ⟨⟨behind, rfl⟩, isEnd, noEnd⟩
  have fits : body.length < rounds := by
    simp only [List.length_append, List.length_cons] at enough
    omega
  have goesOn : ∀ ⦃tokens last c ts⦄, Ahead tokens last c ts →
      (do return !(← isAtEnd) : Cursor Bool) tokens c =
        .ok (ts.head?.any (!(fun _ => false) ·.kind), c) := by
    intro tokens last c ts ahead
    rw [bind_of_ok ahead.isAtEnd]
    cases ts <;> rfl
  have nodes := sequence_mirrors (k := fun _ => false) (Nat.le_refl (body.length + 1)) fits
    (topLevel_mirrors fits) goesOn ahead (Nat.lt_succ_self _)
  change Matches last Same 0 body (Grammar.declarations body) _ at nodes
  have inside : ∀ t ∈ body, t.kind ≠ .endOfInput := by simpa [Token.isEnd] using noEnd
  simp only [Program.ofTokens, splitAtEnd_append inside isEnd]
  cases nodes with
  | refused run run' => rw [parse, program, bind_of_error run', run]; rfl
  | read used split run run' same =>
    obtain rfl := (Grammar.declarations_agrees noEnd).2 _ _ run
    rw [List.append_nil] at split
    subst split same
    rw [parse, program, bind_of_ok run', bind_of_ok ahead.spanFrom_all, run]
    rfl

/-- Reading a list of tokens with an end token behind all others ends with a program or a syntax
error, and neither looks outside the list nor takes an end token. From any place in the list, an
expression, a statement or a declaration takes at least one token if it is read at all, and stays in
the list. Nothing behind the first end token is of any account. -/
theorem parse_inside (ended : Token.Ended tokens) :
    (∀ rounds, tokens.length ≤ rounds →
      parse rounds tokens = (Program.ofTokens tokens).mapError .refused) ∧
    (∀ rounds c c', c < tokens.length → tokens.length ≤ c + rounds →
      (∀ e, expression rounds tokens c = .ok (e, c') → c < c' ∧ c' < tokens.length) ∧
      (∀ s, statement rounds tokens c = .ok (s, c') → c < c' ∧ c' < tokens.length) ∧
      ∀ d, topLevel rounds tokens c = .ok (d, c') → c < c' ∧ c' < tokens.length) ∧
    ∀ ts e rest, tokens = ts ++ e :: rest → (∀ t ∈ ts, t.isEnd = false) → e.isEnd →
      ∀ rounds, tokens.length ≤ rounds → parse rounds tokens = parse rounds (ts ++ [e]) := by
  refine ⟨fun rounds enough => parse_eq ended enough, fun rounds c c' inside enough =>
    ⟨fun e run => ?_, fun s run => ?_, fun d run => ?_⟩, ?_⟩
  · have expressions := (expression_mirrors (Nat.le_refl rounds)).mono fun _ _ _ covers =>
      (⟨covers.1, covers.2.1⟩ : Took _ _ _)
    exact expressions.moves ended inside enough run
  · exact (statement_mirrors (Nat.le_refl rounds)).moves ended inside enough run
  · exact (topLevel_mirrors (Nat.le_refl rounds)).moves ended inside enough run
  · rintro ts e rest rfl noEnd isEnd rounds enough
    have endedFirst : Token.Ended (ts ++ [e]) := ⟨e, by simp, isEnd⟩
    have inside : ∀ t ∈ ts, t.kind ≠ .endOfInput := by simpa [Token.isEnd] using noEnd
    have fewer : (ts ++ [e]).length ≤ rounds := by
      simp only [List.length_append, List.length_cons, List.length_nil] at enough ⊢
      omega
    rw [parse_eq ended enough, parse_eq endedFirst fewer]
    simp only [Program.ofTokens, splitAtEnd_append inside isEnd]

/-- The tokens of `int x;` and an end token, and of `)` and another one. -/
def endedTwice : List Token :=
  [⟨.typeWord .int, "int", ⟨1, 1⟩⟩, ⟨.identifier, "x", ⟨1, 5⟩⟩, ⟨.semicolon, ";", ⟨1, 6⟩⟩,
    ⟨.endOfInput, [], ⟨1, 7⟩⟩, ⟨.closeParen, ")", ⟨1, 8⟩⟩, ⟨.endOfInput, [], ⟨1, 9⟩⟩]

theorem endedTwice_inside : Token.Ended endedTwice ∧
    parse 6 endedTwice =
      .ok ⟨[.global ⟨"int", "x", none, ⟨⟨1, 1⟩, ⟨1, 7⟩⟩⟩], ⟨⟨1, 1⟩, ⟨1, 7⟩⟩⟩ ∧
    (∀ rounds c c', c < endedTwice.length → endedTwice.length ≤ c + rounds →
      (∀ e, expression rounds endedTwice c = .ok (e, c') → c < c' ∧ c' < endedTwice.length) ∧
      (∀ s, statement rounds endedTwice c = .ok (s, c') → c < c' ∧ c' < endedTwice.length) ∧
      ∀ d, topLevel rounds endedTwice c = .ok (d, c') → c < c' ∧ c' < endedTwice.length) ∧
    parse 6 endedTwice = parse 6 (endedTwice.take 4) := by
  have ended : Token.Ended endedTwice := ⟨⟨.endOfInput, [], ⟨1, 9⟩⟩, rfl, rfl⟩
  obtain ⟨parsed, moves, first⟩ := parse_inside ended
  refine ⟨ended, (parsed 6 (by decide)).trans rfl, moves, ?_⟩
  exact first (endedTwice.take 3) ⟨.endOfInput, [], ⟨1, 7⟩⟩ (endedTwice.drop 4) rfl (by decide) rfl 6
    (by decide)

end Cursor

end ProcCheck
