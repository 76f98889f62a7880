import ProcCheck.Proofs.Grammar.Goals
import ProcCheck.Proofs.Grammar.Soundness

/-!
# Readers and goals

Every reader meets goals: it goes on as long as they do, and where it refuses a token they are
stuck. Only a reserved word that nothing is called by is refused later by the goals, at the token
behind it. A reader that meets a required goal takes at least one token.
-/

namespace ProcCheck

namespace Grammar

open Goal (stuck step)

variable {α β : Type} {goals mid later : List Goal} {ts rest : List Token} {t : Token} {n : Nat}

/-- A refusal is about the first of the tokens that are left, or about the reserved word in front
of them. -/
def Refusal.About (r : Refusal) (left : List Token) : Prop :=
  left = r.rest ∨ ∃ t, r.rest = t :: left ∧ t.kind = .mainWord

/-- An outcome of reading from `ts` agrees with the goals in front of `later`: they are met by the
tokens that were taken, or stuck where a token was refused. -/
def Agrees (goals later : List Goal) (ts : List Token) : Except Refusal (α × List Token) → Prop
  | .ok (_, rest) => rest <:+ ts ∧ stuck goals ts = stuck later rest
  | .error r => r.rest <:+ ts ∧ ∃ left, stuck goals ts = some left ∧ r.About left

namespace Agrees

variable {outcome : Except Refusal (α × List Token)} {p : Parse α} {a : α}

theorem pure : Agrees goals goals ts ((Pure.pure a : Parse α) ts) :=
  ⟨List.suffix_refl ts, rfl⟩

theorem refused {expected : Expectation} (stops : stuck goals ts = some ts) :
    Agrees goals later ts (.error ⟨expected, ts⟩ : Except Refusal (α × List Token)) :=
  ⟨List.suffix_refl ts, ts, stops, .inl rfl⟩

/-- What is left of tokens may be read instead, with what is left of goals. -/
theorem after (within : rest <:+ ts) (same : stuck goals ts = stuck mid rest)
    (agrees : Agrees mid later rest outcome) : Agrees goals later ts outcome := by
  cases outcome with
  | error r =>
    obtain ⟨further, left, stops, about⟩ := agrees
    exact ⟨further.trans within, left, same.trans stops, about⟩
  | ok result => exact ⟨agrees.1.trans within, same.trans agrees.2⟩

theorem of_stuck (same : stuck goals ts = stuck mid ts) (agrees : Agrees mid later ts outcome) :
    Agrees goals later ts outcome :=
  agrees.after (List.suffix_refl ts) same

/-- A token in front that can stand there. -/
theorem behind (next : step goals t.kind = some mid) (agrees : Agrees mid later ts outcome) :
    Agrees goals later (t :: ts) outcome :=
  agrees.after (List.suffix_cons t ts) (Goal.stuck_step next)

theorem bind {f : α → Parse β} (first : Agrees goals mid ts (p ts))
    (second : ∀ a rest, p ts = .ok (a, rest) → Agrees mid later rest (f a rest)) :
    Agrees goals later ts ((p >>= f) ts) := by
  simp only [Bind.bind, StateT.bind, Except.bind]
  cases run : p ts with
  | error r =>
    rw [run] at first
    exact first
  | ok result =>
    rw [run] at first
    exact (second result.1 result.2 run).after first.1 first.2

theorem map {f : α → β} (agrees : Agrees goals later ts (p ts)) :
    Agrees goals later ts ((f <$> p) ts) := by
  rw [map_eq_pure_bind]
  exact agrees.bind fun _ _ _ => pure

theorem discard (agrees : Agrees goals later ts (p ts)) :
    Agrees goals later ts ((Functor.discard p) ts) := by
  rw [discard_eq_bind]
  exact agrees.bind fun _ _ _ => pure

end Agrees

/-- A reader of at most `n` tokens meets goals. -/
def Meets (n : Nat) (goals : List Goal) (p : Parse α) : Prop :=
  ∀ ts later, ts.length ≤ n → Agrees (goals ++ later) later ts (p ts)

theorem Meets.mono {p : Parse α} {m : Nat} (meets : Meets n goals p) (le : m ≤ n) :
    Meets m goals p := fun ts later short => meets ts later (Nat.le_trans short le)

theorem Meets.pred {p : Parse α} (meets : Meets n goals p) : Meets (n - 1) goals p :=
  meets.mono (Nat.sub_le n 1)

theorem Meets.bind {p : Parse α} {f : α → Parse β} {more : List Goal}
    (first : Meets n goals p) (second : ∀ a, Meets n more (f a)) :
    Meets n (goals ++ more) (p >>= f) := by
  intro ts later short
  rw [List.append_assoc]
  refine (first ts (more ++ later) short).bind fun a rest run => ?_
  have taken := first ts [] short
  rw [run] at taken
  exact second a rest later (Nat.le_trans taken.1.length_le short)

theorem Meets.map {p : Parse α} {f : α → β} (meets : Meets n goals p) :
    Meets n goals (f <$> p) := fun ts later short => (meets ts later short).map

theorem Meets.discard {p : Parse α} (meets : Meets n goals p) :
    Meets n goals (Functor.discard p) := fun ts later short => (meets ts later short).discard

theorem Meets.pure {a : α} : Meets n [] (Pure.pure a : Parse α) := fun _ _ _ => Agrees.pure

theorem Meets.returns {p : Parse α} {f : α → β} (meets : Meets n goals p) :
    Meets n goals (p >>= fun a => Pure.pure (f a)) := fun ts later short =>
  (meets ts later short).bind fun _ _ _ => Agrees.pure

/-! ## Pieces of readers -/

section Pieces

variable {p : Parse α} {goal item : Goal} {kind : TokenKind} {expected : Expectation}

theorem expect_meets {plain : kind.isPlain} :
    Meets n [.token kind plain] (expect kind expected) := by
  intro ts later _
  cases ts with
  | nil => exact Agrees.refused (Goal.stuck_required rfl (by simp))
  | cons t rest =>
    by_cases same : t.kind = kind
    · have reads : (Goal.token kind plain).after t.kind = some [] := if_pos same
      have run : expect kind expected (t :: rest) = .ok (t, rest) := expect_ok.2 ⟨rfl, same⟩
      rw [run]
      exact Agrees.behind (Goal.step_after reads) Agrees.pure
    · have useless : (Goal.token kind plain).after t.kind = none := if_neg same
      have run : expect kind expected (t :: rest) = refuse expected (t :: rest) := by
        simp [expect, expectWhere, same, refuse]
      rw [run]
      exact Agrees.refused (Goal.stuck_required rfl (by simpa using useless))

/-- What meets a token that may be taken, or one that is not. -/
theorem Agrees.take {f : TokenKind → Option β} {g : Option (β × Token) → Parse α}
    (taken : ∀ t rest b, ts = t :: rest → f t.kind = some b →
      Agrees goals later ts (g (some (b, t)) rest))
    (left : (∀ t ∈ ts.head?, f t.kind = none) → Agrees goals later ts (g none ts)) :
    Agrees goals later ts ((take? f >>= g) ts) := by
  cases ts with
  | nil => exact left (by simp)
  | cons t rest =>
    cases value : f t.kind with
    | none =>
      have here : ∀ u ∈ (t :: rest).head?, f u.kind = none := by simpa using value
      rw [bind_of_ok (take?_ok.2 (.inr ⟨rfl, rfl, here⟩))]
      exact left here
    | some b =>
      rw [bind_of_ok (take?_ok.2 (.inl ⟨b, t, rfl, rfl, value⟩))]
      exact taken t rest b rfl value

theorem Agrees.skip {g : Bool → Parse α}
    (taken : ∀ t rest, ts = t :: rest → t.kind = kind → Agrees goals later ts (g true rest))
    (left : (∀ t ∈ ts.head?, t.kind ≠ kind) → Agrees goals later ts (g false ts)) :
    Agrees goals later ts ((Grammar.skip kind >>= g) ts) := by
  rw [Grammar.skip, bind_assoc]
  refine Agrees.take (fun t rest _ same value => ?_) fun none => ?_
  · exact taken t rest same (Option.ite_none_right_eq_some.1 value).1
  · exact left fun t member same => by simpa [same] using none t member

/-- A goal with a use for a token that would end it, or else the same uses as items in front of that
token. -/
theorem unlessNext_agrees {stop : TokenKind} {plain : stop.isPlain} {more : List Goal}
    (required : goal.optional = false) (itemRequired : item.optional = false)
    (stops : goal.after stop = some [])
    (goesOn : ∀ kind ≠ stop,
      goal.after kind = (item.after kind).map (· ++ (more ++ [.token stop plain])))
    (meets : Meets n (item :: more) p) (short : ts.length ≤ n) :
    Agrees (goal :: later) (.token stop plain :: later) ts (unlessNext stop p ts) := by
  have items : unlessNext stop p ts = (some <$> p) ts →
      (∀ t ∈ ts.head?, t.kind ≠ stop) →
      Agrees (goal :: later) (.token stop plain :: later) ts (unlessNext stop p ts) := by
    intro run other
    rw [run]
    have same : stuck (goal :: later) ts =
        stuck (item :: (more ++ [.token stop plain] ++ later)) ts :=
      Goal.stuck_map _ required itemRequired fun t member => goesOn t.kind (other t member)
    rw [List.append_assoc] at same
    exact Agrees.of_stuck same (meets ts (.token stop plain :: later) short).map
  cases ts with
  | nil => exact items (by rw [map_eq_pure_bind]; rfl) (by simp)
  | cons t rest =>
    by_cases same : t.kind = stop
    · have run : unlessNext stop p (t :: rest) = .ok (none, t :: rest) :=
        unlessNext_ok.2 (.inl ⟨rfl, rfl, t, rfl, same⟩)
      rw [run]
      have closes : (Goal.token stop plain).after t.kind = some [] := if_pos same
      rw [← same] at stops
      refine Agrees.of_stuck ?_ Agrees.pure
      rw [Goal.stuck_step (Goal.step_after closes), Goal.stuck_step (Goal.step_after stops)]
    · refine items ?_ (by simpa using same)
      have next : nextIs (· = stop) (t :: rest) = .ok (false, t :: rest) := by
        simp [nextIs, same]
      rw [unlessNext, bind_of_ok next, map_eq_pure_bind]
      rfl

/-- Items with commas between them. -/
theorem commaList_meets {more : Goal} (optional : more.optional)
    (comma : more.after .comma = some [item, more])
    (others : ∀ kind ≠ .comma, more.after kind = none) (meets : Meets n [item] p) {bound : Nat}
    (le : n ≤ bound) : Meets n [item, more] (commaList p bound) := by
  induction bound generalizing n with
  | zero =>
    obtain rfl := Nat.le_zero.1 le
    intro ts later short
    obtain rfl := List.length_eq_zero_iff.1 (Nat.le_zero.1 short)
    refine (meets [] (more :: later) short).bind fun a rest run => ?_
    have taken := meets [] [] short
    rw [run] at taken
    obtain rfl := List.suffix_nil.1 taken.1
    exact Agrees.of_stuck (Goal.stuck_given_up optional (by simp)) Agrees.pure
  | succ bound ih =>
    refine Meets.bind meets fun first => ?_
    intro ts later short
    refine Agrees.take (fun t rest _ same value => ?_) fun none => ?_
    · have isComma : t.kind = .comma := (Option.ite_none_right_eq_some.1 value).1
      rw [same] at short ⊢
      refine Agrees.behind (Goal.step_after (isComma ▸ comma)) ?_
      exact (ih meets.pred (Nat.sub_le_of_le_add le) rest later (Nat.le_sub_one_of_lt short)).bind
        fun _ _ _ => Agrees.pure
    · refine Agrees.of_stuck (Goal.stuck_given_up optional fun t member => ?_) Agrees.pure
      refine others t.kind fun same => ?_
      simpa [same] using none t member

/-- A reader that meets a required goal takes a token: in front of other goals the next token would
be told of their ways with it. -/
theorem Meets.progress {a : α} (meets : Meets n [goal] p) (required : goal.optional = false)
    (short : ts.length ≤ n) (run : p ts = .ok (a, rest)) : rest.length < ts.length := by
  have agrees (later : List Goal) : rest <:+ ts ∧ stuck (goal :: later) ts = stuck later rest := by
    have agrees := meets ts later short
    rwa [run] at agrees
  refine Nat.lt_of_le_of_ne (agrees []).1.length_le fun same => ?_
  obtain rfl := (agrees []).1.eq_of_length same
  have taken (later : List Goal) := (agrees later).2
  by_cases ends : ∀ t ∈ rest.head?, t.isEnd
  · have useless : ∀ t ∈ rest.head?, goal.after t.kind = none := fun t member => by
      rw [of_decide_eq_true (ends t member), Goal.after_endOfInput]
    have stops := taken []
    rw [Goal.stuck_required required useless, Goal.stuck_ended rfl ends] at stops
    cases stops
  · cases rest with
    | nil => simp at ends
    | cons t tail =>
      have noEnd : t.kind ≠ .endOfInput := by simpa [Token.isEnd] using ends
      cases reads : goal.after t.kind with
      | none =>
        obtain ⟨other, new, takes⟩ := Goal.exists_after noEnd
        have stops := taken [other]
        rw [Goal.stuck_required required (by simpa using reads),
          Goal.stuck_step (Goal.step_after takes)] at stops
        exact Goal.stuck_ne_self stops.symm
      | some new =>
        obtain ⟨other, otherRequired, refuses⟩ := Goal.exists_refused t.kind
        have stops := taken [other]
        rw [Goal.stuck_step (Goal.step_after reads),
          Goal.stuck_required otherRequired (by simpa using refuses)] at stops
        exact Goal.stuck_ne_self stops

theorem sequence_agrees (stop : TokenKind → Bool) {bound : Nat} (required : item.optional = false)
    (semicolon : step goals .semicolon = some goals)
    (opens : ∀ t ∈ ts, stop t.kind = false → t.kind ≠ .semicolon →
      ∀ rest, stuck goals (t :: rest) = stuck (item :: goals) (t :: rest))
    (meets : Meets n [item] p) (le : n ≤ bound) (short : ts.length ≤ n) :
    Agrees goals goals ts (sequence p stop bound ts) ∧
      ∀ items rest, sequence p stop bound ts = .ok (items, rest) → ∀ t ∈ rest.head?, stop t.kind := by
  induction bound generalizing n ts with
  | zero =>
    obtain rfl := Nat.le_zero.1 le
    obtain rfl := List.length_eq_zero_iff.1 (Nat.le_zero.1 short)
    refine ⟨Agrees.pure, fun items rest run => ?_⟩
    obtain ⟨-, rfl⟩ := pure_ok.1 run
    simp
  | succ bound ih =>
    have atStop (stopped : ∀ t ∈ ts.head?, stop t.kind) :
        Agrees goals goals ts (sequence p stop (bound + 1) ts) ∧ ∀ items rest,
          sequence p stop (bound + 1) ts = .ok (items, rest) → ∀ t ∈ rest.head?, stop t.kind := by
      rw [sequence_stopped stopped]
      refine ⟨Agrees.pure, fun items rest run => ?_⟩
      cases run
      exact stopped
    cases ts with
    | nil => exact atStop (by simp)
    | cons t tail =>
      by_cases goesOn : stop t.kind
      · exact atStop (by simpa using goesOn)
      have fits : tail.length ≤ n - 1 := Nat.le_sub_one_of_lt short
      by_cases isSemicolon : t.kind = .semicolon
      · rw [sequence_semicolon goesOn isSemicolon]
        obtain ⟨agrees, stops⟩ := ih (fun u member => opens u (List.mem_cons_of_mem t member))
          meets.pred (Nat.sub_le_of_le_add le) fits
        exact ⟨agrees.behind (isSemicolon ▸ semicolon), stops⟩
      · rw [sequence_item goesOn isSemicolon]
        have same := opens t List.mem_cons_self (by simpa using goesOn) isSemicolon tail
        have first := meets (t :: tail) goals short
        have others {a : α} {mid : List Token} (run : p (t :: tail) = .ok (a, mid)) := by
          have shorter := meets.progress required short run
          rw [run] at first
          exact ih (fun u member => opens u (first.1.subset member)) meets.pred
            (Nat.sub_le_of_le_add le) (by omega : mid.length ≤ n - 1)
        refine ⟨Agrees.of_stuck same (first.bind fun a rest run => (others run).1.map), ?_⟩
        intro items rest run
        obtain ⟨a, mid, runFirst, runRest⟩ := bind_ok.1 run
        obtain ⟨list, runOthers, -⟩ := map_ok.1 runRest
        exact (others runFirst).2 list rest runOthers

end Pieces

/-! ## Expressions -/

section Expressions

variable {inner single : Parse Expr} {bound : Nat}

theorem prefixed_meets (meets : Meets n [.primary] single) (le : n ≤ bound) :
    Meets n [.operand] (prefixed single bound) := by
  induction bound generalizing n with
  | zero =>
    obtain rfl := Nat.le_zero.1 le
    intro ts later short
    obtain rfl := List.length_eq_zero_iff.1 (Nat.le_zero.1 short)
    have same : stuck (.operand :: later) [] = stuck (.primary :: later) [] :=
      (Goal.stuck_required rfl (by simp)).trans (Goal.stuck_required rfl (by simp)).symm
    exact Agrees.of_stuck same (meets [] later short)
  | succ bound ih =>
    intro ts later short
    refine Agrees.take (fun t rest op same value => ?_) fun none => ?_
    · rw [same] at short ⊢
      have reads : Goal.operand.after t.kind = some [.operand] :=
        if_pos (Option.isSome_of_eq_some value)
      refine Agrees.behind (Goal.step_after reads) ?_
      exact (ih meets.pred (Nat.sub_le_of_le_add le) rest later (Nat.le_sub_one_of_lt short)).bind
        fun _ _ _ => Agrees.pure
    · refine Agrees.of_stuck (Goal.stuck_same rfl rfl fun t member => ?_) (meets ts later short)
      exact if_neg (by simp [none t member])

theorem operators_meets (meets : Meets n [.operand] single) (le : n ≤ bound) (left : Expr) :
    Meets n [.operators] (operators single bound left) := by
  induction bound generalizing n left with
  | zero =>
    obtain rfl := Nat.le_zero.1 le
    intro ts later short
    obtain rfl := List.length_eq_zero_iff.1 (Nat.le_zero.1 short)
    exact Agrees.of_stuck (Goal.stuck_given_up rfl (by simp)) Agrees.pure
  | succ bound ih =>
    intro ts later short
    refine Agrees.take (fun t rest op same value => ?_) fun none => ?_
    · rw [same] at short ⊢
      have reads : Goal.operators.after t.kind = some [.operand, .operators] := by
        revert value
        fun_cases TokenKind.binaryOp? t.kind <;> simp_all [Goal.after]
      refine Agrees.behind (Goal.step_after reads) ?_
      exact meets.pred.bind (fun right => ih meets.pred (Nat.sub_le_of_le_add le)
        (left.attach op t.excerpt right)) rest later (Nat.le_sub_one_of_lt short)
    · refine Agrees.of_stuck (Goal.stuck_given_up rfl fun t member => ?_) Agrees.pure
      have value := none t member
      revert value
      fun_cases TokenKind.binaryOp? t.kind <;> cases t.kind <;> simp_all [Goal.after]

theorem call_meets (meets : Meets n [.expression] inner) (le : n ≤ bound)
    (callee opening : Token) : Meets n [.arguments] (call inner bound callee opening) := by
  intro ts later short
  have list : Meets n [.expression, .moreArguments] (commaList inner bound) :=
    commaList_meets rfl rfl (fun kind other => by cases kind <;> simp_all [Goal.after]) meets le
  have goesOn : ∀ kind ≠ .closeParen, Goal.arguments.after kind =
      (Goal.expression.after kind).map (· ++ [.moreArguments, .token .closeParen]) :=
    fun kind other => by cases kind <;> simp_all [Goal.after]
  refine (unlessNext_agrees rfl rfl rfl goesOn list short).bind fun args rest _ => ?_
  refine (expect_meets rest later (Nat.le_refl _)).bind fun closing last _ => ?_
  cases args with
  | none => exact Agrees.pure
  | some list => exact Agrees.pure

theorem group_meets (meets : Meets n [.expression] inner) (opening : Token) :
    Meets n [.expression, .token .closeParen] (group inner opening) :=
  meets.bind fun _ => expect_meets.returns

/-- An operand that is no call. -/
theorem simple_agrees (meets : Meets n [.expression] inner) (short : rest.length ≤ n)
    (noCall : t.kind.isCallable → ∀ u ∈ rest.head?, u.kind ≠ .openParen) :
    Agrees (.primary :: later) later (t :: rest) (primary.simple inner t rest) := by
  have literal (reads : Goal.primary.after t.kind = some []) {e : Expr} :
      Agrees (.primary :: later) later (t :: rest) (.ok (e, rest)) :=
    Agrees.behind (Goal.step_after reads) Agrees.pure
  have refused (useless : Goal.primary.after t.kind = none) :
      Agrees (.primary :: later) later (t :: rest)
        (refuse .expression (t :: rest) : Except Refusal (Expr × List Token)) :=
    Agrees.refused (Goal.stuck_required rfl (by simpa using useless))
  unfold primary.simple
  cases kind : t.kind <;> rw [kind] at literal refused noCall
  case intLiteral => exact literal rfl
  case floatLiteral => exact literal rfl
  case stringLiteral => exact literal rfl
  case identifier =>
    have reads : Goal.primary.after t.kind = some [.name] := by rw [kind]; rfl
    refine Agrees.behind (Goal.step_after reads) ?_
    refine Agrees.of_stuck (Goal.stuck_given_up rfl fun u member => ?_) Agrees.pure
    have noParen := noCall rfl u member
    cases other : u.kind <;> simp_all [Goal.after]
  case mainWord =>
    -- the goals want a parenthesis behind the reserved word and are stuck without one
    refine ⟨List.suffix_refl _, rest, ?_, .inr ⟨t, rfl, kind⟩⟩
    have reads : Goal.primary.after t.kind = some [.token .openParen, .arguments] := by
      rw [kind]
      rfl
    rw [Goal.stuck_step (Goal.step_after reads)]
    exact Goal.stuck_required rfl fun u member => if_neg (noCall rfl u member)
  case openParen =>
    refine Agrees.behind (Goal.step_after (by rw [kind]; rfl)) ?_
    exact group_meets meets t rest later short
  all_goals exact refused rfl

theorem primary_meets (meets : Meets n [.expression] inner) (le : n ≤ bound) :
    Meets (n + 1) [.primary] (primary inner bound) := by
  intro ts later short
  cases ts with
  | nil => exact Agrees.refused (Goal.stuck_required rfl (by simp))
  | cons t rest =>
    have fits := Nat.le_of_succ_le_succ short
    cases rest with
    | nil => exact simple_agrees meets fits (by simp)
    | cons paren rest =>
      by_cases isCall : t.kind.isCallable ∧ paren.kind = .openParen
      · obtain ⟨callable, isParen⟩ := isCall
        have run : primary inner bound (t :: paren :: rest) = call inner bound t paren rest :=
          if_pos ⟨callable, isParen⟩
        rw [run]
        have reads : stuck (.primary :: later) (t :: paren :: rest) =
            stuck (.arguments :: later) rest := by
          cases kind : t.kind <;> rw [kind] at callable <;> cases callable
          all_goals simp [stuck, step, Goal.after, Goal.primaryAfter, kind, isParen]
        have within : rest <:+ t :: paren :: rest := List.suffix_append [t, paren] rest
        exact (call_meets meets le t paren rest later (Nat.le_of_succ_le fits)).after within reads
      · have run : primary inner bound (t :: paren :: rest) =
            primary.simple inner t (paren :: rest) := if_neg isCall
        rw [run]
        refine simple_agrees meets fits fun callable u member isParen => isCall ⟨callable, ?_⟩
        rwa [Option.some.inj member]

/-- Without a sign behind it an identifier that an expression starts with is an operand. -/
theorem stuck_target (noSign : ∀ t ∈ ts.head?, t.kind ≠ .assign) :
    stuck (.target :: later) ts = stuck (.name :: .operators :: later) ts := by
  refine Goal.stuck_congr (fun t member => ?_) fun _ => rfl
  have other := noSign t member
  cases kind : t.kind <;> simp_all [step, Goal.after, Goal.optional]

/-- What is no assignment is an operand with operators behind it. -/
theorem stuck_expression (noAssign : ∀ target sign tail, ts = target :: sign :: tail →
    target.kind = .identifier → sign.kind ≠ .assign) :
    stuck (.expression :: later) ts = stuck (.operand :: .operators :: later) ts := by
  cases ts with
  | nil => rfl
  | cons t rest =>
    by_cases identifier : t.kind = .identifier
    · have reads : Goal.expression.after t.kind = some [.target] := by rw [identifier]; rfl
      have operand : Goal.operand.after t.kind = some [.name] := by rw [identifier]; rfl
      rw [Goal.stuck_step (Goal.step_after reads), Goal.stuck_step (Goal.step_after operand)]
      refine stuck_target fun sign member => ?_
      obtain ⟨tail, rfl⟩ := List.head?_eq_some_iff.1 member
      exact noAssign t sign tail rfl identifier
    · have first : ∀ u ∈ (t :: rest).head?, Goal.expression.after u.kind =
          (Goal.operand.after u.kind).map (· ++ [.operators]) := by
        simp only [List.head?_cons, Option.mem_def, Option.some.injEq, forall_eq']
        cases kind : t.kind <;> simp_all [Goal.after, Goal.expressionAfter]
      exact Goal.stuck_map [.operators] rfl rfl first

theorem expressionWithin_meets : Meets bound [.expression] (expressionWithin bound) := by
  induction bound with
  | zero =>
    intro ts later short
    obtain rfl := List.length_eq_zero_iff.1 (Nat.le_zero.1 short)
    exact Agrees.refused (Goal.stuck_required rfl (by simp))
  | succ bound ih =>
    have operand : Meets (bound + 1) [.operand]
        (prefixed (primary (expressionWithin bound) (bound + 1)) (bound + 1)) :=
      prefixed_meets (primary_meets ih (Nat.le_succ bound)) (Nat.le_refl _)
    intro ts later short
    rw [expressionWithin]
    by_cases isAssign : ∃ target sign tail, ts = target :: sign :: tail ∧
        target.kind = .identifier ∧ sign.kind = .assign
    · obtain ⟨target, sign, tail, rfl, isName, isSign⟩ := isAssign
      rw [bind_of_ok (assignmentStart?_ok.2 (.inl ⟨target, sign, rfl, rfl, isName, isSign⟩))]
      have reads : stuck (.expression :: later) (target :: sign :: tail) =
          stuck (.expression :: later) tail := by
        simp [stuck, step, Goal.after, Goal.expressionAfter, isName, isSign]
      have fits : tail.length ≤ bound := Nat.le_of_succ_le (Nat.le_of_succ_le_succ short)
      exact ((ih tail later fits).bind fun _ _ _ => Agrees.pure).after
        (List.suffix_append [target, sign] tail) reads
    · have noAssign : ∀ target sign tail, ts = target :: sign :: tail →
          target.kind = .identifier → sign.kind ≠ .assign :=
        fun target sign tail same isName isSign =>
          isAssign ⟨target, sign, tail, same, isName, isSign⟩
      have none : ∀ target sign tail, ts = target :: sign :: tail →
          ¬ (target.kind = .identifier ∧ sign.kind = .assign) :=
        fun target sign tail same both => noAssign target sign tail same both.1 both.2
      rw [bind_of_ok (assignmentStart?_ok.2 (.inr ⟨rfl, rfl, none⟩))]
      refine Agrees.of_stuck (stuck_expression noAssign) ?_
      exact operand.bind (fun left => operators_meets operand (Nat.le_refl _) left) ts later short

theorem expression_meets : Meets n [.expression] expression := by
  intro ts later _
  exact expressionWithin_meets ts later (Nat.le_refl _)

end Expressions

/-! ## Statements -/

theorem exprStmt_meets : Meets n [.expression, .token .semicolon] exprStmt :=
  expression_meets.bind fun _ => expect_meets.returns

theorem clause_goesOn {stop : TokenKind} {plain : stop.isPlain} : ∀ kind ≠ stop,
    (Goal.clause stop plain).after kind =
      (Goal.expression.after kind).map (· ++ ([] ++ [.token stop plain])) :=
  fun _ other => if_neg other

/-- An expression that may be missing, and the token that ends it. -/
theorem clause_meets {stop : TokenKind} {plain : stop.isPlain} {more : List Goal}
    {closing : Parse β} {f : Option Expr → β → Parse α}
    (closes : Meets n [.token stop plain] closing) (others : ∀ e b, Meets n more (f e b)) :
    Meets n (.clause stop plain :: more)
      (unlessNext stop expression >>= fun e => closing >>= f e) := by
  intro ts later short
  have agrees : Agrees (.clause stop plain :: (more ++ later)) (.token stop plain :: (more ++ later))
      ts (unlessNext stop expression ts) :=
    unlessNext_agrees rfl rfl (if_pos rfl) clause_goesOn expression_meets short
  refine agrees.bind fun e rest run => ?_
  rw [run] at agrees
  exact (closes.bind fun b => others e b) rest later (Nat.le_trans agrees.1.length_le short)

theorem returnStmt_meets (first : Token) : Meets n [.clause .semicolon] (returnStmt first) :=
  clause_meets expect_meets fun _ _ => Meets.pure

theorem condition_meets (opening : Expectation) :
    Meets n Goal.condition (condition opening) :=
  expect_meets.discard.bind fun _ => expression_meets.bind fun _ =>
    expect_meets.discard.returns

/-- A variable whose name is told from the goals by the token behind its type, or whose type is
followed by no name. -/
theorem varDecl_agrees {type : Token} (isType : type.kind.isType)
    (named : ∀ name tail, rest = name :: tail → name.kind = .identifier →
      stuck goals (type :: rest) = stuck (.initial :: later) tail)
    (unnamed : (∀ name ∈ rest.head?, name.kind ≠ .identifier) →
      ∃ left, stuck goals (type :: rest) = some left ∧
        Refusal.About ⟨.variableName, rest⟩ left) :
    Agrees goals later (type :: rest) (varDecl (type :: rest)) := by
  rw [varDecl, bind_of_ok (expectWhere_ok.2 ⟨rfl, isType⟩)]
  by_cases isNamed : ∃ name tail, rest = name :: tail ∧ name.kind = .identifier
  · obtain ⟨name, tail, rfl, isName⟩ := isNamed
    rw [bind_of_ok (expect_ok.2 ⟨rfl, isName⟩)]
    refine Agrees.after (List.suffix_append [type, name] tail) (named name tail rfl isName) ?_
    refine Agrees.skip (fun sign tail same isSign => ?_) fun noSign => ?_
    · rw [same]
      have reads : Goal.initial.after sign.kind = some [.expression, .token .semicolon] := by
        rw [isSign]
        rfl
      refine Agrees.behind (Goal.step_after reads) ?_
      exact expression_meets.map.bind (fun _ => expect_meets.returns) tail later (Nat.le_refl _)
    · have same : stuck (.initial :: later) tail = stuck (.token .semicolon :: later) tail := by
        refine Goal.stuck_same rfl rfl fun t member => ?_
        have other := noSign t member
        cases kind : t.kind <;> simp_all [Goal.after]
      exact Agrees.of_stuck same
        (Meets.pure.bind (fun _ => expect_meets.returns) tail later (Nat.le_refl _))
  · have none : ∀ name ∈ rest.head?, name.kind ≠ .identifier := by
      rintro name member isName
      obtain ⟨tail, rfl⟩ := List.head?_eq_some_iff.1 member
      exact isNamed ⟨name, tail, rfl, isName⟩
    have refused : expect .identifier .variableName rest = .error ⟨.variableName, rest⟩ := by
      cases rest with
      | nil => rfl
      | cons name tail =>
        have other := none name rfl
        simp [expect, expectWhere, other]
    rw [bind_of_error refused]
    exact ⟨List.suffix_cons type rest, unnamed none⟩

/-- A variable in a statement or a clause. -/
theorem varDecl_within {type : Token} (isType : type.kind.isType)
    (next : step goals type.kind = some (.token .identifier :: .initial :: later)) :
    Agrees goals later (type :: rest) (varDecl (type :: rest)) := by
  refine varDecl_agrees isType ?_ fun none => ⟨rest, ?_, .inl rfl⟩
  · rintro name tail rfl isName
    have reads : (Goal.token .identifier).after name.kind = some [] := if_pos isName
    rw [Goal.stuck_step next, Goal.stuck_step (Goal.step_after reads), List.nil_append]
  · rw [Goal.stuck_step next]
    exact Goal.stuck_required rfl fun name member => if_neg (none name member)

theorem forInit_meets : Meets n [.firstClause] forInit := by
  intro ts later short
  refine Agrees.skip (fun t rest same isSemicolon => ?_) fun noSemicolon => ?_
  · rw [same]
    exact Agrees.behind (Goal.step_after (by rw [isSemicolon]; rfl)) Agrees.pure
  · rw [if_neg Bool.false_ne_true, bind_of_ok (nextIs_ok.2 ⟨rfl, rfl⟩)]
    split
    next typed =>
      obtain ⟨type, head, isType⟩ := (Option.any_eq_true _ _).1 typed
      obtain ⟨rest, rfl⟩ := List.head?_eq_some_iff.1 head
      have reads : Goal.firstClause.after type.kind = some [.token .identifier, .initial] := by
        cases kind : type.kind <;> simp_all [Goal.after, TokenKind.isType]
      exact (varDecl_within isType (Goal.step_after reads)).bind fun _ _ _ => Agrees.pure
    next untyped =>
      have same : stuck (.firstClause :: later) ts =
          stuck (.expression :: .token .semicolon :: later) ts := by
        refine Goal.stuck_map [.token .semicolon] rfl rfl fun t member => ?_
        have other := noSemicolon t member
        obtain ⟨rest, rfl⟩ := List.head?_eq_some_iff.1 member
        cases kind : t.kind <;> simp_all [Goal.after, TokenKind.isType]
      exact Agrees.of_stuck same (exprStmt_meets.returns ts later short)

section Body

variable {body : Parse (Block Stmt)}

theorem ifStmt_meets (meets : Meets n Goal.body body) (first : Token) :
    Meets n (Goal.condition ++ (Goal.body ++ [.alternative])) (ifStmt body first) := by
  refine (condition_meets .ifParen).bind fun test => meets.bind fun thenBlock => ?_
  intro ts later short
  refine Agrees.skip (fun t rest same isElse => ?_) fun noElse => ?_
  · rw [same] at short ⊢
    have reads : Goal.alternative.after t.kind = some Goal.body := by rw [isElse]; rfl
    refine Agrees.behind (Goal.step_after reads) ?_
    exact (meets rest later (Nat.le_of_succ_le short)).bind fun _ _ _ => Agrees.pure
  · refine Agrees.of_stuck (Goal.stuck_given_up rfl fun t member => ?_) Agrees.pure
    have other := noElse t member
    cases kind : t.kind <;> simp_all [Goal.after]

theorem whileStmt_meets (meets : Meets n Goal.body body) (first : Token) :
    Meets n (Goal.condition ++ Goal.body) (whileStmt body first) :=
  (condition_meets .whileParen).bind fun _ => meets.returns

theorem forStmt_meets (meets : Meets n Goal.body body) (first : Token) :
    Meets n (.token .openParen :: (Goal.clauses ++ Goal.body)) (forStmt body first) :=
  expect_meets.discard.bind fun _ => forInit_meets.bind fun _ =>
    clause_meets expect_meets.discard fun _ _ =>
      clause_meets expect_meets.discard fun _ _ => meets.returns

theorem stmtWith_meets (meets : Meets n Goal.body body) :
    Meets n [.statement] (stmtWith body) := by
  intro ts later short
  cases ts with
  | nil => exact Agrees.of_stuck rfl (exprStmt_meets [] later short)
  | cons t rest =>
    have fits : rest.length ≤ n := Nat.le_of_succ_le short
    have behind {new : List Goal} {p : Parse Stmt} (reads : Goal.statement.after t.kind = some new)
        (meets : Meets n new p) : Agrees (.statement :: later) later (t :: rest) (p rest) :=
      Agrees.behind (Goal.step_after reads) (meets rest later fits)
    have expression (reads : Goal.statement.after t.kind =
        (Goal.expression.after t.kind).map (· ++ [.token .semicolon])) :
        Agrees (.statement :: later) later (t :: rest) (exprStmt (t :: rest)) := by
      have same : stuck (.statement :: later) (t :: rest) =
          stuck (.expression :: .token .semicolon :: later) (t :: rest) :=
        Goal.stuck_map [.token .semicolon] rfl rfl (by simpa using reads)
      exact Agrees.of_stuck same (exprStmt_meets _ later short)
    simp only [stmtWith]
    cases kind : t.kind <;> rw [kind] at behind expression
    case ifWord => exact behind rfl (ifStmt_meets meets t)
    case whileWord => exact behind rfl (whileStmt_meets meets t)
    case forWord => exact behind rfl (forStmt_meets meets t)
    case returnWord => exact behind rfl (returnStmt_meets t)
    case typeWord =>
      have isType : t.kind.isType := by rw [kind]; rfl
      have reads : Goal.statement.after t.kind = some [.token .identifier, .initial] := by
        rw [kind]
        rfl
      exact (varDecl_within isType (Goal.step_after reads)).map
    case openBrace =>
      have same : stuck (.statement :: later) (t :: rest) = stuck (Goal.body ++ later) (t :: rest) :=
        by simp [stuck, step, Goal.after, Goal.statementAfter, Goal.body, kind]
      exact Agrees.of_stuck same (meets (t :: rest) later short).map
    all_goals exact expression rfl

end Body

theorem block_meets {stmt : Parse Stmt} {bound : Nat} (meets : Meets n [.statement] stmt)
    (le : n ≤ bound) : Meets (n + 1) Goal.body (block stmt bound) := by
  intro ts later short
  have opening : Meets (n + 1) [.token .openBrace] (expect .openBrace .blockStart) :=
    expect_meets
  refine (opening ts (.statements :: later) short).bind fun first rest run => ?_
  obtain ⟨rfl, -⟩ := expect_ok.1 run
  have opens : ∀ t ∈ rest, decide (t.kind = .closeBrace) = false → t.kind ≠ .semicolon →
      ∀ tail, stuck (.statements :: later) (t :: tail) =
        stuck (.statement :: .statements :: later) (t :: tail) := by
    intro t _ goesOn other tail
    refine Goal.stuck_map [.statements] rfl rfl ?_
    cases kind : t.kind <;> simp_all [Goal.after]
  obtain ⟨agrees, stops⟩ :=
    sequence_agrees (· = .closeBrace) rfl rfl opens meets le (Nat.le_of_succ_le_succ short)
  refine agrees.bind fun statements last run => ?_
  have closing := stops statements last run
  have same : stuck (.statements :: later) last = stuck (.token .closeBrace :: later) last := by
    refine Goal.stuck_same rfl rfl fun t member => ?_
    have isClose : t.kind = .closeBrace := by simpa using closing t member
    rw [isClose]
    rfl
  exact Agrees.of_stuck same (expect_meets.returns last later (Nat.le_refl _))

theorem stmtWithin_meets {bound : Nat} : Meets bound [.statement] (stmtWithin bound) := by
  induction bound with
  | zero =>
    intro ts later short
    obtain rfl := List.length_eq_zero_iff.1 (Nat.le_zero.1 short)
    exact Agrees.of_stuck rfl (exprStmt_meets [] later short)
  | succ bound ih => exact stmtWith_meets (block_meets ih (Nat.le_refl _))

theorem statement_meets : Meets n [.statement] statement :=
  fun ts later _ => stmtWithin_meets ts later (Nat.le_refl _)

theorem body_meets : Meets n Goal.body body :=
  fun ts later _ => block_meets stmtWithin_meets (Nat.le_refl _) ts later (Nat.le_succ _)

/-! ## Declarations -/

theorem param_meets : Meets n [.parameter] param := by
  intro ts later short
  cases ts with
  | nil => exact Agrees.refused (Goal.stuck_required rfl (by simp))
  | cons t rest =>
    by_cases isType : t.kind.isType
    · rw [param, bind_of_ok (expectWhere_ok.2 ⟨rfl, isType⟩)]
      refine Agrees.behind (Goal.step_after (if_pos isType)) ?_
      exact expect_meets.returns rest later (Nat.le_refl _)
    · have refused : expectWhere TokenKind.isType .parameterType (t :: rest) =
          .error ⟨.parameterType, t :: rest⟩ := if_neg isType
      rw [param, bind_of_error refused]
      have useless : Goal.parameter.after t.kind = none := if_neg isType
      exact Agrees.refused (Goal.stuck_required rfl (by simpa using useless))

theorem params_meets : Meets n [.parameter, .moreParameters] params := by
  intro ts later _
  refine (commaList_meets rfl rfl (fun kind other => ?_) param_meets (Nat.le_refl _)
    ts later (Nat.le_refl _)).map
  cases kind <;> simp_all [Goal.after]

/-- A body is missing only where its brace is. -/
theorem bodyOrRefuse_meets {expected : Expectation} {p : Unit → Parse α}
    (meets : Meets n Goal.body (p ())) :
    Meets n Goal.body (nextIs (· = .openBrace) >>= fun braced =>
      if !braced then refuse expected >>= p else p ()) := by
  intro ts later short
  rw [bind_of_ok (nextIs_ok.2 ⟨rfl, rfl⟩)]
  split
  next missing =>
    have refused : (refuse expected : Parse Unit) ts = .error ⟨expected, ts⟩ := rfl
    rw [bind_of_error refused]
    refine Agrees.refused (Goal.stuck_required rfl fun t member => if_neg fun isBrace => ?_)
    obtain ⟨rest, rfl⟩ := List.head?_eq_some_iff.1 member
    simp [isBrace] at missing
  next => exact meets ts later short

theorem functionDecl_meets (type name : Token) :
    Meets n Goal.function (functionDecl type name) := by
  have goesOn : ∀ kind ≠ .closeParen, Goal.parameters.after kind =
      (Goal.parameter.after kind).map (· ++ [.moreParameters, .token .closeParen]) :=
    fun kind other => by cases kind <;> simp_all [Goal.after]
  refine expect_meets.discard.bind fun _ => ?_
  intro ts later short
  have agrees : Agrees (.parameters :: (Goal.body ++ later))
      (.token .closeParen :: (Goal.body ++ later)) ts (unlessNext .closeParen params ts) :=
    unlessNext_agrees rfl rfl rfl goesOn params_meets short
  refine agrees.bind fun params? rest _ => ?_
  exact expect_meets.discard.bind (fun _ => bodyOrRefuse_meets body_meets.returns)
    rest later (Nat.le_refl _)

/-- A node at the top level that does not start with a type is a statement. -/
theorem top_statement (noType : ∀ t ∈ ts.head?, t.kind.isType = false) :
    Agrees (.top :: later) later ts ((TopLevel.statement <$> statement) ts) := by
  have same : stuck (.top :: later) ts = stuck (.statement :: later) ts := by
    refine Goal.stuck_same rfl rfl fun t member => ?_
    simp [Goal.after, Goal.topAfter, noType t member]
  exact Agrees.of_stuck same (statement_meets ts later (Nat.le_refl _)).map

/-- A node at the top level that starts with a type and not as a function is a variable. -/
theorem top_global {type : Token} (isType : type.kind.isType)
    (noFunction : ∀ name paren tail, rest = name :: paren :: tail → name.kind.isCallable →
      paren.kind ≠ .openParen) :
    Agrees (.top :: later) later (type :: rest) ((TopLevel.global <$> varDecl) (type :: rest)) := by
  have reads : Goal.top.after type.kind = some [.topName] := if_pos isType
  have start : stuck (.top :: later) (type :: rest) = stuck (.topName :: later) rest :=
    Goal.stuck_step (Goal.step_after reads)
  refine (varDecl_agrees isType ?_ fun unnamed => ?_).map
  · rintro name tail rfl isName
    have named : Goal.topName.after name.kind = some [.topRest] := by rw [isName]; rfl
    rw [start, Goal.stuck_step (Goal.step_after named)]
    refine Goal.stuck_same rfl rfl fun paren member => ?_
    obtain ⟨more, rfl⟩ := List.head?_eq_some_iff.1 member
    have noParen := noFunction name paren more rfl (by rw [isName]; rfl)
    cases kind : paren.kind <;> simp_all [Goal.after]
  · rw [start]
    by_cases reserved : ∃ name tail, rest = name :: tail ∧ name.kind = .mainWord
    · obtain ⟨name, tail, rfl, isMain⟩ := reserved
      have named : Goal.topName.after name.kind = some Goal.function := by rw [isMain]; rfl
      refine ⟨tail, ?_, .inr ⟨name, rfl, isMain⟩⟩
      rw [Goal.stuck_step (Goal.step_after named)]
      refine Goal.stuck_required rfl fun paren member => if_neg ?_
      obtain ⟨more, rfl⟩ := List.head?_eq_some_iff.1 member
      exact noFunction name paren more rfl (by rw [isMain]; rfl)
    · refine ⟨rest, Goal.stuck_required rfl fun name member => ?_, .inl rfl⟩
      obtain ⟨tail, rfl⟩ := List.head?_eq_some_iff.1 member
      have noName := unnamed name member
      have noMain : name.kind ≠ .mainWord := fun isMain => reserved ⟨name, tail, rfl, isMain⟩
      cases kind : name.kind <;> simp_all [Goal.after]

/-- The goals behind the beginning of a function. -/
theorem stuck_function {type name : Token} (isType : type.kind.isType)
    (callable : name.kind.isCallable) (isParen : ∃ t ∈ rest.head?, t.kind = .openParen) :
    stuck (.top :: later) (type :: name :: rest) = stuck (Goal.function ++ later) rest := by
  obtain ⟨paren, member, isParen⟩ := isParen
  obtain ⟨tail, rfl⟩ := List.head?_eq_some_iff.1 member
  have reads : Goal.top.after type.kind = some [.topName] := if_pos isType
  rw [Goal.stuck_step (Goal.step_after reads)]
  cases kind : name.kind <;> rw [kind] at callable <;> cases callable
  all_goals simp [stuck, step, Goal.after, Goal.function, Goal.body, kind, isParen]

theorem topLevel_meets : Meets n [.top] topLevel := by
  intro ts later short
  match ts with
  | [] => exact top_statement (by simp)
  | [type] =>
    simp only [topLevel]
    split
    next isType => exact top_global isType (by simp)
    next noType => exact top_statement (by simpa using noType)
  | type :: name :: rest =>
    simp only [topLevel]
    split
    next starts =>
      obtain ⟨isType, callable, isParen⟩ := startsFunction_eq_true.1 starts
      exact (functionDecl_meets type name rest later (Nat.le_refl _)).map.after
        (List.suffix_append [type, name] rest) (stuck_function isType callable isParen)
    next noFunction =>
      split
      next isType =>
        refine top_global isType ?_
        rintro name paren tail same callable isParen
        cases same
        exact noFunction (startsFunction_eq_true.2 ⟨isType, callable, paren, rfl, isParen⟩)
      next noType => exact top_statement (by simpa using noType)

/-- Without end tokens the goals at the top level are met by what is a program. -/
theorem declarations_agrees (noEnd : ∀ t ∈ ts, t.isEnd = false) :
    Agrees [] [] ts (declarations ts) ∧
      ∀ nodes rest, declarations ts = .ok (nodes, rest) → rest = [] := by
  have opens : ∀ t ∈ ts, false = false → t.kind ≠ .semicolon →
      ∀ rest, stuck [] (t :: rest) = stuck [.top] (t :: rest) := by
    intro t member _ other rest
    refine Goal.stuck_congr (fun u first => ?_) fun ends => ?_
    · cases first
      cases reads : Goal.topAfter t.kind <;> simp [step, Goal.after, Goal.optional, reads, other]
    · have isEnd := ends t rfl
      rw [noEnd t member] at isEnd
      cases isEnd
  obtain ⟨agrees, stops⟩ := sequence_agrees (fun _ => false) rfl rfl opens topLevel_meets
    (Nat.le_refl _) (Nat.le_refl _)
  refine ⟨agrees, fun nodes rest run => ?_⟩
  have none := stops nodes rest run
  cases rest with
  | nil => rfl
  | cons t rest => simpa using none t rfl

end Grammar

end ProcCheck
