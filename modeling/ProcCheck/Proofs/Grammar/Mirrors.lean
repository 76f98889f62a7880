import ProcCheck.Proofs.Grammar.Cursor

/-!
# A cursor and the tokens ahead

From its place on a cursor has tokens up to the first end token ahead. `Mirrors` relates a reader
with a cursor to one that takes the same tokens from the front of a list: both return or both refuse
the same token, and the cursor moves by the tokens that are taken.
-/

namespace ProcCheck

@[simp] theorem Span.append_append (a b c : Span) : a ++ (b ++ c) = a ++ c := rfl

namespace Token

/-- The stretch of source that tokens cover. -/
def excerpts (ts : List Token) : Excerpt :=
  ⟨ts.flatMap (·.spelling), ts.head?.elim default span ++ ts.getLast?.elim default span⟩

variable {ts us : List Token} {t : Token}

@[simp] theorem excerpts_singleton : excerpts [t] = t.excerpt := by
  simp [excerpts, excerpt]
  rfl

theorem excerpts_append (left : ts ≠ []) (right : us ≠ []) :
    excerpts (ts ++ us) = excerpts ts ++ excerpts us := by
  obtain ⟨first, more, rfl⟩ := List.exists_cons_of_ne_nil left
  have ends := List.getLast?_eq_some_getLast right
  change Excerpt.mk _ _ = Excerpt.mk _ _
  rw [List.getLast?_append, ends, List.flatMap_append]
  simp only [excerpts, ends]
  rfl

theorem excerpts_cons (more : ts ≠ []) : excerpts (t :: ts) = t.excerpt ++ excerpts ts := by
  rw [← List.singleton_append, excerpts_append (List.cons_ne_nil t []) more, excerpts_singleton]

/-- What tokens cover ends with the last of them. -/
theorem append_span_excerpts (right : us ≠ []) (span : Span) :
    span ++ (excerpts (ts ++ us)).span = span ++ (excerpts us).span := by
  have ends := List.getLast?_eq_some_getLast right
  simp only [excerpts, List.getLast?_append, ends]
  rfl

@[simp] theorem excerpt_span : t.excerpt.span = t.span := rfl

end Token

namespace Grammar

/-- Reads with `p` behind a token of the kind `opening`, if there is one. -/
def ifNext {α : Type} (opening : TokenKind) (p : Parse α) : Parse (Option α) := do
  if ← skip opening then return some (← p) else return none

end Grammar

namespace Cursor

variable {α β : Type} {tokens ts rest used : List Token} {last t : Token} {c : Nat}

/-! ## Runs -/

section Runs

variable {p : Cursor α} {f : α → Cursor β} {a : α} {c' : Nat}

theorem bind_of_ok (run : p tokens c = .ok (a, c')) : (p >>= f) tokens c = f a tokens c' := by
  simp [bind, ReaderT.bind, StateT.bind, Except.bind, run]

theorem bind_of_error {why : Stop} (run : p tokens c = .error why) :
    (p >>= f) tokens c = .error why := by
  simp [bind, ReaderT.bind, StateT.bind, Except.bind, run]

end Runs

theorem and_of_ok {x y : Cursor Bool} {b b' : Bool} (first : x tokens c = .ok (b, c))
    (second : b = true → y tokens c = .ok (b', c)) : (x <&&> y) tokens c = .ok (b && b', c) := by
  rw [andM, bind_of_ok first]
  cases b with
  | true => exact second rfl
  | false => rfl

theorem place_eq : place tokens c = .ok (c, c) := rfl

theorem tokenAt_eq {i : Nat} (found : tokens[i]? = some t) : tokenAt i tokens c = .ok (t, c) := by
  simp only [tokenAt, found]

/-- The tokens from a place on: `ts`, and then the first end token. -/
structure Ahead (tokens : List Token) (last : Token) (c : Nat) (ts : List Token) : Prop where
  split : ∃ behind, tokens.drop c = ts ++ last :: behind
  isEnd : last.isEnd
  noEnd : ∀ t ∈ ts, t.isEnd = false

namespace Ahead

theorem after (ahead : Ahead tokens last c (used ++ rest)) :
    Ahead tokens last (c + used.length) rest := by
  obtain ⟨behind, split⟩ := ahead.split
  refine ⟨⟨behind, ?_⟩, ahead.isEnd, fun t member => ahead.noEnd t (List.mem_append_right _ member)⟩
  rw [← List.drop_drop, split, List.append_assoc, List.drop_left]

theorem step (ahead : Ahead tokens last c (t :: rest)) : Ahead tokens last (c + 1) rest :=
  Ahead.after (show Ahead tokens last c ([t] ++ rest) from ahead)

/-- The tokens ahead and the end token behind them are in the list. -/
theorem getElem? (ahead : Ahead tokens last c ts) {i : Nat} (near : i ≤ ts.length) :
    tokens[c + i]? = some (ts[i]?.getD last) := by
  obtain ⟨behind, split⟩ := ahead.split
  rw [← List.getElem?_drop, split]
  rcases Nat.lt_or_eq_of_le near with lt | rfl
  · rw [List.getElem?_append_left lt, List.getElem?_eq_getElem lt]
    rfl
  · simp

/-- The token under the cursor is the next one ahead. -/
theorem here (ahead : Ahead tokens last c ts) : tokens[c]? = some (ts.head?.getD last) := by
  rw [List.head?_eq_getElem?]
  exact ahead.getElem? (Nat.zero_le _)

theorem peekAt (ahead : Ahead tokens last c ts) {i : Nat} (near : i ≤ ts.length) :
    Cursor.peekAt i tokens c = .ok (ts[i]?.getD last, c) := by
  have found := ahead.getElem? near
  obtain ⟨inside, -⟩ := List.getElem?_eq_some_iff.1 found
  have nearest : min (c + i) (tokens.length - 1) = c + i := by omega
  rw [Cursor.peekAt, nearest, tokenAt_eq found]

/-- However far a cursor looks ahead, it sees a token of the list. -/
theorem exists_peekAt (ahead : Ahead tokens last c ts) (i : Nat) :
    ∃ t, Cursor.peekAt i tokens c = .ok (t, c) := by
  obtain ⟨inside, -⟩ := List.getElem?_eq_some_iff.1 ahead.here
  have nearest : min (c + i) (tokens.length - 1) < tokens.length := by omega
  exact ⟨_, tokenAt_eq (List.getElem?_eq_getElem nearest)⟩

theorem peek (ahead : Ahead tokens last c ts) :
    Cursor.peek tokens c = .ok (ts.head?.getD last, c) := by
  rw [Cursor.peek, bind_of_ok place_eq, tokenAt_eq ahead.here]

theorem isAtEnd (ahead : Ahead tokens last c ts) :
    Cursor.isAtEnd tokens c = .ok (ts.isEmpty, c) := by
  rw [Cursor.isAtEnd, bind_of_ok ahead.peek]
  cases ts with
  | nil => exact congrArg (fun b => Except.ok (b, c)) ahead.isEnd
  | cons t rest => exact congrArg (fun b => Except.ok (b, c)) (ahead.noEnd t List.mem_cons_self)

theorem check (ahead : Ahead tokens last c ts) {p : TokenKind → Bool} :
    Cursor.check p tokens c = .ok (ts.head?.any (p ·.kind), c) := by
  rw [Cursor.check, bind_of_ok ahead.isAtEnd]
  cases ts with
  | nil => rfl
  | cons t rest =>
    change (Cursor.peek >>= fun t => pure (p t.kind)) tokens c = _
    rw [bind_of_ok ahead.peek]
    rfl

theorem previous (ahead : Ahead tokens last c (t :: rest)) :
    Cursor.previous tokens (c + 1) = .ok (t, c + 1) := by
  rw [Cursor.previous, bind_of_ok place_eq]
  exact tokenAt_eq ahead.here

theorem advance (ahead : Ahead tokens last c (t :: rest)) :
    Cursor.advance tokens c = .ok (t, c + 1) := by
  rw [Cursor.advance, bind_of_ok ahead.isAtEnd]
  exact ahead.previous

/-- Behind the last token ahead there is the end token, which is of no other kind. -/
theorem isBehind (ahead : Ahead tokens last c (t :: rest)) {kind : TokenKind}
    (noEnd : kind ≠ .endOfInput) :
    Cursor.isBehind kind tokens c = .ok (rest.head?.any (·.kind = kind), c) := by
  rw [Cursor.isBehind, bind_of_ok (ahead.peekAt (Nat.le_add_left 1 rest.length))]
  cases rest with
  | nil =>
    have other : last.kind ≠ kind := by rw [of_decide_eq_true ahead.isEnd]; exact noEnd.symm
    refine congrArg (fun b => Except.ok (b, c)) ?_
    simpa using other
  | cons u rest => rfl

theorem accept_next (ahead : Ahead tokens last c (t :: rest)) :
    Cursor.accept t.kind tokens c = .ok (true, c + 1) := by
  rw [Cursor.accept, bind_of_ok ahead.check, if_pos (by simp), bind_of_ok ahead.advance]
  rfl

theorem accept_other (ahead : Ahead tokens last c ts) {kind : TokenKind}
    (other : ∀ t ∈ ts.head?, t.kind ≠ kind) : Cursor.accept kind tokens c = .ok (false, c) := by
  rw [Cursor.accept, bind_of_ok ahead.check, if_neg (by simpa [Option.any_eq_true] using other)]
  rfl

theorem spanFrom (ahead : Ahead tokens last c (used ++ rest)) (moved : used ≠ []) :
    Cursor.spanFrom c tokens (c + used.length) =
      .ok ((Token.excerpts used).span, c + used.length) := by
  obtain ⟨first, more, rfl⟩ := List.exists_cons_of_ne_nil moved
  have between : c < c + (first :: more).length := by simp
  rw [Cursor.spanFrom, bind_of_ok (tokenAt_eq ahead.here), bind_of_ok place_eq,
    if_pos between]
  obtain ⟨front, final, split⟩ : ∃ front final, first :: more = front ++ [final] :=
    ⟨_, _, (List.dropLast_concat_getLast moved).symm⟩
  have final? : (first :: more).getLast? = some final := by simp [split]
  have ends : (Token.excerpts (first :: more)).span = first.span ++ final.span := by
    simp only [Token.excerpts, final?]
    rfl
  have behind : c + (first :: more).length = c + front.length + 1 := by simp [split, Nat.add_assoc]
  rw [split, List.append_assoc] at ahead
  rw [ends, behind, bind_of_ok ahead.after.previous]
  rfl

/-- The span of all tokens ahead, or of the end token if there are none. -/
theorem spanFrom_all (ahead : Ahead tokens last c ts) :
    Cursor.spanFrom c tokens (c + ts.length) =
      .ok ((ts.headD last).span ++ (ts.getLast?.getD last).span, c + ts.length) := by
  cases ts with
  | nil =>
    rw [Cursor.spanFrom, List.length_nil, Nat.add_zero, bind_of_ok (tokenAt_eq ahead.here),
      bind_of_ok place_eq, if_neg (Nat.lt_irrefl c)]
    rfl
  | cons first more =>
    have whole : Ahead tokens last c (first :: more ++ []) := by rwa [List.append_nil]
    have final := List.getLast?_eq_some_getLast (List.cons_ne_nil first more)
    rw [whole.spanFrom (List.cons_ne_nil first more)]
    simp only [Token.excerpts, final]
    rfl

theorem textFrom (ahead : Ahead tokens last c (used ++ rest)) :
    Cursor.textFrom c tokens (c + used.length) =
      .ok ((Token.excerpts used).text, c + used.length) := by
  obtain ⟨behind, split⟩ := ahead.split
  simp [Cursor.textFrom, Token.excerpts, List.drop_take, split]

end Ahead

/-! ## Readers that mirror each other -/

variable {γ δ : Type} {n : Nat} {R : β → α → List Token → Prop} {S : δ → γ → List Token → Prop}
  {p : Grammar.Parse β} {q : Cursor α} {f : β → Grammar.Parse δ} {g : α → Cursor γ}

/-- Outcomes of reading `ts`, with a cursor at `c`, that agree: both are results, related by `R` with
the tokens that are taken, or both refuse the same token. -/
inductive Matches (last : Token) (R : β → α → List Token → Prop) (c : Nat) (ts : List Token)
    (outcome : Except Grammar.Refusal (β × List Token)) (outcome' : Except Stop (α × Nat)) : Prop
  | read {b : β} {a : α} {rest : List Token} (used : List Token) (split : ts = used ++ rest)
      (run : outcome = .ok (b, rest)) (run' : outcome' = .ok (a, c + used.length))
      (related : R b a used)
  | refused {r : Grammar.Refusal} (run : outcome = .error r)
      (run' : outcome' = .error (.refused (.unmet r.expected (r.rest.headD last))))

namespace Matches

variable {outcome : Except Grammar.Refusal (β × List Token)} {outcome' : Except Stop (α × Nat)}

theorem mono {S : β → α → List Token → Prop} (run : Matches last R c ts outcome outcome')
    (imp : ∀ b a used, R b a used → S b a used) : Matches last S c ts outcome outcome' := by
  cases run with
  | read used split run run' related => exact .read used split run run' (imp _ _ _ related)
  | refused run run' => exact .refused run run'

theorem pure {b : β} {a : α} (related : R b a []) :
    Matches last R c ts ((Pure.pure b : Grammar.Parse β) ts) ((Pure.pure a : Cursor α) tokens c) :=
  .read [] rfl rfl rfl related

theorem bind (first : Matches last R c ts (p ts) (q tokens c))
    (second : ∀ b a used rest, ts = used ++ rest → R b a used →
      Matches last (fun d e more => S d e (used ++ more)) (c + used.length) rest (f b rest)
        (g a tokens (c + used.length))) :
    Matches last S c ts ((p >>= f) ts) ((q >>= g) tokens c) := by
  cases first with
  | refused run run' =>
    rw [Grammar.bind_of_error run, bind_of_error run']
    exact .refused rfl rfl
  | read used split run run' related =>
    rw [Grammar.bind_of_ok run, bind_of_ok run']
    subst split
    cases second _ _ _ _ rfl related with
    | refused run run' => exact .refused run run'
    | read used split run run' related =>
      subst split
      refine .read _ (List.append_assoc _ _ _).symm run ?_ related
      rw [run', List.length_append, Nat.add_assoc]

theorem map {f : β → δ} {g : α → γ} {us : List Token} {c' : Nat}
    (run : Matches last R c ts (p us) (q tokens c'))
    (imp : ∀ b a used, R b a used → S (f b) (g a) used) :
    Matches last S c ts ((f <$> p) us) ((q >>= fun a => Pure.pure (g a)) tokens c') := by
  rw [map_eq_pure_bind]
  cases run with
  | refused run run' =>
    rw [Grammar.bind_of_error run, bind_of_error run']
    exact .refused rfl rfl
  | read used split run run' related =>
    rw [Grammar.bind_of_ok run, bind_of_ok run']
    exact .read used split rfl rfl (imp _ _ _ related)

/-- A token in front that is taken. -/
theorem cons (later : Matches last (fun b a used => R b a (t :: used)) (c + 1) rest outcome
    outcome') : Matches last R c (t :: rest) outcome outcome' := by
  cases later with
  | refused run run' => exact .refused run run'
  | read used split run run' related =>
    subst split
    refine .read _ (List.cons_append).symm run ?_ related
    rw [run', List.length_cons, Nat.add_right_comm, Nat.add_assoc]

/-- A token that the reader from the list was given. -/
theorem behind {g : Token → Cursor α} (ahead : Ahead tokens last c (t :: rest))
    (later : Matches last (fun b a used => R b a (t :: used)) (c + 1) rest outcome
      (g t tokens (c + 1))) :
    Matches last R c (t :: rest) outcome ((advance >>= g) tokens c) := by
  rw [bind_of_ok ahead.advance]
  exact later.cons

theorem located {read : Cursor (Span → α)} (ahead : Ahead tokens last c ts)
    (run : Matches last (fun b make used => used ≠ [] ∧ R b (make (Token.excerpts used).span) used)
      c ts outcome (read tokens c)) : Matches last R c ts outcome (Cursor.located read tokens c) := by
  rw [Cursor.located, bind_of_ok place_eq]
  cases run with
  | refused run run' =>
    rw [bind_of_error run']
    exact .refused run rfl
  | read used split run run' related =>
    subst split
    rw [bind_of_ok run', bind_of_ok (ahead.spanFrom related.1)]
    exact .read used rfl run rfl related.2

theorem excerpted {read : Cursor (Excerpt → α)} (ahead : Ahead tokens last c ts)
    (run : Matches last (fun b make used => used ≠ [] ∧ R b (make (Token.excerpts used)) used)
      c ts outcome (read tokens c)) :
    Matches last R c ts outcome (Cursor.excerpted read tokens c) := by
  rw [Cursor.excerpted, bind_of_ok place_eq]
  cases run with
  | refused run run' =>
    rw [bind_of_error run']
    exact .refused run rfl
  | read used split run run' related =>
    subst split
    rw [bind_of_ok run', bind_of_ok ahead.textFrom, bind_of_ok (ahead.spanFrom related.1)]
    exact .read used rfl run rfl related.2

end Matches

/-- A reader of fewer than `n` tokens and one with a cursor whose outcomes agree wherever these
tokens are ahead. -/
def Mirrors (n : Nat) (R : β → α → List Token → Prop) (p : Grammar.Parse β) (q : Cursor α) : Prop :=
  ∀ ⦃tokens last c ts⦄, Ahead tokens last c ts → ts.length < n →
    Matches last R c ts (p ts) (q tokens c)

namespace Mirrors

theorem of_zero (zero : n = 0) : Mirrors n R p q :=
  fun _ _ _ _ _ short => absurd short (by omega)

theorem fewer {m : Nat} (mirrors : Mirrors n R p q) (le : m ≤ n) : Mirrors m R p q :=
  fun _ _ _ _ ahead short => mirrors ahead (Nat.lt_of_lt_of_le short le)

theorem mono {S : β → α → List Token → Prop} (mirrors : Mirrors n R p q)
    (imp : ∀ b a used, R b a used → S b a used) : Mirrors n S p q :=
  fun _ _ _ _ ahead short => (mirrors ahead short).mono imp

theorem pure {b : β} {a : α} (related : R b a []) : Mirrors n R (Pure.pure b) (Pure.pure a) :=
  fun _ _ _ _ _ _ => .pure related

theorem bind (first : Mirrors n R p q)
    (second : ∀ b a used, R b a used →
      Mirrors (n - used.length) (fun d e more => S d e (used ++ more)) (f b) (g a)) :
    Mirrors n S (p >>= f) (q >>= g) := by
  intro tokens last c ts ahead short
  refine (first ahead short).bind fun b a used rest split related => ?_
  subst split
  rw [List.length_append] at short
  exact second b a used related ahead.after (by omega)

end Mirrors

/-- The same result. -/
abbrev Same (b a : α) (_ : List Token) : Prop := a = b

/-- The same result, read from at least one token. -/
abbrev Took (b a : α) (used : List Token) : Prop := a = b ∧ used ≠ []

/-- Optional results, both missing with no token taken, or both there and related. -/
def Optional (R : β → α → List Token → Prop) (b : Option β) (a : Option α) (used : List Token) :
    Prop :=
  (b = none ∧ a = none ∧ used = []) ∨ ∃ b' a', b = some b' ∧ a = some a' ∧ R b' a' used

theorem Optional.eq {R : α → α → List Token → Prop} (same : ∀ b a used, R b a used → a = b)
    {b a : Option α} (related : Optional R b a used) : a = b := by
  obtain ⟨rfl, rfl, -⟩ | ⟨_, _, rfl, rfl, both⟩ := related
  · rfl
  · rw [same _ _ _ both]

/-! ## Single tokens -/

section Single

variable {kind : TokenKind} {k : TokenKind → Bool} {expected : Expectation}

theorem check_mirrors :
    Mirrors n (fun b a used => a = b ∧ used = []) (Grammar.nextIs k) (check k) := by
  intro tokens last c ts ahead _
  exact .read [] rfl rfl ahead.check ⟨rfl, rfl⟩

theorem consumeWhere_mirrors :
    Mirrors n (fun b a used => a = b ∧ used = [b]) (Grammar.expectWhere k expected)
      (consumeWhere k expected) := by
  intro tokens last c ts ahead _
  rw [consumeWhere, bind_of_ok ahead.check]
  cases ts with
  | nil =>
    refine .refused rfl ?_
    rw [List.head?_nil, if_neg (by simp), bind_of_ok ahead.peek]
    rfl
  | cons t rest =>
    by_cases accepted : k t.kind
    · refine .read [t] rfl (Grammar.expectWhere_ok.2 ⟨rfl, accepted⟩) ?_ ⟨rfl, rfl⟩
      rw [if_pos (by simpa using accepted), ahead.advance]
      rfl
    · refine .refused (r := ⟨expected, t :: rest⟩) (if_neg accepted) ?_
      rw [if_neg (by simpa using accepted), bind_of_ok ahead.peek]
      rfl

theorem consume_mirrors :
    Mirrors n (fun b a used => a = b ∧ used = [b]) (Grammar.expect kind expected)
      (consume kind expected) := consumeWhere_mirrors

theorem accept_mirrors :
    Mirrors n (fun (b a : Bool) used => a = b ∧ if b then ∃ t, used = [t] else used = [])
      (Grammar.skip kind) (accept kind) := by
  intro tokens last c ts ahead _
  obtain ⟨t, rest, rfl, rfl⟩ | other := Grammar.head_cases ts (· = kind)
  · have taken : Grammar.skip t.kind (t :: rest) = .ok (true, rest) :=
      Grammar.skip_ok.2 (.inl ⟨rfl, t, rfl, rfl⟩)
    exact .read [t] rfl taken ahead.accept_next (by simp)
  · have left : Grammar.skip kind ts = .ok (false, ts) := Grammar.skip_ok.2 (.inr ⟨rfl, rfl, other⟩)
    exact .read [] rfl left (ahead.accept_other other) (by simp)

end Single

/-! ## Readers of readers -/

section Readers

theorem Mirrors.discard (mirrors : Mirrors n R p q) :
    Mirrors n (fun _ a used => ∃ b, R b a used) (Functor.discard p) q := by
  rw [discard_eq_bind, ← bind_pure q]
  refine mirrors.bind fun b a used related => .pure ⟨b, by simpa using related⟩

theorem unlessNext_mirrors {ending : TokenKind} (mirrors : Mirrors n R p q) :
    Mirrors n (Optional R) (Grammar.unlessNext ending p) (unlessNext ending q) := by
  refine check_mirrors.bind ?_
  rintro _ b _ ⟨rfl, rfl⟩
  cases b with
  | true => exact .pure (.inl ⟨rfl, rfl, rfl⟩)
  | false =>
    refine mirrors.bind fun b a used related => .pure (.inr ⟨b, a, rfl, rfl, ?_⟩)
    simpa using related

theorem ifNext_mirrors {opening : TokenKind} (mirrors : Mirrors n R p q) :
    Mirrors n (Optional fun b a used => ∃ sign more, used = sign :: more ∧ R b a more)
      (Grammar.ifNext opening p) (ifNext opening q) := by
  refine accept_mirrors.bind ?_
  rintro _ b used ⟨rfl, taken⟩
  cases b with
  | true =>
    obtain ⟨sign, rfl⟩ := taken
    refine (mirrors.fewer (Nat.sub_le _ _)).bind fun b a more related => .pure ?_
    exact .inr ⟨b, a, rfl, rfl, sign, more, by simp, related⟩
  | false =>
    obtain rfl := taken
    exact .pure (.inl ⟨rfl, rfl, rfl⟩)

/-- Items with commas between them, and the list of these items. -/
inductive Listed (R : β → α → List Token → Prop) :
    β × List (Token × β) → List α → List Token → Prop
  | one {b : β} {a : α} {used : List Token} : R b a used → Listed R (b, []) [a] used
  | more {b next : β} {a : α} {used others : List Token} {comma : Token}
      {items : List (Token × β)} {as : List α} : R b a used → Listed R (next, items) as others →
      Listed R (b, (comma, next) :: items) (a :: as) (used ++ comma :: others)

theorem commaList_mirrors {bound rounds : Nat} (le : n ≤ bound + 1) (enough : n ≤ rounds)
    (mirrors : Mirrors n R p q) (progress : ∀ b a used, R b a used → used ≠ []) :
    Mirrors n (Listed R) (Grammar.commaList p bound) (commaList q rounds) := by
  induction rounds generalizing bound n with
  | zero => exact .of_zero (by omega)
  | succ rounds ih =>
    cases bound with
    | zero =>
      intro tokens last c ts ahead short
      obtain rfl := List.length_eq_zero_iff.1 (Nat.lt_one_iff.1 (Nat.lt_of_lt_of_le short le))
      refine (mirrors ahead short).bind fun b a used rest split related => ?_
      exact absurd (List.append_eq_nil_iff.1 split.symm).1 (progress b a used related)
    | succ bound =>
      refine mirrors.bind fun b a used related => ?_
      have taken := List.length_pos_iff.2 (progress b a used related)
      intro tokens last c ts ahead short
      obtain ⟨comma, rest, rfl, isComma⟩ | other := Grammar.head_cases ts (· = .comma)
      · have takes : (if comma.kind = .comma then some () else none) = some () := if_pos isComma
        rw [Grammar.bind_of_ok (Grammar.take?_ok.2 (.inl ⟨(), comma, rfl, rfl, takes⟩)), ← isComma,
          bind_of_ok ahead.accept_next, if_pos rfl]
        refine .cons ?_
        have others := ih (show n - 1 ≤ bound + 1 by omega) (by omega)
          (mirrors.fewer (Nat.sub_le n 1))
        refine (others ahead.step ?_).bind ?_
        · simp only [List.length_cons] at short
          omega
        rintro ⟨next, items⟩ as used' rest' - listed
        exact .pure (by simpa using .more related listed)
      · have none : ∀ t ∈ ts.head?, (if t.kind = .comma then some () else none) = none :=
          fun t member => if_neg (other t member)
        rw [Grammar.bind_of_ok (Grammar.take?_ok.2 (.inr ⟨rfl, rfl, none⟩)),
          bind_of_ok (ahead.accept_other other)]
        exact .pure (by simpa using .one related)

theorem sequence_mirrors {item : Grammar.Parse α} {goesOn : Cursor Bool} {k : TokenKind → Bool}
    {bound rounds : Nat} (le : n ≤ bound + 1) (enough : n ≤ rounds) (mirrors : Mirrors n Took item q)
    (decides : ∀ ⦃tokens last c ts⦄, Ahead tokens last c ts →
      goesOn tokens c = .ok (ts.head?.any (!k ·.kind), c)) :
    Mirrors n Same (Grammar.sequence item k bound) (sequence goesOn q rounds) := by
  induction rounds generalizing bound n with
  | zero => exact .of_zero (by omega)
  | succ rounds ih =>
    intro tokens last c ts ahead short
    have ends (stopped : ts.head?.any (!k ·.kind) = false)
        (run : Grammar.sequence item k bound ts = .ok ([], ts)) :
        Matches last Same c ts (Grammar.sequence item k bound ts)
          (sequence goesOn q (rounds + 1) tokens c) := by
      refine .read [] rfl run ?_ rfl
      rw [sequence, bind_of_ok (decides ahead), stopped]
      rfl
    cases bound with
    | zero =>
      obtain rfl := List.length_eq_zero_iff.1 (Nat.lt_one_iff.1 (Nat.lt_of_lt_of_le short le))
      exact ends rfl rfl
    | succ bound =>
      cases ts with
      | nil => exact ends rfl (Grammar.sequence_stopped (by simp))
      | cons t rest =>
        by_cases stopped : k t.kind
        · exact ends (by simp [stopped]) (Grammar.sequence_stopped (by simpa using stopped))
        have start : sequence goesOn q (rounds + 1) tokens c = (do
            if ← accept .semicolon then sequence goesOn q rounds
            else return (← q) :: (← sequence goesOn q rounds)) tokens c := by
          rw [sequence, bind_of_ok (decides ahead), if_neg (by simp [stopped])]
        by_cases isSemicolon : t.kind = .semicolon
        · rw [start, Grammar.sequence_semicolon stopped isSemicolon, ← isSemicolon,
            bind_of_ok ahead.accept_next, if_pos rfl]
          have others := ih (show n - 1 ≤ bound + 1 by omega) (by omega)
            (mirrors.fewer (Nat.sub_le n 1))
          exact .cons (others ahead.step (Nat.lt_sub_of_add_lt short))
        · have other : ∀ u ∈ (t :: rest).head?, u.kind ≠ .semicolon := by simpa using isSemicolon
          rw [start, Grammar.sequence_item stopped isSemicolon,
            bind_of_ok (ahead.accept_other other), if_neg Bool.false_ne_true]
          refine (mirrors ahead short).bind ?_
          rintro _ first used rest' split ⟨rfl, moved⟩
          rw [split] at ahead
          have others := ih (show n - 1 ≤ bound + 1 by omega) (by omega)
            (mirrors.fewer (Nat.sub_le n 1))
          rw [map_eq_pure_bind]
          refine (others ahead.after ?_).bind ?_
          · have taken := List.length_pos_iff.2 moved
            have all := congrArg List.length split
            rw [List.length_append] at all
            omega
          rintro _ items more rest'' - rfl
          exact .pure rfl

end Readers

end Cursor

end ProcCheck
