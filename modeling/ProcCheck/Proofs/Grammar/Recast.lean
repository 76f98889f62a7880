import ProcCheck.Proofs.Grammar.ExpressionSoundness
import ProcCheck.Proofs.Tree.Recast

/-!
# Reading respelt tokens

A reader chooses by the kinds of tokens alone. So on tokens that are replaced by others of their
kinds it does what it does on the tokens, and where the spellings and places of single tokens and of
expressions fit a recasting (`Recast.Fits`), what it returns is the recast tree. `Relates m R p q`
says of two readers that on tokens and their replacements both refuse alike or both succeed, with
results that `R` relates.
-/

namespace ProcCheck

namespace Grammar

variable {α β γ δ : Type}

/-- Tokens that are replaced by others of their kinds; `known` are those that come up. -/
structure Respelling where
  token : Token → Token
  known : Token → Prop
  kind : ∀ t, (token t).kind = t.kind

/-! ## Pieces of readers -/

section Pieces

variable {m : Respelling}

/-- Two readers agree: they refuse alike, or they succeed with related results. What is left is
known, and the one leaves the replacements of what the other leaves. -/
inductive Agree (m : Respelling) (R : α → β → Prop) :
    Except Refusal (α × List Token) → Except Refusal (β × List Token) → Prop
  | ok {a : α} {b : β} {rest : List Token} (related : R a b) (known : ∀ t ∈ rest, m.known t) :
      Agree m R (.ok (a, rest)) (.ok (b, rest.map m.token))
  | refused {expected : Expectation} {rest : List Token} (known : ∀ t ∈ rest, m.known t) :
      Agree m R (.error ⟨expected, rest⟩) (.error ⟨expected, rest.map m.token⟩)

/-- On known tokens and their replacements two readers agree. -/
def Relates (m : Respelling) (R : α → β → Prop) (p : Parse α) (q : Parse β) : Prop :=
  ∀ ts, (∀ t ∈ ts, m.known t) → Agree m R (p ts) (q (ts.map m.token))

/-- On replaced tokens `q` gives the image of what `p` gives on the tokens. -/
abbrev Follows (m : Respelling) (f : α → β) (p : Parse α) (q : Parse β) : Prop :=
  Relates m (fun a b => b = f a) p q

variable {f : α → β} {R : α → β → Prop} {S : γ → δ → Prop} {p p' : Parse α} {q q' : Parse β}
  {r : α → Parse γ} {s : β → Parse δ}

namespace Relates

theorem pure {a : α} {b : β} (related : R a b) :
    Relates m R (Pure.pure a : Parse α) (Pure.pure b) :=
  fun _ known => .ok related known

theorem bind (first : Relates m R p q) (next : ∀ a b, R a b → Relates m S (r a) (s b)) :
    Relates m S (p >>= r) (q >>= s) := by
  intro ts known
  have run := first ts known
  simp only [Bind.bind, StateT.bind, Except.bind]
  generalize p ts = here at run ⊢
  generalize q (ts.map m.token) = there at run ⊢
  cases run with
  | ok related known => exact next _ _ related _ known
  | refused known => exact .refused known

theorem refuse {expected : Expectation} :
    Relates m R (Grammar.refuse expected) (Grammar.refuse expected) :=
  fun _ known => .refused known

theorem ite {c : Prop} [Decidable c] (yes : Relates m R p q) (no : Relates m R p' q') :
    Relates m R (if c then p else p') (if c then q else q') := by
  split
  · exact yes
  · exact no

/-- Both readers see the same kind of token next. -/
theorem nextIs {accepts : TokenKind → Bool} {r : Bool → Parse γ} {s : Bool → Parse δ}
    (next : ∀ seen, Relates m S (r seen) (s seen)) :
    Relates m S (Grammar.nextIs accepts >>= r) (Grammar.nextIs accepts >>= s) := by
  refine bind (R := Eq) (fun ts known => ?_) (by rintro seen _ rfl; exact next seen)
  have same : (ts.map m.token).head?.any (accepts ·.kind) = ts.head?.any (accepts ·.kind) := by
    cases ts with
    | nil => rfl
    | cons t rest => simp [m.kind]
  exact .ok same.symm known

theorem take? {ε : Type} {value : TokenKind → Option ε} {r : Option (ε × Token) → Parse γ}
    {s : Option (ε × Token) → Parse δ} (none : Relates m S (r none) (s none))
    (some : ∀ b t, m.known t → value t.kind = some b →
      Relates m S (r (some (b, t))) (s (some (b, m.token t)))) :
    Relates m S (Grammar.take? value >>= r) (Grammar.take? value >>= s) := by
  refine bind (R := fun o o' => o' = o.map (Prod.map id m.token) ∧
    ∀ taken ∈ o, m.known taken.2 ∧ value taken.2.kind = Option.some taken.1) ?_ ?_
  · intro ts known
    cases ts with
    | nil => exact .ok ⟨rfl, by simp⟩ known
    | cons t rest =>
      simp only [Grammar.take?, List.map_cons, m.kind]
      obtain ⟨head, others⟩ := List.forall_mem_cons.1 known
      cases found : value t.kind with
      | none => exact .ok ⟨rfl, by simp⟩ known
      | some b => exact .ok ⟨rfl, by simpa using ⟨head, found⟩⟩ others
  · rintro (_ | ⟨b, t⟩) _ ⟨rfl, taken⟩
    · exact none
    · obtain ⟨known, kind⟩ := taken _ rfl
      exact some b t known kind

theorem skip {kind : TokenKind} {r : Bool → Parse γ} {s : Bool → Parse δ}
    (next : ∀ taken, Relates m S (r taken) (s taken)) :
    Relates m S (Grammar.skip kind >>= r) (Grammar.skip kind >>= s) := by
  have skips : Relates m Eq (Grammar.skip kind) (Grammar.skip kind) :=
    take? (pure rfl) fun _ _ _ _ => pure rfl
  exact bind skips (by rintro taken _ rfl; exact next taken)

/-- Both readers take a token, and the one takes the replacement of what the other takes. -/
theorem expectWhere {accepts : TokenKind → Bool} {expected : Expectation} {r : Token → Parse γ}
    {s : Token → Parse δ}
    (next : ∀ t, m.known t → accepts t.kind → Relates m S (r t) (s (m.token t))) :
    Relates m S (Grammar.expectWhere accepts expected >>= r)
      (Grammar.expectWhere accepts expected >>= s) := by
  refine bind (R := fun t t' => t' = m.token t ∧ m.known t ∧ accepts t.kind) ?_ ?_
  · intro ts known
    cases ts with
    | nil => exact .refused known
    | cons t rest =>
      simp only [Grammar.expectWhere, List.map_cons, m.kind]
      obtain ⟨head, others⟩ := List.forall_mem_cons.1 known
      split
      next accepted => exact .ok ⟨rfl, head, accepted⟩ others
      next => exact .refused known
  · rintro t _ ⟨rfl, known, accepted⟩
    exact next t known accepted

theorem expect {kind : TokenKind} {expected : Expectation} {r : Token → Parse γ}
    {s : Token → Parse δ}
    (next : ∀ t, m.known t → t.kind = kind → Relates m S (r t) (s (m.token t))) :
    Relates m S (Grammar.expect kind expected >>= r) (Grammar.expect kind expected >>= s) :=
  expectWhere fun t known accepted => next t known (of_decide_eq_true accepted)

/-- Both readers pass over a token. -/
theorem discardExpect {kind : TokenKind} {expected : Expectation} {r : PUnit → Parse γ}
    {s : PUnit → Parse δ} (next : Relates m S (r ()) (s ())) :
    Relates m S (discard (Grammar.expect kind expected) >>= r)
      (discard (Grammar.expect kind expected) >>= s) := by
  have passes : Relates m Eq (discard (Grammar.expect kind expected))
      (discard (Grammar.expect kind expected)) := by
    rw [discard_eq_bind]
    exact expect fun _ _ _ => pure rfl
  exact bind passes fun _ _ _ => next

/-- Both readers read something, unless a token of the kind comes next. -/
theorem unlessNext {stop : TokenKind} {r : Option α → Parse γ} {s : Option β → Parse δ}
    (first : Relates m R p q) (none : Relates m S (r none) (s none))
    (some : ∀ a b, R a b → Relates m S (r (some a)) (s (some b))) :
    Relates m S (Grammar.unlessNext stop p >>= r) (Grammar.unlessNext stop q >>= s) := by
  refine bind (R := Option.Rel R) (.nextIs fun _ => .ite (pure .none) ?_) ?_
  · exact first.bind fun a b related => pure (.some related)
  · rintro _ _ (related | _)
    · exact some _ _ related
    · exact none

/-- Where a reader refuses, a related one refuses for the same reason, and only known tokens are
left. -/
theorem run_refused {ts : List Token} {refusal : Refusal} (related : Relates m R p q)
    (known : ∀ t ∈ ts, m.known t) (run : p ts = .error refusal) :
    (∀ t ∈ refusal.rest, m.known t) ∧
      q (ts.map m.token) = .error ⟨refusal.expected, refusal.rest.map m.token⟩ := by
  have agree := related ts known
  rw [run] at agree
  generalize q (ts.map m.token) = there at agree ⊢
  cases agree with
  | refused known => exact ⟨known, rfl⟩

end Relates

namespace Follows

/-- Where a reader succeeds, one that follows it gives the image of what it gives. -/
theorem run_ok {ts rest : List Token} {a : α} (follows : Follows m f p q)
    (known : ∀ t ∈ ts, m.known t) (run : p ts = .ok (a, rest)) :
    q (ts.map m.token) = .ok (f a, rest.map m.token) := by
  have agree := follows ts known
  rw [run] at agree
  generalize q (ts.map m.token) = there at agree ⊢
  cases agree with
  | ok same known => rw [same]

theorem bind (first : Follows m f p q) (next : ∀ a, Relates m S (r a) (s (f a))) :
    Relates m S (p >>= r) (q >>= s) :=
  Relates.bind first (by rintro a _ rfl; exact next a)

theorem map {k : γ → δ} {g : α → γ} {h : β → δ} (first : Follows m f p q)
    (same : ∀ a, h (f a) = k (g a)) : Follows m k (g <$> p) (h <$> q) := by
  rw [map_eq_pure_bind, map_eq_pure_bind]
  exact first.bind fun a => .pure (same a)

theorem unlessNext {stop : TokenKind} (first : Follows m f p q) :
    Follows m (Option.map f) (Grammar.unlessNext stop p) (Grammar.unlessNext stop q) :=
  .nextIs fun _ => .ite (.pure rfl) (first.bind fun _ => .pure rfl)

theorem sequence {stop : TokenKind → Bool} (item : Follows m f p q) (bound : Nat) :
    Follows m (List.map f) (Grammar.sequence p stop bound) (Grammar.sequence q stop bound) := by
  induction bound with
  | zero => exact .pure rfl
  | succ bound ih =>
    refine .nextIs fun _ => .ite (.pure rfl) (.skip fun _ => .ite ih ?_)
    refine .nextIs fun _ => .ite ?_ (.pure rfl)
    exact item.bind fun _ => Follows.bind ih fun _ => .pure rfl

/-- The commas and items behind the first item of a list, each replaced. -/
def tail (m : Respelling) (f : α → β) (more : List (Token × α)) : List (Token × β) :=
  more.map (Prod.map m.token f)

/-- Behind the first item there is a known comma in front of each. -/
def Commas (m : Respelling) (more : List (Token × α)) : Prop :=
  ∀ next ∈ more, m.known next.1 ∧ next.1.kind = .comma

theorem commaList (item : Follows m f p q) (bound : Nat) :
    Relates m (fun list list' => list' = (f list.1, tail m f list.2) ∧ Commas m list.2)
      (Grammar.commaList p bound) (Grammar.commaList q bound) := by
  have noCommas : Commas m ([] : List (Token × α)) := fun _ member => absurd member List.not_mem_nil
  induction bound with
  | zero => exact item.bind fun _ => .pure ⟨rfl, noCommas⟩
  | succ bound ih =>
    refine item.bind fun first => .take? (.pure ⟨rfl, noCommas⟩) fun _ comma known kind => ?_
    refine ih.bind ?_
    rintro list _ ⟨rfl, commas⟩
    have isComma : comma.kind = .comma := by
      by_contra other
      rw [if_neg other] at kind
      cases kind
    exact .pure ⟨rfl, List.forall_mem_cons.2 ⟨⟨known, isComma⟩, commas⟩⟩

end Follows

end Pieces

/-- The name or the literal that a token is. -/
def leaf? (t : Token) : Option Expr :=
  match t.kind with
  | .identifier => some (.identifier t.excerpt t.spelling)
  | .intLiteral => some (.intLiteral t.excerpt t.spelling.toFloat)
  | .floatLiteral => some (.floatLiteral t.excerpt t.spelling.toFloat)
  | .stringLiteral => some (.stringLiteral t.excerpt (unquoted t.spelling))
  | _ => none

end Grammar

/-! ## What fits a recasting -/

open Grammar

/-- What the known tokens are replaced by fits a recasting of trees: it has the name, the place and
the spelling that the recasting asks for, and what is read of several tokens gets the excerpts of
its parts one after the other. -/
structure Recast.Fits (c : Recast) (m : Respelling) : Prop where
  spelling {t : Token} (known : m.known t) (other : t.kind ≠ .identifier) :
    (m.token t).spelling = t.spelling
  name {t : Token} (known : m.known t) (callable : t.kind.isCallable) :
    (m.token t).spelling = c.name t.spelling
  start (t : Token) : (m.token t).span.start = c.place t.span.start
  stop {t : Token} (known : m.known t) (other : t.kind ≠ .identifier) :
    (m.token t).span.stop = c.place t.span.stop
  behind {t : Token} (known : m.known t) (isName : t.kind = .identifier) :
    (m.token t).span.stop = c.behind t.spelling t.span.stop
  exprStart (e : Expr) : (c.src e).span.start = c.place e.span.start
  leaf {t : Token} {e : Expr} (known : m.known t) (isLeaf : leaf? t = some e) :
    c.src e = (m.token t).excerpt
  callEmpty {callee opening closing : Token}
    (known : m.known callee ∧ m.known opening ∧ m.known closing)
    (callable : callee.kind.isCallable) (opens : opening.kind = .openParen)
    (closes : closing.kind = .closeParen) :
    c.src (.call (callee.excerpt ++ opening.excerpt ++ closing.excerpt) callee.spelling []) =
      (m.token callee).excerpt ++ (m.token opening).excerpt ++ (m.token closing).excerpt
  callArgs {callee opening closing : Token} {first : Expr} {more : List (Token × Expr)}
    (known : m.known callee ∧ m.known opening ∧ m.known closing)
    (callable : callee.kind.isCallable) (opens : opening.kind = .openParen)
    (closes : closing.kind = .closeParen) (commas : Follows.Commas m more) :
    c.src (.call
        (argsExcerpt (callee.excerpt ++ opening.excerpt ++ first.src) more ++ closing.excerpt)
        callee.spelling (first :: more.map (·.2))) =
      argsExcerpt ((m.token callee).excerpt ++ (m.token opening).excerpt ++ c.src first)
        (Follows.tail m (Expr.recast c) more) ++ (m.token closing).excerpt
  assign {target sign : Token} {value : Expr} (known : m.known target ∧ m.known sign)
    (isName : target.kind = .identifier) (isSign : sign.kind = .assign) :
    c.src (.assign (target.excerpt ++ sign.excerpt ++ value.src) target.spelling value) =
      (m.token target).excerpt ++ (m.token sign).excerpt ++ c.src value
  attach {left right : Expr} {op : BinaryOp} {sign : Token} (known : m.known sign)
    (isSign : sign.kind = .operator op) :
    c.src (left.attach op sign.excerpt right) = c.src left ++ (m.token sign).excerpt ++ c.src right
  prefixed {op : PrefixOp} {sign : Token} {operand : Expr} (known : m.known sign)
    (isSign : sign.kind = op.kind) :
    c.src (.prefixed (sign.excerpt ++ operand.src) op operand) =
      (m.token sign).excerpt ++ c.src operand
  group {opening closing : Token} {inner : Expr} (known : m.known opening ∧ m.known closing)
    (opens : opening.kind = .openParen) (closes : closing.kind = .closeParen) :
    c.src (.group (opening.excerpt ++ inner.src ++ closing.excerpt) inner) =
      (m.token opening).excerpt ++ c.src inner ++ (m.token closing).excerpt

theorem TokenKind.ne_identifier_of_isType {kind : TokenKind} (isType : kind.isType) :
    kind ≠ .identifier := by
  rintro rfl
  cases isType

/-- From where one span starts to where another stops. -/
theorem Span.append_recast {c : Recast} {a b a' b' : Span} (start : a'.start = c.place a.start)
    (stop : b'.stop = c.place b.stop) : a' ++ b' = (a ++ b).recast c := by
  change Span.mk a'.start b'.stop = Span.mk _ _
  rw [start, stop]
  rfl

namespace Recast.Fits

variable {c : Recast} {m : Respelling} (fits : c.Fits m)

include fits

theorem identifier {t : Token} (known : m.known t) (isName : t.kind = .identifier) :
    (m.token t).spelling = c.name t.spelling :=
  fits.name known (by rw [isName]; rfl)

theorem span_append (first : Token) (s : Span) :
    (first.span ++ s).recast c = (m.token first).span ++ s.recast c :=
  (Span.append_recast (fits.start first) rfl).symm

theorem leaf?_token {t : Token} (known : m.known t) :
    leaf? (m.token t) = (leaf? t).map (Expr.recast c) := by
  have same (other : t.kind ≠ .identifier) := fits.spelling known other
  have src {e : Expr} (isLeaf : leaf? t = some e) := fits.leaf known isLeaf
  simp only [leaf?, m.kind] at src ⊢
  cases kind : t.kind with
  | identifier =>
    rw [kind] at src
    simp [Expr.recast, src rfl, fits.identifier known kind]
  | intLiteral | floatLiteral | stringLiteral =>
    rw [kind] at src same
    simp [Expr.recast, src rfl, same (by decide)]
  | _ => rfl

theorem attach_recast {sign : Token} {op : BinaryOp} (known : m.known sign)
    (isSign : sign.kind = .operator op) (left right : Expr) :
    (left.recast c).attach op (m.token sign).excerpt (right.recast c) =
      (left.attach op sign.excerpt right).recast c := by
  have src (left : Expr) := @fits.attach left right op sign known isSign
  induction left using Expr.treeInduction with
  | binary before outer l r ihl ihr =>
    have whole := src (.binary before outer l r)
    by_cases lower : outer.level < op.level
    · simp only [Expr.recast, Expr.attach, lower, if_true, Expr.src_recast] at whole ⊢
      rw [ihr, whole]
    · simp only [Expr.recast, Expr.attach, lower, if_false, Expr.src_recast] at whole ⊢
      rw [whole]
  | _ =>
    simp only [Expr.recast, Expr.attach, Expr.src_recast]
    exact congrArg (Expr.binary · op _ _) (src _).symm

end Recast.Fits

namespace Grammar

variable {c : Recast} {m : Respelling} (fits : c.Fits m)

include fits

/-! ## Expressions -/

section Operands

variable {p q : Parse Expr}

theorem operators_follows (operand : Follows m (Expr.recast c) p q) (bound : Nat) (left : Expr) :
    Follows m (Expr.recast c) (operators p bound left) (operators q bound (left.recast c)) := by
  induction bound generalizing left with
  | zero => exact .pure rfl
  | succ bound ih =>
    refine .take? (.pure rfl) fun op sign known isSign => operand.bind fun right => ?_
    have attached := fits.attach_recast known (binaryOp?_eq_some.1 isSign) left right
    have further := ih (left.attach op sign.excerpt right)
    rw [← attached] at further
    exact further

theorem prefixed_follows (primary : Follows m (Expr.recast c) p q) (bound : Nat) :
    Follows m (Expr.recast c) (prefixed p bound) (prefixed q bound) := by
  induction bound with
  | zero => exact primary
  | succ bound ih =>
    refine .take? primary fun op sign known isSign => ih.bind fun operand => .pure ?_
    rw [Expr.recast, fits.prefixed known (prefixOp?_eq_some.1 isSign), Expr.src_recast]

theorem call_follows (inner : Follows m (Expr.recast c) p q) (bound : Nat)
    {callee opening : Token} (known : m.known callee ∧ m.known opening)
    (callable : callee.kind.isCallable) (opens : opening.kind = .openParen) :
    Follows m (Expr.recast c) (call p bound callee opening)
      (call q bound (m.token callee) (m.token opening)) := by
  have name := fits.name known.1 callable
  refine Relates.unlessNext (Follows.commaList inner bound) ?_ ?_
  · refine .expect fun closing closingKnown closes => .pure ?_
    rw [Expr.recast, fits.callEmpty ⟨known.1, known.2, closingKnown⟩ callable opens closes, name]
    rfl
  · rintro ⟨first, more⟩ _ ⟨rfl, commas⟩
    refine .expect fun closing closingKnown closes => .pure ?_
    have src :=
      @fits.callArgs callee opening closing first more ⟨known.1, known.2, closingKnown⟩ callable
        opens closes commas
    rw [Expr.recast, Expr.recastAll_eq, src, name]
    simp [Follows.tail, Function.comp_def]

theorem group_follows (inner : Follows m (Expr.recast c) p q) {opening : Token}
    (known : m.known opening) (opens : opening.kind = .openParen) :
    Follows m (Expr.recast c) (group p opening) (group q (m.token opening)) := by
  refine inner.bind fun e => .expect fun closing closingKnown closes => .pure ?_
  rw [Expr.recast, fits.group ⟨known, closingKnown⟩ opens closes, Expr.src_recast]

theorem simple_follows (inner : Follows m (Expr.recast c) p q) {t : Token} (known : m.known t) :
    Follows m (Expr.recast c) (primary.simple p t) (primary.simple q (m.token t)) := by
  have leaf := fits.leaf?_token known
  intro ts others
  simp only [primary.simple, m.kind]
  simp only [leaf?, m.kind] at leaf
  cases kind : t.kind with
  | identifier | intLiteral | floatLiteral | stringLiteral =>
    rw [kind] at leaf
    exact .ok (Option.some.inj leaf) others
  | openParen => exact group_follows fits inner known kind ts others
  | _ => exact .refused (List.forall_mem_cons.2 ⟨known, others⟩)

theorem primary_follows (inner : Follows m (Expr.recast c) p q) (bound : Nat) :
    Follows m (Expr.recast c) (primary p bound) (primary q bound) := by
  intro ts known
  match ts with
  | [] => exact .refused known
  | [t] => exact simple_follows fits inner (known t List.mem_cons_self) [] (by simp)
  | t :: paren :: rest =>
    obtain ⟨head, others⟩ := List.forall_mem_cons.1 known
    obtain ⟨second, further⟩ := List.forall_mem_cons.1 others
    simp only [primary, List.map_cons, m.kind]
    split
    next calls => exact call_follows fits inner bound ⟨head, second⟩ calls.1 calls.2 rest further
    next => exact simple_follows fits inner head (paren :: rest) others

end Operands

theorem expressionWithin_follows (bound : Nat) :
    Follows m (Expr.recast c) (expressionWithin bound) (expressionWithin bound) := by
  induction bound with
  | zero => exact .refuse
  | succ bound ih =>
    have start : Relates m (fun o o' => o' = o.map (Prod.map m.token m.token) ∧
        ∀ pair ∈ o, (m.known pair.1 ∧ m.known pair.2) ∧ pair.1.kind = .identifier ∧
          pair.2.kind = .assign) assignmentStart? assignmentStart? := by
      intro ts known
      match ts with
      | [] | [_] => exact .ok ⟨rfl, by simp⟩ known
      | target :: sign :: rest =>
        obtain ⟨head, others⟩ := List.forall_mem_cons.1 known
        obtain ⟨second, further⟩ := List.forall_mem_cons.1 others
        simp only [assignmentStart?, List.map_cons, m.kind]
        split
        next starts => exact .ok ⟨rfl, by simpa using ⟨⟨head, second⟩, starts⟩⟩ further
        next => exact .ok ⟨rfl, by simp⟩ known
    refine start.bind ?_
    rintro (_ | ⟨target, sign⟩) _ ⟨rfl, found⟩
    · have operand := prefixed_follows fits (primary_follows fits ih (bound + 1)) (bound + 1)
      exact operand.bind fun left => operators_follows fits operand (bound + 1) left
    · obtain ⟨known, isName, isSign⟩ := found _ rfl
      refine Follows.bind ih fun value => .pure ?_
      have name := fits.identifier known.1 isName
      rw [Expr.recast, fits.assign known isName isSign, Expr.src_recast, ← name]

theorem expression_follows : Follows m (Expr.recast c) expression expression := by
  intro ts known
  rw [expression, expression, List.length_map]
  exact expressionWithin_follows fits ts.length ts known

/-! ## Statements -/

theorem varDecl_follows : Follows m (VarDecl.recast c) varDecl varDecl := by
  refine .expectWhere fun type typeKnown isType => .expect fun name nameKnown isName => ?_
  have spelling := fits.spelling typeKnown (TokenKind.ne_identifier_of_isType isType)
  have renamed := fits.identifier nameKnown isName
  have last {init : Option Expr} : Follows m (VarDecl.recast c)
      (do
        let last ← expect .semicolon .declarationEnd
        return ⟨type.spelling, name.spelling, init, type.span ++ last.span⟩)
      (do
        let last ← expect .semicolon .declarationEnd
        return ⟨(m.token type).spelling, (m.token name).spelling, init.map (Expr.recast c),
          (m.token type).span ++ last.span⟩) := by
    refine .expect fun last known ends => .pure ?_
    have stop := fits.stop known (by rw [ends]; decide)
    rw [VarDecl.recast, spelling, renamed, Span.append_recast (fits.start type) stop]
  have value : Follows m (Option.map (Expr.recast c)) (some <$> expression) (some <$> expression) :=
    (expression_follows fits).map fun _ => rfl
  refine .skip fun given => .ite ?_ ?_
  · exact value.bind fun init => last
  · exact Follows.bind (f := Option.map (Expr.recast c)) (.pure rfl) fun init => last

theorem exprStmt_follows : Follows m (Stmt.recast c) exprStmt exprStmt := by
  refine (expression_follows fits).bind fun e => .expect fun last known ends => .pure ?_
  have start : (e.recast c).span.start = c.place e.span.start := by
    rw [Expr.span, Expr.src_recast, fits.exprStart]
  have stop := fits.stop known (by rw [ends]; decide)
  rw [Stmt.recast, Span.append_recast start stop]

theorem returnStmt_follows (first : Token) :
    Follows m (Stmt.recast c) (returnStmt first) (returnStmt (m.token first)) := by
  refine (expression_follows fits).unlessNext.bind fun value => ?_
  refine .expect fun last known ends => .pure ?_
  have stop := fits.stop known (by rw [ends]; decide)
  rw [Stmt.recast, Span.append_recast (fits.start first) stop]

theorem block_follows {p q : Parse Stmt} (stmt : Follows m (Stmt.recast c) p q) (bound : Nat) :
    Follows m (Block.recast c) (block p bound) (block q bound) := by
  refine .expect fun first _ _ => (stmt.sequence bound).bind fun statements => ?_
  refine .expect fun last known ends => .pure ?_
  have stop := fits.stop known (by rw [ends]; decide)
  rw [Block.recast, Span.append_recast (fits.start first) stop]

theorem condition_follows (opening : Expectation) :
    Follows m (Expr.recast c) (condition opening) (condition opening) :=
  .discardExpect ((expression_follows fits).bind fun _ => .discardExpect (.pure rfl))

section Bodies

variable {p q : Parse (Block Stmt)}

theorem ifStmt_follows (body : Follows m (Block.recast c) p q) (first : Token) :
    Follows m (Stmt.recast c) (ifStmt p first) (ifStmt q (m.token first)) := by
  refine (condition_follows fits _).bind fun test => body.bind fun thenBlock => ?_
  refine .skip fun _ => .ite (body.bind fun elseBlock => .pure ?_) (.pure ?_)
  · rw [Stmt.recast, fits.span_append, Stmt.recastBlock_eq, Stmt.recastElse_eq]
    rfl
  · rw [Stmt.recast, fits.span_append, Stmt.recastBlock_eq, Stmt.recastElse_eq]
    rfl

theorem whileStmt_follows (body : Follows m (Block.recast c) p q) (first : Token) :
    Follows m (Stmt.recast c) (whileStmt p first) (whileStmt q (m.token first)) := by
  refine (condition_follows fits _).bind fun test => body.bind fun inner => .pure ?_
  rw [Stmt.recast, fits.span_append, Stmt.recastBlock_eq]
  rfl

theorem forInit_follows : Follows m (Option.map (Stmt.recast c)) forInit forInit := by
  refine .skip fun _ => .ite (.pure rfl) (.nextIs fun _ => .ite ?_ ?_)
  · exact (varDecl_follows fits).bind fun decl => .pure rfl
  · exact (exprStmt_follows fits).bind fun s => .pure rfl

theorem forStmt_follows (body : Follows m (Block.recast c) p q) (first : Token) :
    Follows m (Stmt.recast c) (forStmt p first) (forStmt q (m.token first)) := by
  have clause {stop : TokenKind} : Follows m (Option.map (Expr.recast c))
      (unlessNext stop expression) (unlessNext stop expression) :=
    (expression_follows fits).unlessNext
  refine .discardExpect ((forInit_follows fits).bind fun init => clause.bind fun test => ?_)
  refine .discardExpect (clause.bind fun update => .discardExpect ?_)
  refine body.bind fun inner => .pure ?_
  rw [Stmt.recast, fits.span_append, Stmt.recastBlock_eq, Stmt.recastInit_eq]
  rfl

theorem stmtWith_follows (body : Follows m (Block.recast c) p q) :
    Follows m (Stmt.recast c) (stmtWith p) (stmtWith q) := by
  have var : Follows m (Stmt.recast c) (.var <$> varDecl) (.var <$> varDecl) :=
    (varDecl_follows fits).map fun _ => rfl
  have block : Follows m (Stmt.recast c) (.block <$> p) (.block <$> q) :=
    body.map fun _ => by rw [Stmt.recast, Stmt.recastBlock_eq]
  have other := exprStmt_follows fits
  intro ts known
  cases ts with
  | nil => exact other [] known
  | cons t rest =>
    obtain ⟨-, others⟩ := List.forall_mem_cons.1 known
    simp only [stmtWith, List.map_cons, m.kind]
    cases t.kind with
    | typeWord type => exact var (t :: rest) known
    | ifWord => exact ifStmt_follows fits body t rest others
    | whileWord => exact whileStmt_follows fits body t rest others
    | forWord => exact forStmt_follows fits body t rest others
    | returnWord => exact returnStmt_follows fits t rest others
    | openBrace => exact block (t :: rest) known
    | _ => exact other (t :: rest) known

end Bodies

theorem stmtWithin_follows (bound : Nat) :
    Follows m (Stmt.recast c) (stmtWithin bound) (stmtWithin bound) := by
  induction bound with
  | zero => exact exprStmt_follows fits
  | succ bound ih => exact stmtWith_follows fits (block_follows fits ih bound)

theorem statement_follows : Follows m (Stmt.recast c) statement statement := by
  intro ts known
  rw [statement, statement, List.length_map]
  exact stmtWithin_follows fits ts.length ts known

theorem body_follows : Follows m (Block.recast c) body body := by
  intro ts known
  rw [body, body, List.length_map]
  exact block_follows fits (stmtWithin_follows fits ts.length) ts.length ts known

/-! ## Declarations -/

theorem param_follows : Follows m (Param.recast c) param param := by
  refine .expectWhere fun type typeKnown isType => .expect fun name nameKnown isName => .pure ?_
  have span : (m.token type).span ++ (m.token name).span =
      ⟨c.place type.span.start, c.behind name.spelling name.span.stop⟩ := by
    rw [← fits.start, ← fits.behind nameKnown isName]
    rfl
  have spelling := fits.spelling typeKnown (TokenKind.ne_identifier_of_isType isType)
  rw [Param.recast, spelling, fits.identifier nameKnown isName, span]
  rfl

theorem params_follows : Follows m (List.map (Param.recast c)) params params := by
  intro ts known
  have list := Follows.commaList (param_follows fits) ts.length
  rw [params, params, List.length_map, map_eq_pure_bind]
  refine list.bind ?_ ts known
  rintro ⟨first, more⟩ _ ⟨rfl, -⟩
  exact .pure (by simp [Follows.tail])

theorem functionDecl_follows {type name : Token} (known : m.known type ∧ m.known name)
    (isType : type.kind.isType) (callable : name.kind.isCallable) :
    Follows m (FunctionDecl.recast c) (functionDecl type name)
      (functionDecl (m.token type) (m.token name)) := by
  have spelling := fits.spelling known.1 (TokenKind.ne_identifier_of_isType isType)
  have renamed := fits.name known.2 callable
  have declared (params? : Option (List Param)) : Follows m (FunctionDecl.recast c)
      (do
        let body ← body
        let reserved : Bool := name.kind = .mainWord
        return {
          returnType := type.spelling
          name? := if reserved then none else some name.spelling
          entryName? := if reserved then some name.spelling else none
          params?
          body
          span := type.span ++ body.span })
      (do
        let body ← body
        let reserved : Bool := (m.token name).kind = .mainWord
        return {
          returnType := (m.token type).spelling
          name? := if reserved then none else some (m.token name).spelling
          entryName? := if reserved then some (m.token name).spelling else none
          params? := params?.map (List.map (Param.recast c))
          body
          span := (m.token type).span ++ body.span }) := by
    refine (body_follows fits).bind fun inner => .pure ?_
    rw [FunctionDecl.recast, spelling, renamed, m.kind]
    by_cases reserved : name.kind = .mainWord
    · simp [reserved, Block.recast, fits.span_append]
    · simp [reserved, Block.recast, fits.span_append]
  refine .discardExpect ((params_follows fits).unlessNext.bind fun params? => ?_)
  refine .discardExpect (.nextIs fun braced => .ite ?_ (declared params?))
  exact Relates.bind (R := Eq) .refuse fun _ _ _ => declared params?

theorem topLevel_follows : Follows m (TopLevel.recast c) topLevel topLevel := by
  have global : Follows m (TopLevel.recast c) (.global <$> varDecl) (.global <$> varDecl) :=
    (varDecl_follows fits).map fun _ => rfl
  have other : Follows m (TopLevel.recast c) (.statement <$> statement) (.statement <$> statement) :=
    (statement_follows fits).map fun _ => rfl
  intro ts known
  match ts with
  | [] => exact other [] known
  | [type] =>
    simp only [topLevel, List.map_cons, List.map_nil, m.kind]
    split
    · exact global [type] known
    · exact other [type] known
  | type :: name :: rest =>
    have starts : startsFunction ((type :: name :: rest).map m.token) =
        startsFunction (type :: name :: rest) := by
      cases rest <;> simp [startsFunction, m.kind]
    simp only [List.map_cons] at starts
    simp only [topLevel, List.map_cons, m.kind, starts]
    split
    next isFunction =>
      obtain ⟨head, others⟩ := List.forall_mem_cons.1 known
      obtain ⟨second, further⟩ := List.forall_mem_cons.1 others
      obtain ⟨isType, callable⟩ : type.kind.isType ∧ name.kind.isCallable := by
        cases rest with
        | nil => cases isFunction
        | cons paren rest =>
          simp only [startsFunction, Bool.and_eq_true] at isFunction
          exact isFunction.1
      exact (functionDecl_follows fits ⟨head, second⟩ isType callable).map (k := TopLevel.recast c)
        (fun _ => rfl) rest further
    next =>
      split
      · exact global (type :: name :: rest) known
      · exact other (type :: name :: rest) known

theorem declarations_follow :
    Follows m (List.map (TopLevel.recast c)) declarations declarations := by
  intro ts known
  rw [declarations, declarations, List.length_map]
  exact (topLevel_follows fits).sequence ts.length ts known

end Grammar

end ProcCheck
