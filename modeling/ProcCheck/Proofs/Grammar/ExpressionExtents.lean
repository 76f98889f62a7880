import ProcCheck.Proofs.Grammar.Soundness
import ProcCheck.Proofs.Token.Order
import ProcCheck.Proofs.Tree.Node

/-!
# Expressions and the tokens that they take

A node is settled on tokens if they spell it, if it stands from the first of them to the last and
if its children are settled on parts of them, one behind the other. Each reader of expressions
returns a settled one if the readers that it is made of do; the tree that operators are attached to
keeps the tokens of its right operands, as the last of these may still grow.
-/

namespace ProcCheck

namespace Token

variable {us : List Token}

/-- What tokens cover if the last of them are known. -/
theorem excerpts_ends (t : Token) (mid : List Token) (some : us ≠ []) :
    (excerpts (t :: (mid ++ us))).span = t.span ++ (excerpts us).span := by
  rw [excerpts_cons (by simp [some]), Excerpt.span_append, excerpt_span,
    append_span_excerpts some]

end Token

namespace Grammar

/-- Two facts about what a reader takes. -/
theorem Reads.and {α : Type} {p : Parse α} {R S : α → List Token → Prop} (first : Reads p R)
    (second : Reads p S) : Reads p fun a used => R a used ∧ S a used := by
  intro ts a rest spelt run
  obtain ⟨used, rfl, related⟩ := first ts a rest spelt run
  obtain ⟨used', same, related'⟩ := second _ a rest spelt run
  obtain rfl := List.append_cancel_right same
  exact ⟨used, rfl, related, related'⟩

end Grammar

/-! ## Parts of lists of tokens -/

/-- The items of a list are related to parts of a list of tokens, one behind the other; the tokens
between the parts belong to none of them. -/
inductive Parts {α : Type} (R : α → List Token → Prop) : List α → List Token → Prop
  | nil : Parts R [] []
  | skip {t : Token} {items : List α} {ts : List Token} (others : Parts R items ts) :
      Parts R items (t :: ts)
  | part {a : α} {items : List α} {mine ts : List Token} (related : R a mine)
      (others : Parts R items ts) : Parts R (a :: items) (mine ++ ts)

namespace Parts

variable {α β : Type} {R : α → List Token → Prop} {a : α} {items others : List α}
  {ts us : List Token}

theorem none : (ts : List Token) → Parts R [] ts
  | [] => .nil
  | _ :: ts => .skip (none ts)

theorem single (related : R a ts) : Parts R [a] ts := by
  simpa using Parts.part related .nil

theorem append (first : Parts R items ts) (second : Parts R others us) :
    Parts R (items ++ others) (ts ++ us) := by
  induction first with
  | nil => exact second
  | skip _ ih => exact .skip ih
  | part related _ ih =>
    rw [List.append_assoc]
    exact .part related ih

/-- Tokens behind the parts belong to none of them. -/
theorem before (parts : Parts R items ts) (us : List Token) : Parts R items (ts ++ us) := by
  simpa using parts.append (none us)

theorem mono {S : α → List Token → Prop} (parts : Parts R items ts)
    (imp : ∀ a used, R a used → S a used) : Parts S items ts := by
  induction parts with
  | nil => exact .nil
  | skip _ ih => exact .skip ih
  | part related _ ih => exact .part (imp _ _ related) ih

theorem map {R : β → List Token → Prop} {f : α → β}
    (parts : Parts (fun a used => R (f a) used) items ts) : Parts R (items.map f) ts := by
  induction parts with
  | nil => exact .nil
  | skip _ ih => exact .skip ih
  | part related _ ih => exact .part related ih

/-- Each item is related to a part. -/
theorem of_mem (parts : Parts R items ts) (member : a ∈ items) :
    ∃ before mine after, ts = before ++ mine ++ after ∧ R a mine := by
  induction parts with
  | nil => cases member
  | @skip t _ _ _ ih =>
    obtain ⟨before, mine, after, rfl, related⟩ := ih member
    exact ⟨t :: before, mine, after, rfl, related⟩
  | @part _ _ first _ related _ ih =>
    rcases List.mem_cons.1 member with rfl | among
    · exact ⟨[], first, _, rfl, related⟩
    · obtain ⟨before, mine, after, rfl, related⟩ := ih among
      exact ⟨first ++ before, mine, after, by simp, related⟩

/-- The items of a sequence are related to parts of its tokens. -/
theorem of_items (read : Grammar.Items R items ts) : Parts R items ts := by
  induction read with
  | nil => exact .nil
  | semicolon _ _ ih => exact .skip ih
  | item related _ ih => exact .part related ih

/-- The items behind commas are related to parts of the tokens. -/
theorem of_commaTail {more : List (Token × α)} (read : Grammar.CommaTail R more ts) :
    Parts R (more.map (·.2)) ts := by
  induction more generalizing ts with
  | nil =>
    obtain rfl := read
    exact .nil
  | cons next more ih =>
    obtain ⟨used, tail, rfl, -, related, further⟩ := read
    exact .skip (.part related (ih further))

end Parts

/-! ## Settled nodes -/

/-- A canonical node that tokens spell. -/
def Node.SpeltBy : Node → List Token → Prop
  | program p, used => p.Canonical ∧ Slot.Spell p.slots used
  | global decl, used => decl.SpeltBy used
  | function decl, used => decl.SpeltBy used
  | param p, used => p.SpeltBy used
  | stmt s, used => s.SpeltBy used
  | expr e, used => e.SpeltBy 0 used

/-- Tokens spell a node, it stands from the first of them to the last, and its children are settled
on parts of them. A program may have no tokens; where it stands then is not said. -/
inductive Node.Settled : Node → List Token → Prop
  | node {n : Node} {used : List Token} (spelt : n.SpeltBy used)
      (span : used ≠ [] → n.span = (Token.excerpts used).span)
      (parts : Parts Node.Settled n.children used) : Settled n used

namespace Node.Settled

variable {n : Node} {used : List Token}

theorem spelt (settled : n.Settled used) : n.SpeltBy used := by
  cases settled with
  | node spelt _ _ => exact spelt

theorem span (settled : n.Settled used) (some : used ≠ []) :
    n.span = (Token.excerpts used).span := by
  cases settled with
  | node _ span _ => exact span some

theorem parts (settled : n.Settled used) : Parts Node.Settled n.children used := by
  cases settled with
  | node _ _ parts => exact parts

end Node.Settled

namespace Expr

/-- An expression that holds together tightly enough is settled on tokens. -/
structure SettledOn (least : Nat) (e : Expr) (used : List Token) : Prop where
  spelt : e.SpeltBy least used
  settled : (Node.expr e).Settled used

variable {least : Nat} {e : Expr} {used : List Token}

theorem SpeltBy.ne_nil (spelt : e.SpeltBy least used) : used ≠ [] := by
  obtain ⟨t, tail, rfl, -⟩ := spelt.starts
  exact List.cons_ne_nil t tail

namespace SettledOn

theorem ne_nil (settled : e.SettledOn least used) : used ≠ [] := settled.spelt.ne_nil

theorem span (settled : e.SettledOn least used) : e.src.span = (Token.excerpts used).span :=
  settled.settled.span settled.ne_nil

theorem looser {less : Nat} (settled : e.SettledOn least used) (le : less ≤ least) :
    e.SettledOn less used :=
  ⟨⟨settled.spelt.canonical, Nat.le_trans le settled.spelt.rank, settled.spelt.lexemes⟩,
    settled.settled⟩

/-- An expression is settled if its parts are. -/
theorem of_parts (spelt : e.SpeltBy least used)
    (span : e.src.span = (Token.excerpts used).span)
    (parts : Parts (SettledOn 0) e.children used) : e.SettledOn least used := by
  have among : Parts (fun e used => (Node.expr e).Settled used) e.children used :=
    parts.mono fun _ _ related => related.settled
  exact ⟨spelt, .node ⟨spelt.canonical, Nat.zero_le _, spelt.lexemes⟩ (fun _ => span) among.map⟩

end SettledOn

/-- An expression is settled on tokens, and so are the operands of its last operators: each on the
tokens behind its operator. -/
def Chained : Expr → List Token → Prop
  | binary src op left right, used =>
    (binary src op left right).SettledOn 1 used ∧ ∃ lefts sign rights,
      used = lefts ++ sign :: rights ∧ left.SettledOn 0 lefts ∧ right.Chained rights
  | e, used => e.SettledOn 1 used

namespace Chained

theorem settled (chained : e.Chained used) : e.SettledOn 1 used := by
  cases e with
  | binary => exact chained.1
  | _ => exact chained

/-- An operand ends no chain but its own. -/
theorem of_operand (settled : e.SettledOn 7 used) : e.Chained used := by
  cases e with
  | binary => exact absurd settled.spelt.rank (Nat.not_le.2 rank_binary_lt)
  | _ => exact settled.looser (by omega)

/-- The right operand of the last operator grows with what is attached to it, and all that is
around it ends where it does. -/
theorem attach {left right : Expr} {lefts rights : List Token} {op : BinaryOp} {sign : Token}
    (chained : left.Chained lefts) (signLexeme : sign.lexeme = .fixed (.operator op))
    (operand : right.SettledOn 7 rights) :
    (left.attach op sign.excerpt right).Chained (lefts ++ sign :: rights) := by
  have whole {left : Expr} {lefts : List Token} (chained : left.Chained lefts)
      (parts : Parts (SettledOn 0) (left.attach op sign.excerpt right).children
        (lefts ++ sign :: rights)) :
      (left.attach op sign.excerpt right).SettledOn 1 (lefts ++ sign :: rights) := by
    refine .of_parts (Grammar.attach_spelt chained.settled.spelt signLexeme operand.spelt) ?_ parts
    rw [attach_src, Token.excerpts_append chained.settled.ne_nil (List.cons_ne_nil _ _),
      Token.excerpts_cons operand.ne_nil]
    simp only [Excerpt.span_append, chained.settled.span, operand.span]
    rfl
  have top {left : Expr} {lefts : List Token} (chained : left.Chained lefts) :
      Parts (SettledOn 0) [left, right] (lefts ++ sign :: rights) :=
    .part (chained.settled.looser (by omega)) (.skip (.single (operand.looser (by omega))))
  induction left using attach.induct op generalizing lefts with
  | case1 src outer l r below ih =>
    have settled := whole chained
    obtain ⟨-, ls, outerSign, rs, rfl, first, second⟩ := chained
    have inner := ih second
    simp only [Expr.attach, below, if_true, List.append_assoc, List.cons_append] at settled ⊢
    refine ⟨settled (.part first (.skip (.single (inner.settled.looser (by omega))))), ?_⟩
    exact ⟨ls, outerSign, _, rfl, first, inner⟩
  | case2 src outer l r above =>
    have settled := whole chained
    simp only [Expr.attach, above, if_false] at settled ⊢
    refine ⟨settled (top chained), lefts, sign, rights, rfl, ?_, .of_operand operand⟩
    exact chained.settled.looser (by omega)
  | case3 left other =>
    have settled := whole chained
    have same : left.attach op sign.excerpt right =
        .binary (left.src ++ sign.excerpt ++ right.src) op left right := by
      cases left with
      | binary src outer l r => exact absurd rfl (other src outer l r)
      | _ => rfl
    rw [same] at settled ⊢
    refine ⟨settled (top chained), lefts, sign, rights, rfl, ?_, .of_operand operand⟩
    exact chained.settled.looser (by omega)

end Chained

end Expr

namespace Grammar

/-! ## Readers of expressions -/

section Expressions

variable {inner operand : Parse Expr}

theorem call_settled (reads : Reads inner (Expr.SettledOn 0)) {bound : Nat} {callee opening : Token}
    (calleeSpelt : callee.isSpelt) (callable : callee.kind.isCallable)
    (opens : opening.lexeme = .fixed .openParen) :
    Reads (call inner bound callee opening) fun e used =>
      e.SettledOn 8 (callee :: opening :: used) := by
  intro ts e rest spelt run
  obtain ⟨used, same, speltBy⟩ := call_reads (reads.mono fun _ _ settled => settled.spelt)
    calleeSpelt callable opens _ _ _ spelt run
  obtain ⟨args, mid, runArgs, runRest⟩ := bind_ok.1 run
  obtain ⟨closing, mid', runClosing, made⟩ := bind_ok.1 runRest
  obtain ⟨rfl, -⟩ := expect_ok.1 runClosing
  rcases unlessNext_ok.1 runArgs with ⟨rfl, rfl, -⟩ | ⟨⟨first, more⟩, rfl, runList, -⟩
  · obtain ⟨rfl, rfl⟩ := pure_ok.1 made
    obtain rfl : used = [closing] := List.append_cancel_right same.symm
    exact ⟨[closing], rfl, .of_parts speltBy rfl (.none _)⟩
  · obtain ⟨rfl, rfl⟩ := pure_ok.1 made
    obtain ⟨taken, rfl, firstUsed, tail, rfl, readFirst, readMore⟩ :=
      commaList_reads reads bound _ _ _ spelt runList
    obtain rfl : used = firstUsed ++ tail ++ [closing] :=
      List.append_cancel_right (by rw [← same]; simp)
    refine ⟨_, same, .of_parts speltBy ?_ ?_⟩
    · have ends := Token.excerpts_ends callee (opening :: (firstUsed ++ tail))
        (List.cons_ne_nil closing [])
      rw [List.cons_append] at ends
      rw [ends, Expr.src, Excerpt.span_append]
      exact congrArg (Span.mk · closing.stop) (argsExcerpt_start more _)
    · exact .skip (.skip (((Parts.single readFirst).append (.of_commaTail readMore)).before _))

theorem group_settled (reads : Reads inner (Expr.SettledOn 0)) {opening : Token}
    (opens : opening.lexeme = .fixed .openParen) :
    Reads (group inner opening) fun e used => e.SettledOn 8 (opening :: used) := by
  intro ts e rest spelt run
  obtain ⟨used, same, speltBy⟩ :=
    group_reads (reads.mono fun _ _ settled => settled.spelt) opens _ _ _ spelt run
  obtain ⟨body, mid, runInner, runRest⟩ := bind_ok.1 run
  obtain ⟨mine, rfl, settled⟩ := reads _ _ _ spelt runInner
  obtain ⟨closing, mid', runClosing, made⟩ := bind_ok.1 runRest
  obtain ⟨rfl, -⟩ := expect_ok.1 runClosing
  obtain ⟨rfl, rfl⟩ := pure_ok.1 made
  obtain rfl : used = mine ++ [closing] := List.append_cancel_right (by rw [← same]; simp)
  refine ⟨_, same, .of_parts speltBy ?_ (.skip ((Parts.single settled).before _))⟩
  rw [Token.excerpts_ends opening mine (List.cons_ne_nil closing [])]
  rfl

theorem simple_settled (reads : Reads inner (Expr.SettledOn 0)) {t : Token} (spelt : t.isSpelt) :
    Reads (primary.simple inner t) fun e used => e.SettledOn 8 (t :: used) := by
  intro ts e rest restSpelt run
  obtain ⟨used, same, speltBy⟩ :=
    simple_reads (reads.mono fun _ _ settled => settled.spelt) spelt _ _ _ restSpelt run
  have leaf {e : Expr} (speltBy : e.SpeltBy 8 (t :: used)) (left : rest = ts)
      (src : e.src = t.excerpt) (single : e.children = []) : e.SettledOn 8 (t :: used) := by
    obtain rfl : used = [] := by simpa [left] using same
    refine .of_parts speltBy (by rw [src, Token.excerpts_singleton]) ?_
    rw [single]
    exact .none _
  simp only [primary.simple] at run
  split at run
  case h_5 kind =>
    obtain ⟨used', same', settled⟩ :=
      group_settled reads (Token.lexeme_fixed spelt kind rfl) _ _ _ restSpelt run
    obtain rfl : used = used' := List.append_cancel_right (same.symm.trans same')
    exact ⟨used, same, settled⟩
  case h_6 => exact absurd run refuse_ok
  all_goals
    cases run
    exact ⟨used, same, leaf speltBy rfl rfl rfl⟩

theorem primary_settled (reads : Reads inner (Expr.SettledOn 0)) (bound : Nat) :
    Reads (primary inner bound) (Expr.SettledOn 8) := by
  intro ts e rest spelt run
  cases ts with
  | nil => exact absurd run refuse_ok
  | cons t more =>
    obtain ⟨headSpelt, moreSpelt⟩ := allSpelt_cons.1 spelt
    have simple (run : primary.simple inner t more = .ok (e, rest)) :
        ∃ used, t :: more = used ++ rest ∧ e.SettledOn 8 used := by
      obtain ⟨used, rfl, settled⟩ := simple_settled reads headSpelt _ _ _ moreSpelt run
      exact ⟨t :: used, rfl, settled⟩
    cases more with
    | nil => exact simple run
    | cons paren more =>
      simp only [Grammar.primary] at run
      split at run
      next starts =>
        obtain ⟨parenSpelt, argsSpelt⟩ := allSpelt_cons.1 moreSpelt
        have opens := Token.lexeme_fixed parenSpelt starts.2 rfl
        obtain ⟨used, rfl, settled⟩ :=
          call_settled reads headSpelt starts.1 opens _ _ _ argsSpelt run
        exact ⟨t :: paren :: used, rfl, settled⟩
      next => exact simple run

theorem prefixed_settled {primary : Parse Expr} (reads : Reads primary (Expr.SettledOn 8))
    (bound : Nat) : Reads (prefixed primary bound) (Expr.SettledOn 7) := by
  induction bound with
  | zero => exact reads.mono fun _ _ settled => settled.looser (by omega)
  | succ bound ih =>
    intro ts e rest spelt run
    obtain ⟨used, same, speltBy⟩ := prefixed_reads (reads.mono fun _ _ settled => settled.spelt)
      (bound + 1) _ _ _ spelt run
    obtain ⟨taken, mid, runTake, runRest⟩ := bind_ok.1 run
    rcases take?_ok.1 runTake with ⟨op, sign, rfl, rfl, -⟩ | ⟨rfl, rfl, -⟩
    · obtain ⟨inner, mid', runOperand, made⟩ := bind_ok.1 runRest
      obtain ⟨rfl, rfl⟩ := pure_ok.1 made
      obtain ⟨mine, rfl, settled⟩ := ih _ _ _ (allSpelt_cons.1 spelt).2 runOperand
      obtain rfl : used = sign :: mine := List.append_cancel_right same.symm
      refine ⟨_, same, .of_parts speltBy ?_ (.skip (.single (settled.looser (by omega))))⟩
      rw [Token.excerpts_cons settled.ne_nil, Expr.src, Excerpt.span_append, Excerpt.span_append,
        settled.span]
    · obtain ⟨used', same', settled⟩ := reads _ _ _ spelt runRest
      exact ⟨used', same', settled.looser (by omega)⟩

/-- Each round of the loop attaches one more operator to a tree that is settled on the tokens so
far. -/
theorem operators_settled (reads : Reads operand (Expr.SettledOn 7)) (bound : Nat) {left : Expr}
    {before : List Token} (chained : left.Chained before) :
    Reads (operators operand bound left) fun e used => e.SettledOn 1 (before ++ used) := by
  induction bound generalizing left before with
  | zero =>
    intro ts e rest _ run
    obtain ⟨rfl, rfl⟩ := pure_ok.1 run
    exact ⟨[], rfl, by simpa using chained.settled⟩
  | succ bound ih =>
    intro ts e rest spelt run
    obtain ⟨taken, mid, runTake, runRest⟩ := bind_ok.1 run
    rcases take?_ok.1 runTake with ⟨op, sign, rfl, rfl, isOp⟩ | ⟨rfl, rfl, -⟩
    · obtain ⟨right, mid', runOperand, runLoop⟩ := bind_ok.1 runRest
      obtain ⟨signSpelt, restSpelt⟩ := allSpelt_cons.1 spelt
      obtain ⟨mine, rfl, settled⟩ := reads _ _ _ restSpelt runOperand
      have signLexeme := Token.lexeme_fixed signSpelt (binaryOp?_eq_some.1 isOp) rfl
      obtain ⟨more, rfl, whole⟩ := ih (chained.attach signLexeme settled) _ _ _
        (allSpelt_append.1 restSpelt).2 runLoop
      exact ⟨sign :: (mine ++ more), by simp, by simpa using whole⟩
    · obtain ⟨rfl, rfl⟩ := pure_ok.1 runRest
      exact ⟨[], rfl, by simpa using chained.settled⟩

theorem expressionWithin_settled (bound : Nat) :
    Reads (expressionWithin bound) (Expr.SettledOn 0) := by
  induction bound with
  | zero =>
    intro ts e rest _ run
    exact absurd run refuse_ok
  | succ bound ih =>
    intro ts e rest spelt run
    obtain ⟨used, same, speltBy⟩ := expressionWithin_reads (bound + 1) _ _ _ spelt run
    obtain ⟨start, mid, runStart, runRest⟩ := bind_ok.1 run
    rcases assignmentStart?_ok.1 runStart with ⟨target, sign, rfl, rfl, -⟩ | ⟨rfl, rfl, -⟩
    · obtain ⟨value, mid', runValue, made⟩ := bind_ok.1 runRest
      obtain ⟨rfl, rfl⟩ := pure_ok.1 made
      simp only [allSpelt_cons] at spelt
      obtain ⟨mine, rfl, settled⟩ := ih _ _ _ spelt.2.2 runValue
      obtain rfl : used = target :: sign :: mine := List.append_cancel_right same.symm
      refine ⟨_, same, .of_parts speltBy ?_ (.skip (.skip (.single settled)))⟩
      have ends := Token.excerpts_ends target [sign] settled.ne_nil
      rw [List.singleton_append] at ends
      rw [ends, Expr.src, Excerpt.span_append, Excerpt.span_append, settled.span]
      rfl
    · obtain ⟨first, mid', runFirst, runLoop⟩ := bind_ok.1 runRest
      have operand := prefixed_settled (primary_settled ih (bound + 1)) (bound + 1)
      obtain ⟨mine, rfl, settled⟩ := operand _ _ _ spelt runFirst
      obtain ⟨more, rfl, whole⟩ := operators_settled operand (bound + 1) (.of_operand settled)
        _ _ _ (allSpelt_append.1 spelt).2 runLoop
      exact ⟨mine ++ more, by simp, whole.looser (Nat.zero_le _)⟩

theorem expression_settled : Reads expression (Expr.SettledOn 0) := by
  intro ts e rest spelt run
  exact expressionWithin_settled _ ts e rest spelt run

end Expressions

end Grammar

end ProcCheck
