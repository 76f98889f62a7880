import Mathlib.Data.Prod.Lex
import Mathlib.Order.Basic
import ProcCheck.Proofs.Grammar.Mirrors
import ProcCheck.Proofs.Grammar.Rejected

/-!
# The order of places

Places are ordered by line and then by column, and a text moves a place forward. The tokens of a
source follow each other in that order, so a stretch of them is told by the places that it spans:
`Token.InOrder.filter_isWithin`.
-/

namespace ProcCheck

namespace Position

/-- Places are in the order of their lines, and on one line in that of their columns. -/
instance : LinearOrder Position :=
  LinearOrder.lift' (fun p => toLex (p.line, p.col)) fun p q same => by
    obtain ⟨line, col⟩ := Prod.mk.inj (toLex.injective same)
    cases p
    cases q
    simp_all

variable {p q : Position}

theorem lt_iff : p < q ↔ p.line < q.line ∨ p.line = q.line ∧ p.col < q.col :=
  Prod.Lex.lt_iff

theorem lt_next (p : Position) (u : CodeUnit) : p < p.next u := by
  rw [lt_iff, next]
  split
  · exact .inl (Int.lt_succ p.line)
  · exact .inr ⟨rfl, Int.lt_succ p.col⟩

/-- A text moves a place forward. -/
theorem le_after (p : Position) (t : Text) : p ≤ p.after t := by
  induction t generalizing p with
  | nil => exact le_refl p
  | cons u t ih => exact (lt_next p u).le.trans (ih (p.next u))

theorem lt_after (p : Position) {t : Text} (some : t ≠ []) : p < p.after t := by
  obtain ⟨u, rest, rfl⟩ := List.exists_cons_of_ne_nil some
  exact (lt_next p u).trans_le (le_after _ rest)

theorem behind_le (s t : Text) : behind s ≤ behind (s ++ t) := by
  rw [behind_append]
  exact le_after _ _

/-- A text on one line moves a place by its length. -/
theorem after_eq (p : Position) {t : Text} (noFeed : CodeUnit.lineFeed ∉ t) :
    p.after t = ⟨p.line, p.col + t.length⟩ := by
  induction t generalizing p with
  | nil => simp
  | cons u t ih =>
    obtain ⟨other, noFeed⟩ := not_or.1 (List.mem_cons.not.1 noFeed)
    rw [after_cons, ih _ noFeed, next, if_neg (Ne.symm other)]
    simp only [List.length_cons, mk.injEq, true_and]
    omega

end Position

namespace Token

/-- A token stands inside a span. -/
def isWithin (span : Span) (t : Token) : Bool := span.start ≤ t.pos ∧ t.stop ≤ span.stop

theorem isWithin_iff {span : Span} {t : Token} :
    t.isWithin span ↔ span.start ≤ t.pos ∧ t.stop ≤ span.stop := by
  simp [isWithin]

variable {before mine after ts us : List Token} {t : Token}

/-- What tokens cover is from the place of the first to the place behind the last. -/
theorem excerpts_span (some : ts ≠ []) :
    (excerpts ts).span = ⟨(ts.head some).pos, (ts.getLast some).stop⟩ := by
  simp only [excerpts, List.head?_eq_some_head some, List.getLast?_eq_some_getLast some]
  rfl

/-- Tokens follow each other: each takes some place, and the next one stands behind it. -/
structure InOrder (ts : List Token) : Prop where
  wide : ∀ t ∈ ts, t.pos < t.stop
  apart : ts.Pairwise fun t u => t.stop ≤ u.pos

namespace InOrder

theorem sublist (ordered : InOrder us) (sub : ts.Sublist us) : InOrder ts :=
  ⟨fun t member => ordered.wide t (sub.mem member), ordered.apart.sublist sub⟩

theorem left (ordered : InOrder (ts ++ us)) : InOrder ts :=
  ordered.sublist (List.sublist_append_left ts us)

theorem right (ordered : InOrder (ts ++ us)) : InOrder us :=
  ordered.sublist (List.sublist_append_right ts us)

theorem middle (ordered : InOrder (before ++ mine ++ after)) : InOrder mine :=
  ordered.left.right

theorem pos_le (ordered : InOrder (t :: ts)) {u : Token} (member : u ∈ t :: ts) :
    t.pos ≤ u.pos := by
  rcases List.mem_cons.1 member with rfl | behind
  · exact le_refl _
  · exact (ordered.wide t List.mem_cons_self).le.trans ((List.pairwise_cons.1 ordered.apart).1 u behind)

theorem le_stop (ordered : InOrder (ts ++ [t])) {u : Token} (member : u ∈ ts ++ [t]) :
    u.stop ≤ t.stop := by
  rcases List.mem_append.1 member with before | last
  · have follows := (List.pairwise_append.1 ordered.apart).2.2 u before t (by simp)
    exact follows.trans (ordered.wide t (by simp)).le
  · obtain rfl := List.mem_singleton.1 last
    exact le_refl _

/-- Every token stands inside what all of them cover. -/
theorem within (ordered : InOrder ts) (member : t ∈ ts) : t.isWithin (excerpts ts).span := by
  have some := List.ne_nil_of_mem member
  rw [isWithin_iff, excerpts_span some]
  constructor
  · have whole : ts = ts.head some :: ts.tail := (List.cons_head_tail some).symm
    rw [whole] at ordered member
    exact ordered.pos_le member
  · have whole : ts = ts.dropLast ++ [ts.getLast some] := (List.dropLast_concat_getLast some).symm
    rw [whole] at ordered member
    exact ordered.le_stop member

/-- What tokens cover is not empty. -/
theorem start_lt_stop (ordered : InOrder ts) (some : ts ≠ []) :
    (excerpts ts).span.start < (excerpts ts).span.stop := by
  obtain ⟨first, last⟩ := isWithin_iff.1 (ordered.within (List.head_mem some))
  exact first.trans_lt ((ordered.wide _ (List.head_mem some)).trans_le last)

/-- What some tokens cover ends before what later ones cover starts. -/
theorem stop_le_start (ordered : InOrder (ts ++ us)) (left : ts ≠ []) (right : us ≠ []) :
    (excerpts ts).span.stop ≤ (excerpts us).span.start := by
  rw [excerpts_span left, excerpts_span right]
  exact (List.pairwise_append.1 ordered.apart).2.2 _ (List.getLast_mem left) _ (List.head_mem right)

/-- What some of the tokens cover is inside what all of them cover. -/
theorem inside (ordered : InOrder (before ++ mine ++ after)) (some : mine ≠ []) :
    (excerpts (before ++ mine ++ after)).span.start ≤ (excerpts mine).span.start ∧
      (excerpts mine).span.stop ≤ (excerpts (before ++ mine ++ after)).span.stop := by
  have among {t : Token} (member : t ∈ mine) : t ∈ before ++ mine ++ after := by simp [member]
  rw [excerpts_span some]
  exact ⟨(isWithin_iff.1 (ordered.within (among (List.head_mem some)))).1,
    (isWithin_iff.1 (ordered.within (among (List.getLast_mem some)))).2⟩

/-- Tokens in front of others start what all of them cover earlier. -/
theorem start_lt (ordered : InOrder (ts ++ us)) (left : ts ≠ []) (right : us ≠ []) :
    (excerpts (ts ++ us)).span.start < (excerpts us).span.start := by
  rw [excerpts_append left right]
  exact (ordered.left.start_lt_stop left).trans_le (ordered.stop_le_start left right)

/-- Tokens behind others end what all of them cover later. -/
theorem stop_lt (ordered : InOrder (ts ++ us)) (left : ts ≠ []) (right : us ≠ []) :
    (excerpts ts).span.stop < (excerpts (ts ++ us)).span.stop := by
  rw [excerpts_append left right]
  exact (ordered.stop_le_start left right).trans_lt (ordered.right.start_lt_stop right)

/-- The tokens that stand inside what some of them cover are those. -/
theorem filter_isWithin (ordered : InOrder (before ++ mine ++ after)) (some : mine ≠ []) :
    (before ++ mine ++ after).filter (·.isWithin (excerpts mine).span) = mine := by
  have outside : ∀ t, t ∈ before ∨ t ∈ after → ¬ t.isWithin (excerpts mine).span := by
    rintro t (member | member) within
    all_goals
      rw [isWithin_iff, excerpts_span some] at within
      have wide := ordered.wide t (by simp [member])
    · have apart := (List.pairwise_append.1 ordered.left.apart).2.2 t member _ (List.head_mem some)
      exact absurd (wide.trans_le apart) (not_lt.2 within.1)
    · have apart := (List.pairwise_append.1 ordered.apart).2.2 _
        (List.mem_append_right before (List.getLast_mem some)) t member
      exact absurd (wide.trans_le within.2) (not_lt.2 apart)
  rw [List.filter_append, List.filter_append,
    List.filter_eq_nil_iff.2 fun t member => outside t (.inl member),
    List.filter_eq_nil_iff.2 fun t member => outside t (.inr member),
    List.filter_eq_self.2 fun t member => ordered.middle.within member]
  simp

end InOrder

end Token

/-! ## The tokens of a source -/

/-- A token ends where the text that it spells does. -/
theorem Token.stop_eq {t : Token} (spelt : t.isSpelt) : t.stop = t.pos.after t.spelling :=
  (t.pos.after_eq (TokenKind.lineFeed_not_mem_of_spells spelt)).symm

/-- The tokens of a layout stand between the places where it starts and where it ends. -/
theorem Placed.Laid.inOrder {rear before : Text} {ps : List Placed} (laid : Laid rear before ps) :
    (∀ t ∈ ps.map (·.token), Position.behind before ≤ t.pos ∧
      t.stop ≤ Position.behind (before ++ layout ps)) ∧
    Token.InOrder (ps.map (·.token)) := by
  induction ps generalizing before with
  | nil => exact ⟨by simp, by simp, List.Pairwise.nil⟩
  | cons p ps ih =>
    obtain ⟨stands, laid⟩ := laid
    obtain ⟨within, ordered⟩ := ih laid
    have stop : p.token.stop = Position.behind (before ++ p.text) := by
      rw [Token.stop_eq stands.spelt, stands.pos, ← Position.behind_append, text, List.append_assoc]
    have starts : Position.behind before ≤ p.token.pos := by
      rw [stands.pos]
      exact Position.behind_le _ _
    have wide : p.token.pos < p.token.stop := by
      obtain ⟨u, rest, same⟩ := TokenKind.spells_nonempty stands.kind stands.spelt
      rw [Token.stop_eq stands.spelt, same]
      exact Position.lt_after _ (List.cons_ne_nil u rest)
    have whole : before ++ layout (p :: ps) = before ++ p.text ++ layout ps := by simp
    have ends : p.token.stop ≤ Position.behind (before ++ p.text ++ layout ps) :=
      stop ▸ Position.behind_le _ _
    simp only [whole, List.map_cons, List.forall_mem_cons]
    refine ⟨⟨⟨starts, ends⟩, fun t member => ?_⟩, List.forall_mem_cons.2 ⟨wide, ordered.wide⟩,
      List.pairwise_cons.2 ⟨fun t member => stop ▸ (within t member).1, ordered.apart⟩⟩
    obtain ⟨after, before⟩ := within t member
    exact ⟨starts.trans (wide.le.trans (stop ▸ after)), before⟩

/-- The tokens of a source follow each other. -/
theorem Text.tokens_inOrder {source : Text} {body : List Token} {last : Token}
    (split : source.tokens = .ok (body ++ [last])) : Token.InOrder body := by
  have start : Position.origin = .behind [] := rfl
  rw [Text.tokens, start] at split
  obtain ⟨ps, rear, laid, -, same⟩ := tokensFrom_laid split
  rw [(List.append_inj' same rfl).1]
  exact laid.inOrder.2

end ProcCheck
