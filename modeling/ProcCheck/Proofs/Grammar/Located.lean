import ProcCheck.Proofs.Grammar.Extents
import ProcCheck.Proofs.Grammar.Source

/-!
# Where the nodes of a program stand

Tokens of a source follow each other, so the parts of a node that is settled on some of them do. The
tokens inside the span of a node are then those that spell it, its children stand inside it in
their order, and a walk over its expressions never goes back.
-/

namespace ProcCheck

/-! ## Nodes under a settled one -/

theorem Parts.pairwise {α : Type} {R : α → List Token → Prop} {items : List α} {ts : List Token}
    (parts : Parts R items ts) : items.Pairwise fun a b =>
      ∃ mine others, (mine ++ others).Sublist ts ∧ R a mine ∧ R b others := by
  induction parts with
  | nil => exact .nil
  | skip _ ih =>
    refine ih.imp ?_
    rintro a b ⟨mine, others, sub, related⟩
    exact ⟨mine, others, .cons _ sub, related⟩
  | @part a items first ts related behind ih =>
    refine List.pairwise_cons.2 ⟨fun b member => ?_, ih.imp ?_⟩
    · obtain ⟨before, others, after, rfl, second⟩ := behind.of_mem member
      have sub : others.Sublist (before ++ others ++ after) :=
        (List.sublist_append_right before others).trans (List.sublist_append_left _ after)
      exact ⟨first, others, (List.append_sublist_append_left first).2 sub, related, second⟩
    · rintro a b ⟨mine, others, sub, related⟩
      exact ⟨mine, others, sub.trans (List.sublist_append_right first ts), related⟩

namespace Node

variable {n m : Node} {used : List Token}

/-- No program is under another node. -/
theorem ne_program_of_mem {child : Node} (member : child ∈ n.children) (p : Program) : child ≠ .program p := by
  rintro rfl
  cases n with
  | program q =>
    obtain ⟨node, -, same⟩ := List.mem_map.1 member
    cases node <;> cases same
  | stmt s => cases s <;> simp [children, ofStmt] at member
  | _ => simp [children] at member

/-- Every node but a program has a token. -/
theorem SpeltBy.ne_nil (spelt : n.SpeltBy used) (other : ∀ p, n ≠ .program p) : used ≠ [] := by
  have first {l : Lexeme} {slots : List Slot} (spell : Slot.Spell (.lexeme l :: slots) used) :
      used ≠ [] := by
    obtain ⟨t, rest, rfl, -⟩ := Slot.spell_lexeme.1 spell
    exact List.cons_ne_nil t rest
  cases n with
  | program p => exact absurd rfl (other p)
  | global decl => exact first spelt.2
  | function decl => exact first spelt.2
  | param p => exact first spelt.2
  | stmt s =>
    obtain ⟨t, tail, rfl, -⟩ := Stmt.SpeltBy.starts spelt
    exact List.cons_ne_nil t tail
  | expr e => exact Expr.SpeltBy.ne_nil spelt

/-- The first clause of a loop that tokens spell is one that a loop can have. -/
theorem SpeltBy.isClause (spelt : n.SpeltBy used) : ∀ s ∈ n.clause?, s.isClause := by
  intro s member
  cases n with
  | stmt loop =>
    cases loop with
    | forLoop init condition update body span =>
      cases spelt.1 with
      | forLoop clause => exact clause s member
    | _ => cases member
  | _ => cases member

namespace Settled

/-- A child of a settled node is settled on some of its tokens, and has any. -/
theorem child {child : Node} (settled : n.Settled used) (member : child ∈ n.children) :
    ∃ before mine after, used = before ++ mine ++ after ∧ child.Settled mine ∧ mine ≠ [] := by
  obtain ⟨before, mine, after, same, inner⟩ := settled.parts.of_mem member
  exact ⟨before, mine, after, same, inner, inner.spelt.ne_nil (ne_program_of_mem member)⟩

/-- Children of a settled node are settled on tokens one behind the other. -/
theorem children_pairwise (settled : n.Settled used) : n.children.Pairwise fun a b =>
    ∃ mine others, (mine ++ others).Sublist used ∧ (a.Settled mine ∧ mine ≠ []) ∧
      b.Settled others ∧ others ≠ [] := by
  refine settled.parts.pairwise.imp_of_mem ?_
  rintro a b first second ⟨mine, others, sub, aSettled, bSettled⟩
  exact ⟨mine, others, sub, ⟨aSettled, aSettled.spelt.ne_nil (ne_program_of_mem first)⟩,
    bSettled, bSettled.spelt.ne_nil (ne_program_of_mem second)⟩

/-- Every node under a settled one is settled on some of its tokens. -/
theorem under (settled : n.Settled used) (has : n.Has m) :
    ∃ before mine after, used = before ++ mine ++ after ∧ m.Settled mine := by
  induction has with
  | refl => exact ⟨[], used, [], by simp, settled⟩
  | tail _ member ih =>
    obtain ⟨before, mine, after, rfl, parent⟩ := ih
    obtain ⟨before', mine', after', rfl, inner, -⟩ := parent.child member
    exact ⟨before ++ before', mine', after' ++ after, by simp, inner⟩

theorem clauses (settled : n.Settled used) : ∀ m, n.Has m → ∀ s ∈ m.clause?, s.isClause := by
  intro m has
  obtain ⟨-, mine, -, -, inner⟩ := settled.under has
  exact inner.spelt.isClause

end Settled

/-! ## Spans -/

/-- The tokens that stand inside the span of a node. -/
def tokens (body : List Token) (n : Node) : List Token := body.filter (·.isWithin n.span)

/-- A node stands where its tokens do: the tokens inside its span are next to each other and spell
it, the span is from the place of the first to the place behind the last, the text of an expression
is theirs, and the children of the node stand inside it one behind the other. -/
structure Exact (body : List Token) (n : Node) : Prop where
  contiguous : (n.tokens body).IsInfix body
  spelt : n.SpeltBy (n.tokens body)
  span : ∀ some : n.tokens body ≠ [],
    n.span = ⟨((n.tokens body).head some).pos, ((n.tokens body).getLast some).stop⟩
  text : ∀ e ∈ n.expr?, e.text = (n.tokens body).flatMap (·.spelling)
  inside : ∀ child ∈ n.children,
    n.span.start ≤ child.span.start ∧ child.span.stop ≤ n.span.stop
  apart : n.children.Pairwise fun a b => a.span.stop ≤ b.span.start

namespace Settled

variable {before mine after : List Token}

theorem tokens (settled : n.Settled mine) (some : mine ≠ [])
    (ordered : Token.InOrder (before ++ mine ++ after)) :
    n.tokens (before ++ mine ++ after) = mine := by
  rw [Node.tokens, settled.span some]
  exact ordered.filter_isWithin some

/-- A node that is settled on the tokens inside its span stands exactly there. -/
theorem exact (settled : n.Settled mine) (ordered : Token.InOrder (before ++ mine ++ after))
    (own : n.tokens (before ++ mine ++ after) = mine) : n.Exact (before ++ mine ++ after) := by
  refine ⟨?_, own.symm ▸ settled.spelt, ?_, ?_, ?_, ?_⟩
  · rw [own]
    exact ⟨before, after, rfl⟩
  · intro some
    simp only [own] at some ⊢
    rw [settled.span some, Token.excerpts_span some]
  · intro e member
    cases n with
    | expr e' =>
      obtain rfl := Option.some.inj member
      have spelt : e'.SpeltBy 0 mine := settled.spelt
      rw [own, Expr.text, spelt.canonical.text_eq, spelt.lexemes, Lexeme.joined, List.flatMap_map]
      rfl
    | _ => cases member
  · intro child member
    obtain ⟨front, inner, back, rfl, childSettled, childSome⟩ := settled.child member
    rw [settled.span (by simp [childSome]), childSettled.span childSome]
    exact ordered.middle.inside childSome
  · refine settled.children_pairwise.imp ?_
    rintro a b ⟨as, bs, sub, ⟨aSettled, aSome⟩, bSettled, bSome⟩
    rw [aSettled.span aSome, bSettled.span bSome]
    exact (ordered.middle.sublist sub).stop_le_start aSome bSome

end Settled

end Node

/-! ## Walks -/

/-- A part of an expression has fewer lexemes. -/
theorem Expr.length_lexemes_lt {e part : Expr} (direct : part ∈ e.children) :
    part.lexemes.length < e.lexemes.length := by
  cases e with
  | call src callee args =>
    have among : part.lexemes.length ≤ (lexemes.argLexemes args).length := by
      cases args with
      | nil => cases direct
      | cons first more =>
        rw [lexemes.argLexemes, moreLexemes_eq, List.length_append]
        rcases List.mem_cons.1 direct with rfl | member
        · omega
        · obtain ⟨before, after, rfl⟩ := List.append_of_mem member
          simp only [List.flatMap_append, List.flatMap_cons, List.length_append, List.length_cons]
          omega
    simp only [lexemes, List.length_cons, List.length_append]
    omega
  | binary src op left right =>
    simp only [children, List.mem_cons, List.not_mem_nil, or_false] at direct
    simp only [lexemes, List.length_cons, List.length_append]
    rcases direct with rfl | rfl <;> omega
  | assign | prefixed | group =>
    obtain rfl := List.mem_singleton.1 direct
    simp only [lexemes, List.length_cons, List.length_append]
    omega
  | _ => cases direct

/-- The first span starts before the second, or where it does or before it and ends behind it. -/
def Span.Precedes (a b : Span) : Prop := a.start < b.start ∨ a.start ≤ b.start ∧ b.stop < a.stop

namespace Span.Precedes

variable {a b c : Span}

theorem start_le (precedes : a.Precedes b) : a.start ≤ b.start :=
  precedes.elim le_of_lt And.left

theorem ne (precedes : a.Precedes b) : a ≠ b := by
  rintro rfl
  exact precedes.elim (lt_irrefl _) fun both => lt_irrefl _ both.2

/-- What precedes a span precedes what is inside it. -/
theorem inside (precedes : a.Precedes b) (start : b.start ≤ c.start) (stop : c.stop ≤ b.stop) :
    a.Precedes c := by
  rcases precedes with lt | ⟨le, lt⟩
  · exact .inl (lt.trans_le start)
  · exact .inr ⟨le.trans start, stop.trans_lt lt⟩

end Span.Precedes

/-- What tokens cover precedes what fewer of them cover. -/
theorem Token.InOrder.precedes {before mine after : List Token}
    (ordered : InOrder (before ++ mine ++ after)) (some : mine ≠ [])
    (fewer : mine.length < (before ++ mine ++ after).length) :
    (excerpts (before ++ mine ++ after)).span.Precedes (excerpts mine).span := by
  obtain ⟨start, stop⟩ := ordered.inside some
  by_cases front : before = []
  · subst front
    have back : after ≠ [] := by
      rintro rfl
      simp at fewer
    exact .inr ⟨start, ordered.stop_lt some back⟩
  · rw [List.append_assoc] at ordered ⊢
    have rest := (show InOrder ([] ++ mine ++ after) from ordered.right).inside some
    exact .inl ((ordered.start_lt front (by simp [some])).trans_le rest.1)

namespace Node.Settled

variable {n m : Node} {used : List Token}

/-- What is under a node stands inside what its tokens cover. -/
theorem inside (settled : n.Settled used) (ordered : Token.InOrder used) {e : Expr}
    (member : e ∈ n.walk) : (Token.excerpts used).span.start ≤ e.span.start ∧
      e.span.start < e.span.stop ∧ e.span.stop ≤ (Token.excerpts used).span.stop := by
  obtain ⟨before, mine, after, rfl, inner⟩ :=
    settled.under ((mem_walk settled.clauses).1 member)
  have some := inner.spelt.ne_nil fun p => nofun
  have span : e.span = (Token.excerpts mine).span := inner.span some
  obtain ⟨start, stop⟩ := ordered.inside some
  rw [span]
  exact ⟨start, ordered.middle.start_lt_stop some, stop⟩

/-- An expression precedes the expressions under its parts. -/
theorem precedes_part {e f part : Expr} (settled : (Node.expr e).Settled used)
    (ordered : Token.InOrder used) (direct : part ∈ e.children) (member : f ∈ part.walk) :
    e.span.Precedes f.span := by
  obtain ⟨before, mine, after, rfl, inner, some⟩ := settled.child (List.mem_map_of_mem direct)
  have whole : e.span = (Token.excerpts (before ++ mine ++ after)).span :=
    settled.span (by simp [some])
  have fewer : mine.length < (before ++ mine ++ after).length := by
    have own : e.lexemes = _ := settled.spelt.lexemes
    have parts : part.lexemes = _ := inner.spelt.lexemes
    simpa only [own, parts, List.length_map] using Expr.length_lexemes_lt direct
  obtain ⟨start, -, stop⟩ := inner.inside ordered.middle member
  rw [whole]
  exact (ordered.precedes some fewer).inside start stop

/-- Each expression that a walk visits precedes those that it visits later. -/
theorem walk_pairwise (settled : n.Settled used) (ordered : Token.InOrder used) :
    n.walk.Pairwise fun e f => e.span.Precedes f.span := by
  induction n using childrenInduction generalizing used with
  | step n ih =>
    have parts : (n.children.flatMap walk).Pairwise fun e f => e.span.Precedes f.span := by
      refine List.pairwise_flatMap.2 ⟨fun child member => ?_, settled.children_pairwise.imp ?_⟩
      · obtain ⟨before, mine, after, rfl, inner, -⟩ := settled.child member
        exact ih child member inner ordered.middle
      · rintro a b ⟨mine, others, sub, ⟨first, left⟩, second, right⟩ e visited f visited'
        have behind := ordered.sublist sub
        obtain ⟨-, wide, stop⟩ := first.inside behind.left visited
        obtain ⟨start, -, -⟩ := second.inside behind.right visited'
        exact .inl ((wide.trans_le stop).trans_le ((behind.stop_le_start left right).trans start))
    rw [walk_eq (settled.clauses n .refl)]
    cases n with
    | expr e =>
      refine List.pairwise_cons.2 ⟨fun f visited => ?_, parts⟩
      obtain ⟨child, member, visited⟩ := List.mem_flatMap.1 visited
      obtain ⟨part, direct, rfl⟩ := List.mem_map.1 member
      exact settled.precedes_part ordered direct visited
    | _ => exact parts

end Node.Settled

/-- A walk visits every expression under a statement and no other, each once, never goes back and
visits an expression before its parts. An expression is told from others by its span. -/
structure Stmt.WalksInOrder (s : Stmt) : Prop where
  visits : ∀ e, e ∈ s.walk ↔ (Node.stmt s).Has (.expr e)
  once : (s.walk.map Expr.span).Nodup
  forward : s.walk.Pairwise fun e f => e.span.start ≤ f.span.start
  parents : ∀ e ∈ s.walk, ∀ part ∈ e.children, [e, part].Sublist s.walk

theorem Node.Settled.walksInOrder {s : Stmt} {used : List Token}
    (settled : (Node.stmt s).Settled used) (ordered : Token.InOrder used) : s.WalksInOrder := by
  have precedes : s.walk.Pairwise fun e f => e.span.Precedes f.span :=
    settled.walk_pairwise ordered
  refine ⟨fun e => Node.mem_walk settled.clauses, ?_, precedes.imp Span.Precedes.start_le, ?_⟩
  · exact List.pairwise_map.2 (precedes.imp Span.Precedes.ne)
  · exact fun e member part direct => Node.pair_sublist_walk settled.clauses member direct

/-- For a source that is read as a program, every node of the tree stands exactly where its tokens
do, and every statement is walked in order. The program has all tokens of the source before its end,
and stands at the end if there are none; every other node has a token. -/
theorem Text.program_exact {source : Text} {p : Program} (read : source.program = .ok p) :
    ∃ body, source.tokens = .ok (body ++ [⟨.endOfInput, [], .behind source⟩]) ∧
      (∀ t ∈ body, t.stop = t.pos.after t.spelling) ∧
      (Node.program p).tokens body = body ∧
      (body = [] → p.span = ⟨.behind source, .behind source⟩) ∧
      ∀ n, (Node.program p).Has n → n.Exact body ∧
        ((∀ q, n ≠ .program q) → n.span.start < n.span.stop) ∧
        ∀ s, n = .stmt s → s.WalksInOrder := by
  obtain ⟨tokens, split, read⟩ := program_eq_ok.1 read
  obtain ⟨body, rfl, stand⟩ := tokens_stand split
  have ordered := tokens_inOrder split
  have allSpelt : Grammar.AllSpelt body := fun t member => (stand t member).2.1
  obtain ⟨settled, span⟩ :=
    Program.settled allSpelt (fun t member => (stand t member).1) rfl read
  have whole : [] ++ body ++ [] = body := by simp
  have all : (Node.program p).tokens body = body := by
    by_cases some : body = []
    · rw [some]
      rfl
    · rw [← whole] at ordered
      simpa only [whole] using settled.tokens some ordered
  refine ⟨body, split, fun t member => Token.stop_eq (allSpelt t member), all, ?_, fun n has => ?_⟩
  · rintro rfl
    simp [span, Token.span, Token.stop]
    rfl
  · rcases Relation.ReflTransGen.cases_tail has with rfl | ⟨parent, above, member⟩
    · have exact : (Node.program p).Exact ([] ++ body ++ []) :=
        settled.exact (whole.symm ▸ ordered) (by rw [whole, all])
      rw [whole] at exact
      refine ⟨exact, fun other => absurd rfl (other p), fun s isStmt => ?_⟩
      cases isStmt
    · obtain ⟨before, mine, after, rfl, inner⟩ := settled.under has
      have some := inner.spelt.ne_nil (Node.ne_program_of_mem member)
      refine ⟨inner.exact ordered (inner.tokens some ordered), fun _ => ?_, ?_⟩
      · rw [inner.span some]
        exact ordered.middle.start_lt_stop some
      · rintro s rfl
        exact inner.walksInOrder ordered.middle

/-- A chain over two lines with a group and a call in it. -/
def Text.wrapped : Text := "x = a -\n(b + 1) * f(2);"

/-- The texts of the expressions of `Text.wrapped` in the order of their walk, and where they
stand. -/
def Text.wrappedExtents : List (Text × Span) :=
  [("x=a-(b+1)*f(2)", ⟨⟨1, 1⟩, ⟨2, 15⟩⟩), ("a-(b+1)*f(2)", ⟨⟨1, 5⟩, ⟨2, 15⟩⟩),
    ("a", ⟨⟨1, 5⟩, ⟨1, 6⟩⟩), ("(b+1)*f(2)", ⟨⟨2, 1⟩, ⟨2, 15⟩⟩), ("(b+1)", ⟨⟨2, 1⟩, ⟨2, 8⟩⟩),
    ("b+1", ⟨⟨2, 2⟩, ⟨2, 7⟩⟩), ("b", ⟨⟨2, 2⟩, ⟨2, 3⟩⟩), ("1", ⟨⟨2, 6⟩, ⟨2, 7⟩⟩),
    ("f(2)", ⟨⟨2, 11⟩, ⟨2, 15⟩⟩), ("2", ⟨⟨2, 13⟩, ⟨2, 14⟩⟩)]

theorem Text.wrapped_exact : ∃ p, Text.wrapped.program = .ok p ∧
    p.walk.map (fun e => (e.text, e.span)) = Text.wrappedExtents ∧
    ∃ body, Text.wrapped.tokens = .ok (body ++ [⟨.endOfInput, [], .behind Text.wrapped⟩]) ∧
      (Node.program p).tokens body = body ∧
      ∀ n, (Node.program p).Has n → n.Exact body ∧ ∀ s, n = .stmt s → s.WalksInOrder := by
  have found : Text.wrapped.program.toOption.any (fun p =>
      p.walk.map (fun e => (e.text, e.span)) = Text.wrappedExtents) = true := by
    decide +kernel
  cases read : Text.wrapped.program with
  | error e =>
    rw [read] at found
    cases found
  | ok p =>
    rw [read] at found
    obtain ⟨body, split, -, all, -, each⟩ := program_exact read
    refine ⟨p, rfl, of_decide_eq_true found, body, split, all, fun n has => ?_⟩
    obtain ⟨exact, -, walks⟩ := each n has
    exact ⟨exact, walks⟩

end ProcCheck
