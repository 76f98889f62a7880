import ProcCheck.Proofs.Grammar.Soundness
import ProcCheck.Proofs.Token.Nesting

/-!
# Control structures of statements

A statement is read from tokens, and an analysis records the control structures among its events.
They are the ones that `Token.controls` finds among the tokens: `Scanned` says so of any run of
tokens and the events of what was read from them, and each reader of statements keeps it. Expressions
take no part in it, since their tokens are no words of statements and close all their parentheses.
-/

namespace ProcCheck

/-! ## Events -/

namespace Event

/-- The control structures that events enter, the first at a depth. -/
def controls (depth : Nat) : List Event → List ControlStructure
  | [] => []
  | enter head :: rest => head.atDepth depth :: controls (depth + 1) rest
  | leave :: rest => controls (depth - 1) rest
  | declare _ :: rest => controls depth rest
  | check _ :: rest => controls depth rest
  | foreign _ :: rest => controls depth rest

/-- Events that leave all control structures that they enter. -/
def Level (events : List Event) : Prop := ∀ depth more,
  controls depth (events ++ more) = controls depth events ++ controls depth more

/-- Events that enter no control structure and leave none. -/
def Quiet (events : List Event) : Prop := ∀ depth more,
  controls depth (events ++ more) = controls depth more

variable {events others : List Event}

theorem Quiet.controls_eq (quiet : Quiet events) (depth : Nat) : controls depth events = [] := by
  simpa [controls] using quiet depth []

theorem Quiet.level (quiet : Quiet events) : Level events := fun depth more => by
  rw [quiet, quiet.controls_eq, List.nil_append]

theorem quiet_nil : Quiet [] := fun _ _ => rfl

theorem quiet_declare (decl : VarDecl) : Quiet [.declare decl] := fun _ _ => rfl

theorem quiet_check (e : Expr) : Quiet [.check e] := fun _ _ => rfl

theorem quiet_checks (e : Option Expr) : Quiet (e.toList.map .check) := by
  cases e with
  | none => exact quiet_nil
  | some e => exact quiet_check e

theorem Level.append (first : Level events) (second : Level others) : Level (events ++ others) := by
  intro depth more
  rw [List.append_assoc, first, second, first, List.append_assoc]

/-- A control structure around events is before all that they enter, one deeper than it is. -/
theorem Level.controls_bracket (level : Level events) (head : ControlHead) (depth : Nat)
    (more : List Event) : controls depth (.enter head :: (events ++ .leave :: more)) =
      head.atDepth depth :: (controls (depth + 1) events ++ controls depth more) := by
  rw [controls, level, controls, Nat.add_sub_cancel]

theorem Level.bracket (level : Level events) (head : ControlHead) :
    Level (.enter head :: (events ++ [.leave])) := by
  intro depth more
  have alone := level.controls_bracket head depth []
  rw [alone]
  simp [level.controls_bracket, controls]

end Event

/-! ## Forests -/

/-- Control structures that are those of a forest: each is followed by those inside of it, one
deeper and within its lines, and all are within the lines from `low` to `high`. -/
inductive ControlStructure.Forest : Nat → Int → Int → List ControlStructure → Prop
  | nil {depth : Nat} {low high : Int} : Forest depth low high []
  | cons {depth : Nat} {low high : Int} {c : ControlStructure} {inner rest : List ControlStructure}
      (same : c.depth = depth) (starts : low ≤ c.startLine) (ends : c.endLine ≤ high)
      (inside : Forest (depth + 1) c.startLine c.endLine inner)
      (others : Forest depth low high rest) : Forest depth low high (c :: (inner ++ rest))

theorem ControlStructure.Forest.append {depth : Nat} {low high : Int}
    {cs ds : List ControlStructure} (first : Forest depth low high cs)
    (second : Forest depth low high ds) : Forest depth low high (cs ++ ds) := by
  induction first with
  | nil => exact second
  | cons same starts ends inside _ _ ih =>
    rw [List.cons_append, List.append_assoc]
    exact .cons same starts ends inside (ih second)

/-! ## Clauses -/

/-- Whether a kind of token can stand in a clause: it is no word of a statement, no brace and no
semicolon. -/
def TokenKind.inClause : TokenKind → Bool
  | ifWord | elseWord | whileWord | forWord | returnWord | openBrace | closeBrace | semicolon
  | endOfInput => false
  | _ => true

/-- Kinds of tokens that can stand in a clause and close all their parentheses. -/
structure IsClause (kinds : List TokenKind) : Prop where
  inside : ∀ kind ∈ kinds, kind.inClause
  closed : Closed .openParen .closeParen kinds

namespace IsClause

variable {kinds others : List TokenKind} {kind : TokenKind}

theorem nil : IsClause [] := ⟨by simp, .nil⟩

theorem append (first : IsClause kinds) (second : IsClause others) : IsClause (kinds ++ others) :=
  ⟨List.forall_mem_append.2 ⟨first.inside, second.inside⟩, first.closed.append second.closed⟩

/-- A kind that is no parenthesis in front of a clause. -/
theorem cons (inside : kind.inClause) (noOpening : kind ≠ .openParen)
    (noClosing : kind ≠ .closeParen) (others : IsClause kinds) : IsClause (kind :: kinds) := by
  have single : IsClause [kind] := ⟨by simpa using inside, .of_none (by simp [noOpening, noClosing])⟩
  exact single.append others

theorem of_isType (type : kind.isType) : IsClause [kind] := by
  cases kind with
  | typeWord => exact .cons rfl (by simp) (by simp) .nil
  | _ => cases type

theorem identifier : IsClause [.identifier] := .cons rfl (by simp) (by simp) .nil

/-- A clause in parentheses. -/
theorem bracket (inner : IsClause kinds) : IsClause (.openParen :: (kinds ++ [.closeParen])) := by
  refine ⟨?_, inner.closed.bracket (by simp)⟩
  refine List.forall_mem_cons.2 ⟨rfl, List.forall_mem_append.2 ⟨inner.inside, ?_⟩⟩
  simp [TokenKind.inClause]

end IsClause

/-- A canonical expression is a clause. -/
theorem Expr.Canonical.isClause {e : Expr} (canonical : e.Canonical) :
    IsClause (e.lexemes.map (·.kind)) := by
  have literal {kind : TokenKind} (inside : kind.inClause) (noOpening : kind ≠ .openParen)
      (noClosing : kind ≠ .closeParen) : IsClause [kind] := .cons inside noOpening noClosing .nil
  induction canonical with
  | intLiteral => exact literal rfl (by simp) (by simp)
  | floatLiteral => exact literal rfl (by simp) (by simp)
  | stringLiteral => exact literal rfl (by simp) (by simp)
  | identifier spelt =>
    rw [lexemes, List.map_singleton, Lexeme.word, TokenKind.ofWord_eq_identifier spelt]
    exact literal rfl (by simp) (by simp)
  | @call src callee args name _ _ ih =>
    have arguments : IsClause ((lexemes.argLexemes args).map (·.kind)) := by
      cases args with
      | nil => exact .nil
      | cons first more =>
        obtain ⟨head, others⟩ := List.forall_mem_cons.1 ih
        have behind (l : List Expr) (each : ∀ a ∈ l, IsClause (a.lexemes.map (·.kind))) :
            IsClause ((lexemes.moreLexemes l).map (·.kind)) := by
          induction l with
          | nil => exact .nil
          | cons a l ih =>
            obtain ⟨this, those⟩ := List.forall_mem_cons.1 each
            rw [lexemes.moreLexemes, List.map_cons, List.map_append]
            exact .cons rfl (by simp) (by simp) (this.append (ih those))
        rw [lexemes.argLexemes, List.map_append]
        exact head.append (behind more others)
    have callable := TokenKind.ofWord_isCallable name
    have whole := arguments.bracket
    simp only [lexemes, List.map_cons, List.map_append, List.map_nil, Lexeme.word,
      TokenKind.fixed_kind]
    refine .cons ?_ ?_ ?_ whole <;> revert callable <;> cases TokenKind.ofWord callee <;>
      simp [TokenKind.isCallable, TokenKind.inClause]
  | assign name _ _ ih =>
    rw [lexemes, List.map_cons, List.map_cons, Lexeme.word, TokenKind.ofWord_eq_identifier name]
    exact .cons rfl (by simp) (by simp) (.cons rfl (by simp) (by simp) ih)
  | @binary src op left right _ _ _ _ _ ihLeft ihRight =>
    rw [lexemes, List.map_append, List.map_cons]
    exact ihLeft.append (.cons rfl (by simp) (by simp) ihRight)
  | @prefixed src op operand _ _ _ ih =>
    rw [lexemes, List.map_cons]
    exact .cons (by cases op <;> rfl) (by cases op <;> simp [PrefixOp.kind])
      (by cases op <;> simp [PrefixOp.kind]) ih
  | group _ _ ih =>
    rw [lexemes, List.map_cons, List.map_append]
    exact ih.bracket

namespace Token

/-- Tokens whose kinds are a clause. -/
def Clause (used : List Token) : Prop := IsClause (used.map (·.kind))

theorem Clause.noSemicolon {used : List Token} (clause : Clause used) :
    ∀ t ∈ used, t.kind ≠ .semicolon := by
  intro t member same
  have inside := clause.inside t.kind (List.mem_map_of_mem member)
  simp [same, TokenKind.inClause] at inside

theorem Clause.inert {used : List Token} (clause : Clause used) : Inert used := by
  refine ⟨clause.closed, .of_none fun kind member => ?_, fun t member => ?_⟩
  · have inside := clause.inside kind member
    constructor <;> rintro rfl <;> cases inside
  · have inside := clause.inside t.kind (List.mem_map_of_mem member)
    revert inside
    cases t.kind <;> simp [TokenKind.inClause, TokenKind.isControl]

end Token

/-! ## Runs of tokens -/

/-- Tokens in the order of their lines, from the line `low` to the line `high`. -/
structure Token.InLines (low high : Int) (used : List Token) : Prop where
  within : ∀ t ∈ used, low ≤ t.pos.line ∧ t.pos.line ≤ high
  ordered : used.Pairwise fun t u => t.pos.line ≤ u.pos.line

namespace Grammar

/-- Of the tokens `used` the control structures are found that the events of what they spell enter,
whatever is behind them, provided that it starts with the same token as `rest`. -/
structure Scanned (used rest : List Token) (events : List Event) : Prop where
  level : Event.Level events
  found : ∀ ends place behind, behind.head? = rest.head? →
    (∀ e ∈ ends, e ≤ place ∨ place + used.length < e) →
    Token.controlsFrom ends place (used ++ behind) =
      Event.controls (ends.countP (place < ·)) events ++
        Token.controlsFrom ends (place + used.length) behind
  forest : ∀ depth low high, Token.InLines low high used →
    ControlStructure.Forest depth low high (Event.controls depth events)

variable {used used' rest : List Token} {events events' : List Event}

/-- Tokens that are no words of control structures are found nothing of. -/
theorem Scanned.quiet (other : ∀ t ∈ used, t.kind.isControl = false)
    (quiet : Event.Quiet events) : Scanned used rest events where
  level := quiet.level
  found ends place behind _ _ := by
    rw [quiet.controls_eq, List.nil_append, Token.controlsFrom_others other]
  forest depth low high _ := by
    rw [quiet.controls_eq]
    exact .nil

theorem Scanned.append (first : Scanned used (used' ++ rest) events)
    (second : Scanned used' rest events') : Scanned (used ++ used') rest (events ++ events') where
  level := first.level.append second.level
  found ends place behind next open_ := by
    rw [List.length_append] at open_
    have same : ends.countP (place + used.length < ·) = ends.countP (place < ·) := by
      refine List.countP_congr fun e member => ?_
      simp only [decide_eq_true_eq]
      rcases open_ e member with ended | further <;> omega
    have nextFirst : (used' ++ behind).head? = (used' ++ rest).head? := by
      rw [List.head?_append, List.head?_append, next]
    rw [List.append_assoc, first.found ends place _ nextFirst fun e member => by
      rcases open_ e member with ended | further <;> omega]
    rw [second.found ends (place + used.length) behind next fun e member => by
      rcases open_ e member with ended | further <;> omega]
    rw [same, first.level, List.append_assoc, List.length_append, Nat.add_assoc]
  forest depth low high lines := by
    obtain ⟨within, ordered⟩ := lines
    obtain ⟨firstOrdered, secondOrdered, -⟩ := List.pairwise_append.1 ordered
    obtain ⟨firstWithin, secondWithin⟩ := List.forall_mem_append.1 within
    rw [first.level]
    exact (first.forest depth low high ⟨firstWithin, firstOrdered⟩).append
      (second.forest depth low high ⟨secondWithin, secondOrdered⟩)

/-- A control structure is found around what is found inside of it. -/
theorem Scanned.control {word close : Token} {mid : List Token} {head : ControlHead}
    (control : word.kind.isControl) (isClose : close.kind = .closeBrace)
    (inner : Scanned mid (close :: rest) events)
    (span : head.span = word.span ++ close.span)
    (told : ∀ behind, behind.head? = rest.head? →
      Token.controlLength word (mid ++ close :: behind) = mid.length + 2 ∧
      Token.controlKind word (mid ++ close :: behind) = head.kind ∧
      (Token.conditionTokens word (mid ++ close :: behind)).flatMap (·.spelling) =
        head.condition) :
    Scanned (word :: (mid ++ [close])) rest (.enter head :: (events ++ [.leave])) where
  level := inner.level.bracket head
  found ends place behind next open_ := by
    obtain ⟨length, kind, condition⟩ := told behind next
    simp only [List.length_cons, List.length_append, List.length_nil] at open_ ⊢
    have taken : (word :: (mid ++ close :: behind)).take (mid.length + 2) =
        word :: (mid ++ [close]) := by
      have split : word :: (mid ++ close :: behind) = (word :: (mid ++ [close])) ++ behind := by
        simp
      rw [split]
      exact List.take_left' (by simp)
    have same (depth : Nat) :
        Token.controlAt depth word (mid ++ close :: behind) = head.atDepth depth := by
      rw [Token.controlAt, ControlHead.atDepth, kind, condition, length, taken, span,
        ← List.cons_append, List.getLastD_concat]
      rfl
    have deeper : ((place + (mid.length + 2)) :: ends).countP (place + 1 < ·) =
        ends.countP (place < ·) + 1 := by
      rw [List.countP_cons_of_pos (by simp)]
      congr 1
      refine List.countP_congr fun e member => ?_
      simp only [decide_eq_true_eq]
      rcases open_ e member with ended | further <;> omega
    have inside := inner.found ((place + (mid.length + 2)) :: ends) (place + 1) (close :: behind)
        rfl fun e member => by
      rcases List.mem_cons.1 member with rfl | member
      · omega
      · rcases open_ e member with ended | further <;> omega
    have other : close.kind.isControl = false := by rw [isClose]; rfl
    have bracket := inner.level.controls_bracket head (ends.countP (place < ·)) []
    rw [List.cons_append, List.append_assoc, List.singleton_append,
      Token.controlsFrom_control control, same, length, inside, Token.controlsFrom_other other,
      Token.controlsFrom_ended (by omega), deeper, bracket]
    simp [Event.controls, Nat.add_comm, Nat.add_left_comm]
  forest depth low high lines := by
    obtain ⟨within, ordered⟩ := lines
    obtain ⟨⟨lowWord, -⟩, others⟩ := List.forall_mem_cons.1 within
    obtain ⟨-, last⟩ := List.forall_mem_append.1 others
    obtain ⟨-, closeHigh⟩ := last close List.mem_cons_self
    obtain ⟨afterWord, ordered⟩ := List.pairwise_cons.1 ordered
    obtain ⟨midOrdered, -, beforeClose⟩ := List.pairwise_append.1 ordered
    have inside : Token.InLines word.pos.line close.pos.line mid := by
      refine ⟨fun t member => ⟨?_, ?_⟩, midOrdered⟩
      · exact afterWord t (List.mem_append_left _ member)
      · exact beforeClose t member close List.mem_cons_self
    have bracket := inner.level.controls_bracket head depth []
    rw [bracket]
    refine .cons rfl ?_ ?_ ?_ .nil
    · simpa [ControlHead.atDepth, span, Token.span] using lowWord
    · simpa [ControlHead.atDepth, span, Token.span, Token.stop] using closeHigh
    · simpa [ControlHead.atDepth, span, Token.span, Token.stop] using
        inner.forest (depth + 1) _ _ inside

/-! ## Clauses of statements -/

theorem expression_clause {ts : List Token} {e : Expr} (spelt : AllSpelt ts)
    (run : expression ts = .ok (e, rest)) :
    ∃ used, ts = used ++ rest ∧ Token.Clause used ∧ e.text = used.flatMap (·.spelling) := by
  obtain ⟨used, rfl, read⟩ := expression_reads _ _ _ spelt run
  have kinds : used.map (·.kind) = e.lexemes.map (·.kind) := by
    rw [read.lexemes, List.map_map]
    rfl
  refine ⟨used, rfl, ?_, ?_⟩
  · rw [Token.Clause, kinds]
    exact read.canonical.isClause
  · rw [Expr.text, read.canonical.text_eq, read.lexemes, Lexeme.joined, List.flatMap_map]
    rfl

theorem unlessNext_clause {stop : TokenKind} {ts : List Token} {e : Option Expr}
    (spelt : AllSpelt ts) (run : unlessNext stop expression ts = .ok (e, rest)) :
    ∃ used, ts = used ++ rest ∧ Token.Clause used ∧
      (e.map Expr.text).getD [] = used.flatMap (·.spelling) := by
  rcases unlessNext_ok.1 run with ⟨rfl, rfl, -⟩ | ⟨a, rfl, runExpr, -⟩
  · exact ⟨[], rfl, .nil, rfl⟩
  · exact expression_clause spelt runExpr

theorem varDecl_clause {ts : List Token} {decl : VarDecl} (spelt : AllSpelt ts)
    (run : varDecl ts = .ok (decl, rest)) :
    ∃ used last, ts = used ++ last :: rest ∧ Token.Clause used ∧ last.kind = .semicolon := by
  obtain ⟨type, name, tail, init, last, rfl, isType, isName, initializes, isLast, rfl⟩ :=
    varDecl_ok.1 run
  simp only [allSpelt_cons] at spelt
  have named {used : List Token} (clause : Token.Clause used) :
      Token.Clause (type :: name :: used) := by
    have isIdentifier : IsClause [name.kind] := isName ▸ .identifier
    exact (IsClause.of_isType isType).append (isIdentifier.append clause)
  rcases initializes with ⟨sign, after, e, rfl, isSign, rfl, runExpr⟩ | ⟨rfl, rfl, -⟩
  · obtain ⟨used, rfl, clause, -⟩ := expression_clause (allSpelt_cons.1 spelt.2.2).2 runExpr
    refine ⟨type :: name :: sign :: used, last, by simp, named ?_, isLast⟩
    have isAssign : IsClause [sign.kind] := isSign ▸ .cons rfl (by simp) (by simp) .nil
    exact isAssign.append clause
  · exact ⟨[type, name], last, rfl, named .nil, isLast⟩

theorem exprStmt_clause {ts : List Token} {s : Stmt} (spelt : AllSpelt ts)
    (run : exprStmt ts = .ok (s, rest)) :
    ∃ used last, ts = used ++ last :: rest ∧ Token.Clause used ∧ last.kind = .semicolon := by
  obtain ⟨e, last, runExpr, isLast, rfl⟩ := exprStmt_ok.1 run
  obtain ⟨used, rfl, clause, -⟩ := expression_clause spelt runExpr
  exact ⟨used, last, rfl, clause, isLast⟩

theorem forInit_clause {ts : List Token} {init : Option Stmt} (spelt : AllSpelt ts)
    (run : forInit ts = .ok (init, rest)) :
    (∃ used last, ts = used ++ last :: rest ∧ Token.Clause used ∧ last.kind = .semicolon) ∧
      Event.Quiet (init.toList.flatMap Stmt.events) := by
  rcases forInit_ok.1 run with ⟨rfl, t, rfl, isSemicolon⟩ | ⟨decl, rfl, runDecl⟩ |
    ⟨s, rfl, runStmt, -⟩
  · exact ⟨⟨[], t, rfl, .nil, isSemicolon⟩, Event.quiet_nil⟩
  · exact ⟨varDecl_clause spelt runDecl, Event.quiet_declare decl⟩
  · refine ⟨exprStmt_clause spelt runStmt, ?_⟩
    obtain ⟨e, last, -, -, rfl⟩ := exprStmt_ok.1 runStmt
    exact Event.quiet_check e

theorem condition_clause {opening : Expectation} {ts : List Token} {e : Expr}
    (spelt : AllSpelt ts) (run : condition opening ts = .ok (e, rest)) :
    ∃ paren used closing, ts = paren :: (used ++ closing :: rest) ∧ paren.kind = .openParen ∧
      closing.kind = .closeParen ∧ Token.Clause used ∧ e.text = used.flatMap (·.spelling) := by
  obtain ⟨paren, tail, closing, rfl, isParen, runExpr, isClosing⟩ := condition_ok.1 run
  obtain ⟨used, rfl, clause, text⟩ := expression_clause (allSpelt_cons.1 spelt).2 runExpr
  exact ⟨paren, used, closing, rfl, isParen, isClosing, clause, text⟩

/-! ## Blocks -/

/-- What a reader of statements takes is found what its statement enters, and it closes its
braces. -/
def ScansStmt (stmt : Parse Stmt) : Prop := ∀ ts s rest, AllSpelt ts → stmt ts = .ok (s, rest) →
  ∃ used, ts = used ++ rest ∧ Scanned used rest s.events ∧
    Closed .openBrace .closeBrace (used.map (·.kind))

/-- What a reader of blocks takes is in braces, and between them it is found what the statements
of its block enter. -/
def ScansBlock (body : Parse (Block Stmt)) : Prop :=
  ∀ ts b rest, AllSpelt ts → body ts = .ok (b, rest) → ∃ opening used closing,
    ts = opening :: (used ++ closing :: rest) ∧ opening.kind = .openBrace ∧
    closing.kind = .closeBrace ∧ b.span = opening.span ++ closing.span ∧
    Scanned used (closing :: rest) (b.statements.flatMap Stmt.events) ∧
    Closed .openBrace .closeBrace (used.map (·.kind))

theorem ScansStmt.sequence {stmt : Parse Stmt} (scans : ScansStmt stmt) {stop : TokenKind → Bool}
    {bound : Nat} {ts : List Token} {statements : List Stmt} (spelt : AllSpelt ts)
    (run : sequence stmt stop bound ts = .ok (statements, rest)) :
    ∃ used, ts = used ++ rest ∧ Scanned used rest (statements.flatMap Stmt.events) ∧
      Closed .openBrace .closeBrace (used.map (·.kind)) := by
  have nothing {ts : List Token} : ∃ used, ts = used ++ ts ∧
      Scanned used ts ([].flatMap Stmt.events) ∧
      Closed .openBrace .closeBrace (used.map (·.kind)) :=
    ⟨[], rfl, .quiet (by simp) Event.quiet_nil, .nil⟩
  induction bound generalizing ts statements with
  | zero =>
    obtain ⟨rfl, rfl⟩ := pure_ok.1 run
    exact nothing
  | succ bound ih =>
    cases ts with
    | nil =>
      rw [sequence_stopped (by simp)] at run
      cases run
      exact nothing
    | cons t tail =>
      by_cases stops : stop t.kind
      · rw [sequence_stopped (by simpa using stops)] at run
        cases run
        exact nothing
      by_cases semicolon : t.kind = .semicolon
      · rw [sequence_semicolon stops semicolon] at run
        obtain ⟨used, rfl, scanned, closed⟩ := ih (allSpelt_cons.1 spelt).2 run
        have inert := Token.Inert.semicolon semicolon
        exact ⟨t :: used, rfl, (Scanned.quiet inert.others Event.quiet_nil).append scanned,
          inert.braces.append closed⟩
      · rw [sequence_item stops semicolon] at run
        obtain ⟨first, mid, runItem, runRest⟩ := bind_ok.1 run
        obtain ⟨others, runOthers, rfl⟩ := map_ok.1 runRest
        obtain ⟨used, same, scanned, closed⟩ := scans _ _ _ spelt runItem
        rw [same] at spelt ⊢
        obtain ⟨used', rfl, scanned', closed'⟩ := ih (allSpelt_append.1 spelt).2 runOthers
        refine ⟨used ++ used', by simp, ?_, ?_⟩
        · rw [List.flatMap_cons]
          exact scanned.append scanned'
        · rw [List.map_append]
          exact closed.append closed'

theorem ScansStmt.block {stmt : Parse Stmt} (scans : ScansStmt stmt) (bound : Nat) :
    ScansBlock (block stmt bound) := by
  intro ts b rest spelt run
  obtain ⟨opening, tail, statements, closing, rfl, isOpening, runAll, isClosing, rfl⟩ :=
    block_ok.1 run
  obtain ⟨used, rfl, scanned, closed⟩ := scans.sequence (allSpelt_cons.1 spelt).2 runAll
  exact ⟨opening, used, closing, rfl, isOpening, isClosing, rfl, scanned, closed⟩

/-! ## Control structures -/

/-- Up to the end of its block, a control structure is found what its block enters. -/
theorem scanned_front (shape : ControlShape) (quiet : Event.Quiet events)
    (inner : Scanned shape.statements (shape.close :: rest) events') :
    Scanned shape.front (shape.close :: rest) (events ++ events') := by
  have split : shape.front = (shape.paren :: (shape.inside ++ [shape.closing, shape.brace])) ++
      shape.statements := by
    simp [ControlShape.front]
  have others : ∀ t ∈ shape.paren :: (shape.inside ++ [shape.closing, shape.brace]),
      t.kind.isControl = false := by
    refine List.forall_mem_cons.2 ⟨by rw [shape.isParen]; rfl, ?_⟩
    refine List.forall_mem_append.2 ⟨shape.inert.others, ?_⟩
    simp [shape.isClosing, shape.isBrace, TokenKind.isControl]
  rw [split]
  exact (Scanned.quiet others quiet).append inner

/-- A control structure without an alternative. -/
theorem scanned_single (shape : ControlShape) {word : Token} {head : ControlHead}
    (control : word.kind.isControl) (quiet : Event.Quiet events)
    (inner : Scanned shape.statements (shape.close :: rest) events')
    (none : word.kind = .ifWord → ∀ t ∈ rest.head?, t.kind ≠ .elseWord)
    (kind : ∀ tail, Token.hasAlternative word tail = false →
      Token.controlKind word tail = head.kind)
    (span : head.span = word.span ++ shape.close.span)
    (condition : ∀ behind, (Token.conditionTokens word (shape.tokens behind)).flatMap (·.spelling) =
      head.condition) :
    Scanned (word :: shape.tokens []) rest (Stmt.enclosed (some head) (events ++ events')) := by
  refine (scanned_front shape quiet inner).control control shape.isClose span fun behind next => ?_
  have alone : Token.hasAlternative word (shape.tokens behind) = false := by
    rw [shape.hasAlternative_eq, next]
    cases first : rest.head? with
    | none => simp
    | some t => simpa using fun isIf => none isIf t first
  exact ⟨shape.controlLength_eq word behind alone, kind _ alone, condition behind⟩

/-- All braces behind the word of a control structure are closed, and the word is none. -/
theorem closed_word {word : Token} (control : word.kind.isControl)
    (closed : Closed .openBrace .closeBrace (used.map (·.kind))) :
    Closed .openBrace .closeBrace ((word :: used).map (·.kind)) := by
  have single : Closed .openBrace .closeBrace [word.kind] := by
    refine .of_none fun kind member => ?_
    obtain rfl := List.mem_singleton.1 member
    constructor <;> intro same <;> rw [same] at control <;> cases control
  exact single.append closed

section Body

variable {body : Parse (Block Stmt)} {first : Token} {ts : List Token} {s : Stmt}

/-- A condition and the block behind it. -/
theorem ScansBlock.conditioned (scans : ScansBlock body) {opening : Expectation} {mid : List Token}
    {test : Expr} {b : Block Stmt} (spelt : AllSpelt ts)
    (runTest : condition opening ts = .ok (test, mid)) (runBody : body mid = .ok (b, rest)) :
    ∃ shape : ControlShape, ts = shape.tokens rest ∧
      test.text = shape.inside.flatMap (·.spelling) ∧
      (∀ span : Span, span ++ b.span = span ++ shape.close.span) ∧
      Scanned shape.statements (shape.close :: rest) (b.statements.flatMap Stmt.events) := by
  obtain ⟨paren, inside, closing, rfl, isParen, isClosing, clause, text⟩ :=
    condition_clause spelt runTest
  simp only [allSpelt_append, allSpelt_cons] at spelt
  obtain ⟨brace, statements, close, rfl, isBrace, isClose, span, scanned, closed⟩ :=
    scans _ _ _ spelt.2.2.2 runBody
  refine ⟨⟨paren, inside, closing, brace, statements, close, isParen, clause.inert, isClosing,
    isBrace, isClose, closed⟩, ?_, text, fun front => ?_, scanned⟩
  · rw [ControlShape.clauses_append]
  · rw [span]
    rfl

theorem whileStmt_scans (scans : ScansBlock body) (isWhile : first.kind = .whileWord)
    (spelt : AllSpelt ts) (run : whileStmt body first ts = .ok (s, rest)) :
    ∃ used, ts = used ++ rest ∧ Scanned (first :: used) rest s.events ∧
      Closed .openBrace .closeBrace ((first :: used).map (·.kind)) := by
  obtain ⟨test, mid, inner, runTest, runBody, rfl⟩ := whileStmt_ok.1 run
  obtain ⟨shape, rfl, text, span, scanned⟩ := scans.conditioned spelt runTest runBody
  have control : first.kind.isControl := by rw [isWhile]; rfl
  refine ⟨shape.tokens [], shape.tokens_append [] rest, ?_, closed_word control shape.closedBraces⟩
  rw [Stmt.events, Stmt.blockEvents_eq]
  refine scanned_single shape control (Event.quiet_check test) scanned ?_ ?_ (span first.span) ?_
  · simp [isWhile]
  · simp [Token.controlKind, isWhile]
  · intro behind
    rw [shape.conditionTokens_eq _ _ (by simp [isWhile]), ← text]

/-- The block of an alternative behind a control structure without one. -/
theorem scanned_alternative (shape : ControlShape) {word other brace close : Token}
    {statements : List Token} {events'' : List Event} {head : ControlHead}
    (isIf : word.kind = .ifWord) (isElse : other.kind = .elseWord) (isBrace : brace.kind = .openBrace)
    (isClose : close.kind = .closeBrace)
    (closed : Closed .openBrace .closeBrace (statements.map (·.kind)))
    (quiet : Event.Quiet events)
    (inner : Scanned shape.statements (shape.close :: other :: brace ::
      (statements ++ close :: rest)) events')
    (alternative : Scanned statements (close :: rest) events'')
    (kind : head.kind = .branchElse) (span : head.span = word.span ++ close.span)
    (condition : shape.inside.flatMap (·.spelling) = head.condition) :
    Scanned (word :: (shape.tokens (other :: brace :: statements) ++ [close])) rest
      (Stmt.enclosed (some head) (events ++ (events' ++ events''))) := by
  have split : shape.tokens (other :: brace :: statements) =
      shape.front ++ ([shape.close, other, brace] ++ statements) := rfl
  have whole (behind : List Token) :
      shape.tokens (other :: brace :: (statements ++ close :: behind)) =
        shape.tokens (other :: brace :: statements) ++ close :: behind :=
    shape.tokens_append (other :: brace :: statements) (close :: behind)
  have between : ∀ t ∈ [shape.close, other, brace], t.kind.isControl = false := by
    simp [shape.isClose, isElse, isBrace, TokenKind.isControl]
  have inside : Scanned (shape.tokens (other :: brace :: statements)) (close :: rest)
      (events ++ (events' ++ events'')) := by
    rw [split, ← List.append_assoc events]
    have first := scanned_front shape quiet inner
    exact first.append ((Scanned.quiet between Event.quiet_nil).append alternative)
  have control : word.kind.isControl := by rw [isIf]; rfl
  refine inside.control control isClose span fun behind _ => ⟨?_, ?_, ?_⟩
  · rw [← whole, shape.controlLength_alternative word behind isIf isElse closed isClose]
  · rw [← whole, Token.controlKind, shape.hasAlternative_eq, kind]
    simp [isIf, isElse]
  · rw [← whole, shape.conditionTokens_eq _ _ (by simp [isIf]), condition]

theorem ifStmt_scans (scans : ScansBlock body) (isIf : first.kind = .ifWord)
    (spelt : AllSpelt ts) (run : ifStmt body first ts = .ok (s, rest)) :
    ∃ used, ts = used ++ rest ∧ Scanned (first :: used) rest s.events ∧
      Closed .openBrace .closeBrace ((first :: used).map (·.kind)) := by
  obtain ⟨test, mid, thenBlock, after, elseBlock, runTest, runThen, alternates, rfl⟩ :=
    ifStmt_ok.1 run
  obtain ⟨shape, rfl, text, span, scanned⟩ := scans.conditioned spelt runTest runThen
  have control : first.kind.isControl := by rw [isIf]; rfl
  rcases alternates with ⟨other, tail, b, rfl, isElse, rfl, runElse⟩ | ⟨rfl, rfl, noElse⟩
  · have elseSpelt : AllSpelt tail := by
      have all := spelt
      rw [ControlShape.tokens] at all
      exact (allSpelt_cons.1 (allSpelt_cons.1 (allSpelt_append.1 all).2).2).2
    obtain ⟨brace, statements, close, rfl, isBrace, isClose, elseSpan, scannedElse, closed⟩ :=
      scans _ _ _ elseSpelt runElse
    refine ⟨shape.tokens (other :: brace :: statements) ++ [close], ?_, ?_, ?_⟩
    · rw [← shape.tokens_append]
      simpa using shape.tokens_append (other :: brace :: (statements ++ [close])) rest
    · rw [Stmt.events, Stmt.blockEvents_eq, Stmt.elseEvents_eq, Option.toList_some,
        List.flatMap_singleton]
      refine scanned_alternative shape isIf isElse isBrace isClose closed
        (Event.quiet_check test) scanned scannedElse rfl ?_ text.symm
      rw [Option.elim_some, elseSpan]
      rfl
    · exact closed_word control (shape.closedBraces_alternative isElse isBrace closed isClose)
  · refine ⟨shape.tokens [], shape.tokens_append [] rest, ?_,
      closed_word control shape.closedBraces⟩
    rw [Stmt.events, Stmt.blockEvents_eq, Stmt.elseEvents_eq, Option.toList_none,
      List.flatMap_nil, List.append_nil]
    refine scanned_single shape control (Event.quiet_check test) scanned (fun _ => noElse) ?_
      (span first.span) ?_
    · intro tail none
      simp [Token.controlKind, isIf, none]
    · intro behind
      rw [shape.conditionTokens_eq _ _ (by simp [isIf]), ← text]

theorem forStmt_scans (scans : ScansBlock body) (isFor : first.kind = .forWord)
    (spelt : AllSpelt ts) (run : forStmt body first ts = .ok (s, rest)) :
    ∃ used, ts = used ++ rest ∧ Scanned (first :: used) rest s.events ∧
      Closed .openBrace .closeBrace ((first :: used).map (·.kind)) := by
  obtain ⟨paren, tail, init, afterInit, test, semicolon, afterTest, update, closing, afterUpdate,
    inner, rfl, isParen, runInit, runTest, isSemicolon, runUpdate, isClosing, runBody, rfl⟩ :=
    forStmt_ok.1 run
  obtain ⟨⟨initUsed, initLast, rfl, initClause, isLast⟩, initQuiet⟩ :=
    forInit_clause (allSpelt_cons.1 spelt).2 runInit
  simp only [allSpelt_append, allSpelt_cons] at spelt
  obtain ⟨testUsed, rfl, testClause, text⟩ := unlessNext_clause spelt.2.2.2 runTest
  simp only [allSpelt_append, allSpelt_cons] at spelt
  obtain ⟨updateUsed, rfl, updateClause, -⟩ := unlessNext_clause spelt.2.2.2.2.2 runUpdate
  simp only [allSpelt_append, allSpelt_cons] at spelt
  obtain ⟨brace, statements, close, rfl, isBrace, isClose, span, scanned, closed⟩ :=
    scans _ _ _ spelt.2.2.2.2.2.2.2 runBody
  have inert : Token.Inert (initUsed ++ initLast :: (testUsed ++ semicolon :: updateUsed)) :=
    initClause.inert.append ((Token.Inert.semicolon isLast).append (testClause.inert.append
      ((Token.Inert.semicolon isSemicolon).append updateClause.inert)))
  let shape : ControlShape := ⟨paren, initUsed ++ initLast :: (testUsed ++ semicolon :: updateUsed),
    closing, brace, statements, close, isParen, inert, isClosing, isBrace, isClose, closed⟩
  have control : first.kind.isControl := by rw [isFor]; rfl
  have whole : paren :: (initUsed ++ initLast :: (testUsed ++ semicolon :: (updateUsed ++ closing ::
      brace :: (statements ++ close :: rest)))) = shape.tokens [] ++ rest := by
    simp [shape, ControlShape.tokens, ControlShape.front]
  have quiet : Event.Quiet (init.toList.flatMap Stmt.events ++ test.toList.map .check ++
      update.toList.map .check) := fun depth more => by
    rw [List.append_assoc, List.append_assoc, initQuiet, Event.quiet_checks, Event.quiet_checks]
  refine ⟨shape.tokens [], whole, ?_, closed_word control shape.closedBraces⟩
  rw [Stmt.events, Stmt.blockEvents_eq, Stmt.initEvents_eq]
  refine scanned_single shape control quiet scanned ?_ ?_ ?_ ?_
  · simp [isFor]
  · simp [Token.controlKind, isFor]
  · rw [span]
    rfl
  · intro behind
    rw [shape.conditionTokens_for _ _ isFor rfl initClause.noSemicolon isLast
      testClause.noSemicolon isSemicolon, ← text]

/-- A clause with its semicolon. -/
theorem scanned_clause {used : List Token} {last : Token} (clause : Token.Clause used)
    (isLast : last.kind = .semicolon) (quiet : Event.Quiet events) :
    ∃ taken, used ++ last :: rest = taken ++ rest ∧ Scanned taken rest events ∧
      Closed .openBrace .closeBrace (taken.map (·.kind)) := by
  have inert := clause.inert.append (.semicolon isLast)
  exact ⟨used ++ [last], by simp, .quiet inert.others quiet, inert.braces⟩

theorem exprStmt_scans : ScansStmt exprStmt := by
  intro ts s rest spelt run
  obtain ⟨used, last, rfl, clause, isLast⟩ := exprStmt_clause spelt run
  obtain ⟨e, _, -, -, rfl⟩ := exprStmt_ok.1 run
  exact scanned_clause clause isLast (Event.quiet_check e)

theorem returnStmt_scans (isReturn : first.kind = .returnWord) (spelt : AllSpelt ts)
    (run : returnStmt first ts = .ok (s, rest)) :
    ∃ used, ts = used ++ rest ∧ Scanned (first :: used) rest s.events ∧
      Closed .openBrace .closeBrace ((first :: used).map (·.kind)) := by
  obtain ⟨value, last, runValue, isLast, rfl⟩ := returnStmt_ok.1 run
  obtain ⟨used, rfl, clause, -⟩ := unlessNext_clause spelt runValue
  have inert := clause.inert.append (.semicolon isLast)
  refine ⟨used ++ [last], by simp, .quiet ?_ (Event.quiet_checks value), ?_⟩
  · exact List.forall_mem_cons.2 ⟨by rw [isReturn]; rfl, inert.others⟩
  · have word : Closed .openBrace .closeBrace [first.kind] := .of_none (by simp [isReturn])
    exact word.append inert.braces

/-- A block that is a statement. -/
theorem ScansBlock.stmt (scans : ScansBlock body) : ScansStmt (.block <$> body) := by
  intro ts s rest spelt run
  obtain ⟨b, runBody, rfl⟩ := map_ok.1 run
  obtain ⟨opening, used, closing, same, isOpening, isClosing, -, scanned, closed⟩ :=
    scans _ _ _ spelt runBody
  have open_ : ∀ t ∈ [opening], t.kind.isControl = false := by
    simp [isOpening, TokenKind.isControl]
  have close : ∀ t ∈ [closing], t.kind.isControl = false := by
    simp [isClosing, TokenKind.isControl]
  refine ⟨opening :: (used ++ [closing]), by simp [same], ?_, ?_⟩
  · rw [Stmt.events, Stmt.blockEvents_eq]
    have inner := scanned.append (Scanned.quiet close Event.quiet_nil)
    rw [List.append_nil] at inner
    exact (Scanned.quiet open_ Event.quiet_nil).append inner
  · have block := closed.bracket (by simp)
    simpa [isOpening, isClosing] using block

theorem stmtWith_scans (scans : ScansBlock body) : ScansStmt (stmtWith body) := by
  intro ts s rest spelt run
  cases ts with
  | nil => exact exprStmt_scans _ _ _ spelt run
  | cons t tail =>
    have behind (found : ∃ used, tail = used ++ rest ∧ Scanned (t :: used) rest s.events ∧
        Closed .openBrace .closeBrace ((t :: used).map (·.kind))) :
        ∃ used, t :: tail = used ++ rest ∧ Scanned used rest s.events ∧
          Closed .openBrace .closeBrace (used.map (·.kind)) := by
      obtain ⟨used, rfl, found⟩ := found
      exact ⟨t :: used, rfl, found⟩
    obtain ⟨-, tailSpelt⟩ := allSpelt_cons.1 spelt
    simp only [stmtWith] at run
    split at run
    case h_1 =>
      obtain ⟨decl, runDecl, rfl⟩ := map_ok.1 run
      obtain ⟨used, last, same, clause, isLast⟩ := varDecl_clause spelt runDecl
      rw [same]
      exact scanned_clause clause isLast (Event.quiet_declare decl)
    case h_2 kind => exact behind (ifStmt_scans scans kind tailSpelt run)
    case h_3 kind => exact behind (whileStmt_scans scans kind tailSpelt run)
    case h_4 kind => exact behind (forStmt_scans scans kind tailSpelt run)
    case h_5 kind => exact behind (returnStmt_scans kind tailSpelt run)
    case h_6 => exact scans.stmt _ _ _ spelt run
    case h_7 => exact exprStmt_scans _ _ _ spelt run

end Body

theorem stmtWithin_scans (bound : Nat) : ScansStmt (stmtWithin bound) := by
  induction bound with
  | zero => exact exprStmt_scans
  | succ bound ih => exact stmtWith_scans (ih.block bound)

/-- Between the braces of a body the control structures are those that its statements enter. -/
theorem body_scans : ScansBlock body := fun ts _ _ spelt run =>
  (stmtWithin_scans ts.length).block ts.length _ _ _ spelt run

end Grammar

/-! ## Functions -/

/-- A function is spelt by a type word, a name, parameters in parentheses and a body in braces. -/
structure FunctionDecl.SpeltAs (decl : FunctionDecl) (type name : Token)
    (params body back : List Token) : Prop where
  isType : type.kind.isType
  start : decl.span.start = type.pos
  returnType : decl.returnType = type.spelling
  name : decl.name = name.spelling
  opensParams : params.head?.any (·.kind = .openParen)
  params : Token.bracketLength .openParen .closeParen (params ++ (body ++ back)) = params.length
  opensBody : body.head?.any (·.kind = .openBrace)
  body : Token.bracketLength .openBrace .closeBrace (body ++ back) = body.length

/-- Somewhere among some tokens a function is spelt, and `body` is its body. -/
def FunctionDecl.HasBody (decl : FunctionDecl) (tokens body : List Token) : Prop :=
  ∃ front type name params back, tokens = front ++ type :: name :: (params ++ (body ++ back)) ∧
    decl.SpeltAs type name params body back

/-- The control structures among the tokens of a body are those that the scan of it enters, and
they are a forest. -/
structure FunctionDecl.BodyScanned (decl : FunctionDecl) (body : List Token) : Prop where
  found : Token.controls body = Event.controls 0 (Stmt.block decl.body).events
  forest : ∀ low high, Token.InLines low high body →
    ControlStructure.Forest 0 low high (Token.controls body)

namespace Grammar

variable {ts rest : List Token}

theorem params_clause {params? : Option (List Param)} (spelt : AllSpelt ts)
    (run : unlessNext .closeParen params ts = .ok (params?, rest)) :
    ∃ used, ts = used ++ rest ∧ Token.Clause used := by
  have single : Reads param fun _ used => Token.Clause used := by
    intro ts p rest _ run
    obtain ⟨type, name, rfl, isType, isName, rfl⟩ := param_ok.1 run
    have isIdentifier : IsClause [name.kind] := isName ▸ .identifier
    exact ⟨[type, name], rfl, (IsClause.of_isType isType).append isIdentifier⟩
  rcases unlessNext_ok.1 run with ⟨rfl, rfl, -⟩ | ⟨list, rfl, runParams, -⟩
  · exact ⟨[], rfl, .nil⟩
  · obtain ⟨⟨first, more⟩, runList, rfl⟩ := map_ok.1 runParams
    obtain ⟨used, rfl, firstUsed, tail, rfl, clause, commas⟩ :=
      commaList_reads single _ _ _ _ spelt runList
    refine ⟨firstUsed ++ tail, rfl, ?_⟩
    rw [Token.Clause, List.map_append]
    refine clause.append ?_
    clear run runParams runList spelt
    induction more generalizing tail with
    | nil =>
      cases commas
      exact .nil
    | cons next more ih =>
      obtain ⟨used, tail, rfl, comma, clause, further⟩ := commas
      have kind : next.1.kind = .comma := congrArg Lexeme.kind comma
      rw [List.map_cons, List.map_append, kind]
      exact .cons rfl (by simp) (by simp) (clause.append (ih _ further))

/-- The reader of functions takes the parameters and the body behind the name, and reads the body
from its tokens. -/
theorem functionDecl_body {type name : Token} {decl : FunctionDecl} (isType : type.kind.isType)
    (spelt : AllSpelt ts) (run : functionDecl type name ts = .ok (decl, rest)) :
    ∃ params used, ts = params ++ (used ++ rest) ∧
      (∀ back, decl.SpeltAs type name params used back) ∧
      body (used ++ rest) = .ok (decl.body, rest) := by
  obtain ⟨paren, tail, params?, closing, after, inner, rfl, isParen, runParams, isClosing, runBody,
    same⟩ := functionDecl_ok.1 run
  obtain ⟨used, rfl, clause⟩ := params_clause (allSpelt_cons.1 spelt).2 runParams
  simp only [allSpelt_append, allSpelt_cons] at spelt
  obtain ⟨opening, statements, last, rfl, isOpening, isLast, -, -, closed⟩ :=
    body_scans _ _ _ spelt.2.2.2 runBody
  refine ⟨paren :: (used ++ [closing]), opening :: (statements ++ [last]), by simp,
    fun back => ⟨isType, ?_, ?_, ?_, by simp [isParen], ?_, by simp [isOpening], ?_⟩, ?_⟩
  · rw [same]
    rfl
  · rw [same]
  · rw [same]
    by_cases reserved : name.kind = .mainWord <;> simp [FunctionDecl.name, reserved]
  · have length : Token.bracketLength .openParen .closeParen (paren :: (used ++ closing ::
        opening :: (statements ++ last :: back))) = used.length + 2 :=
      Token.bracketLength_eq clause.closed (by simp) isClosing
    simpa using length
  · have length : Token.bracketLength .openBrace .closeBrace
        (opening :: (statements ++ last :: back)) = statements.length + 2 :=
      Token.bracketLength_eq closed (by simp) isLast
    simpa using length
  · rw [same]
    simpa using runBody

/-- A body that is read is scanned for its control structures. -/
theorem body_scanned {decl : FunctionDecl} {used : List Token} (spelt : AllSpelt (used ++ rest))
    (run : body (used ++ rest) = .ok (decl.body, rest)) : decl.BodyScanned used := by
  obtain ⟨opening, statements, last, split, isOpening, isLast, -, scanned, -⟩ :=
    body_scans _ _ _ spelt run
  have whole : used ++ rest = (opening :: (statements ++ [last])) ++ rest := by
    rw [split]
    simp
  obtain rfl := List.append_cancel_right whole
  have events : (Stmt.block decl.body).events = decl.body.statements.flatMap Stmt.events := by
    rw [Stmt.events, Stmt.blockEvents_eq]
  have other : ∀ t ∈ [opening], t.kind.isControl = false := by
    simp [isOpening, TokenKind.isControl]
  have close : last.kind.isControl = false := by rw [isLast]; rfl
  have found : Token.controls (opening :: (statements ++ [last])) =
      Event.controls 0 (Stmt.block decl.body).events := by
    rw [events, Token.controls, Token.controlsFrom_other (other opening List.mem_cons_self),
      scanned.found [] 1 [last] rfl (by simp), Token.controlsFrom_other close]
    simp [Token.controlsFrom]
  refine ⟨found, fun low high lines => ?_⟩
  rw [found, events]
  obtain ⟨within, ordered⟩ := lines
  refine scanned.forest 0 low high ⟨fun t member => within t ?_, ?_⟩
  · exact List.mem_cons_of_mem _ (List.mem_append_left _ member)
  · exact (List.pairwise_append.1 (List.pairwise_cons.1 ordered).2).1

/-- Each item of a sequence is read from some place on. -/
theorem sequence_mem {α : Type} {item : Parse α} {R : α → List Token → Prop} (reads : Reads item R)
    {stop : TokenKind → Bool} {bound : Nat} {items : List α} (spelt : AllSpelt ts)
    (run : sequence item stop bound ts = .ok (items, rest)) {a : α} (member : a ∈ items) :
    ∃ front mid after, ts = front ++ mid ∧ item mid = .ok (a, after) := by
  induction bound generalizing ts items with
  | zero =>
    obtain ⟨rfl, rfl⟩ := pure_ok.1 run
    cases member
  | succ bound ih =>
    have stopped (stops : ∀ t ∈ ts.head?, stop t.kind) : False := by
      rw [sequence_stopped stops] at run
      cases run
      cases member
    cases ts with
    | nil => exact (stopped (by simp)).elim
    | cons t tail =>
      by_cases stops : stop t.kind
      · exact (stopped (by simpa using stops)).elim
      by_cases semicolon : t.kind = .semicolon
      · rw [sequence_semicolon stops semicolon] at run
        obtain ⟨front, mid, after, rfl, runItem⟩ := ih (allSpelt_cons.1 spelt).2 run member
        exact ⟨t :: front, mid, after, rfl, runItem⟩
      · rw [sequence_item stops semicolon] at run
        obtain ⟨first, mid, runItem, runRest⟩ := bind_ok.1 run
        obtain ⟨others, runOthers, rfl⟩ := map_ok.1 runRest
        rcases List.mem_cons.1 member with rfl | later
        · exact ⟨[], _, mid, rfl, runItem⟩
        · obtain ⟨used, same, -⟩ := reads _ _ _ spelt runItem
          rw [same] at spelt ⊢
          obtain ⟨front, mid, after, rfl, found⟩ := ih (allSpelt_append.1 spelt).2 runOthers later
          exact ⟨used ++ front, mid, after, by simp, found⟩

theorem topLevel_function {decl : FunctionDecl} (run : topLevel ts = .ok (.function decl, rest)) :
    ∃ type name tail, ts = type :: name :: tail ∧ type.kind.isType ∧
      functionDecl type name tail = .ok (decl, rest) := by
  rcases topLevel_cases run with ⟨type, name, tail, decl', same, isType, -, runDecl, node⟩ |
    ⟨global, -, node⟩ | ⟨s, -, node, -⟩
  · cases node
    exact ⟨type, name, tail, same, isType, runDecl⟩
  · cases node
  · cases node

end Grammar

/-- Every function of a program that is read from tokens has its body among them, and the body is
read from there. -/
theorem Program.function_read {tokens : List Token} (spelt : Grammar.AllSpelt tokens)
    {p : Program} (read : Program.ofTokens tokens = .ok p) {decl : FunctionDecl}
    (member : .function decl ∈ p.declarations) :
    ∃ body after, decl.HasBody tokens body ∧ Grammar.AllSpelt (body ++ after) ∧
      Grammar.body (body ++ after) = .ok (decl.body, after) := by
  obtain ⟨bodySpelt, rest, run⟩ := ofTokens_declarations spelt read
  obtain ⟨front, mid, after, split, runNode⟩ :=
    Grammar.sequence_mem Grammar.topLevel_reads bodySpelt run member
  obtain ⟨type, name, tail, rfl, isType, runDecl⟩ := Grammar.topLevel_function runNode
  rw [split] at bodySpelt
  simp only [Grammar.allSpelt_append, Grammar.allSpelt_cons] at bodySpelt
  obtain ⟨params, body, rfl, spelling, runBody⟩ :=
    Grammar.functionDecl_body isType bodySpelt.2.2.2 runDecl
  have tailSpelt := (Grammar.allSpelt_append.1 bodySpelt.2.2.2).2
  refine ⟨body, after, ⟨front, type, name, params, after ++ tokens.dropWhile (!·.isEnd), ?_,
    spelling _⟩, tailSpelt, runBody⟩
  calc
    tokens = tokens.takeWhile (!·.isEnd) ++ tokens.dropWhile (!·.isEnd) :=
      List.takeWhile_append_dropWhile.symm
    _ = front ++ type :: name :: (params ++ (body ++ (after ++ tokens.dropWhile (!·.isEnd)))) := by
      rw [split]
      simp

/-- Every function of a program that is read from tokens has its control structures in its body. -/
theorem Program.function_body {tokens : List Token} (spelt : Grammar.AllSpelt tokens)
    {p : Program} (read : Program.ofTokens tokens = .ok p) {decl : FunctionDecl}
    (member : .function decl ∈ p.declarations) :
    ∃ body, decl.HasBody tokens body ∧ decl.BodyScanned body := by
  obtain ⟨body, after, has, bodySpelt, run⟩ := function_read spelt read member
  exact ⟨body, has, Grammar.body_scanned bodySpelt run⟩

end ProcCheck
