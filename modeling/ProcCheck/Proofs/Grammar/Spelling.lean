import ProcCheck.Proofs.Grammar.Canonical

/-!
# Tokens spelt out of slots

Equations that take `Slot.Spell` apart along the slots, and the lexemes that canonical pieces
start with. A reader chooses by the first token, so what a piece can start with decides what is
read.
-/

namespace ProcCheck

namespace Slot

variable {slots : List Slot} {ts : List Token}

@[simp] theorem ofLexemes_nil : ofLexemes [] = [] := rfl

@[simp] theorem ofLexemes_cons (l : Lexeme) (ls : List Lexeme) :
    ofLexemes (l :: ls) = .lexeme l :: ofLexemes ls := rfl

@[simp] theorem ofLexemes_append (ls ls' : List Lexeme) :
    ofLexemes (ls ++ ls') = ofLexemes ls ++ ofLexemes ls' :=
  List.map_append

@[simp] theorem spell_nil : Spell [] ts ↔ ts = [] := by
  constructor
  · intro spell
    cases spell
    rfl
  · rintro rfl
    exact .done

theorem spell_lexeme {l : Lexeme} : Spell (.lexeme l :: slots) ts ↔
    ∃ t rest, ts = t :: rest ∧ t.lexeme = l ∧ Spell slots rest := by
  constructor
  · intro spell
    cases spell with
    | token rest => exact ⟨_, _, rfl, rfl, rest⟩
  · rintro ⟨t, rest, rfl, rfl, spell⟩
    exact .token spell

theorem Spell.cons {t : Token} {l : Lexeme} (same : t.lexeme = l) (rest : Spell slots ts) :
    Spell (.lexeme l :: slots) (t :: ts) :=
  same ▸ .token rest

theorem Spell.append {others : List Slot} {us : List Token} (first : Spell slots ts)
    (second : Spell others us) : Spell (slots ++ others) (ts ++ us) := by
  induction first with
  | done => exact second
  | token _ ih => exact .token ih
  | pass _ ih => exact .pass ih
  | empty semicolon _ ih => exact .empty semicolon ih

theorem spell_append {others : List Slot} : Spell (slots ++ others) ts ↔
    ∃ us vs, ts = us ++ vs ∧ Spell slots us ∧ Spell others vs := by
  constructor
  · intro spell
    generalize whole : slots ++ others = all at spell
    induction spell generalizing slots with
    | done =>
      obtain ⟨rfl, rfl⟩ := List.append_eq_nil_iff.1 whole
      exact ⟨[], [], rfl, .done, .done⟩
    | @token t more ts rest ih =>
      cases slots with
      | nil => exact ⟨[], _, rfl, .done, by subst whole; exact .token rest⟩
      | cons slot slots =>
        obtain ⟨rfl, tail⟩ := List.cons.inj whole
        obtain ⟨us, vs, rfl, first, second⟩ := ih tail
        exact ⟨t :: us, vs, rfl, .token first, second⟩
    | @pass more ts rest ih =>
      cases slots with
      | nil => exact ⟨[], _, rfl, .done, by subst whole; exact .pass rest⟩
      | cons slot slots =>
        obtain ⟨rfl, tail⟩ := List.cons.inj whole
        obtain ⟨us, vs, rfl, first, second⟩ := ih tail
        exact ⟨us, vs, rfl, .pass first, second⟩
    | @empty t more ts semicolon rest ih =>
      cases slots with
      | nil => exact ⟨[], _, rfl, .done, by subst whole; exact .empty semicolon rest⟩
      | cons slot slots =>
        obtain ⟨rfl, tail⟩ := List.cons.inj whole
        obtain ⟨us, vs, rfl, first, second⟩ := ih whole
        exact ⟨t :: us, vs, rfl, .empty semicolon first, second⟩
  · rintro ⟨us, vs, rfl, first, second⟩
    exact first.append second

@[simp] theorem spell_ofLexemes {lexemes : List Lexeme} :
    Spell (ofLexemes lexemes) ts ↔ ts.map Token.lexeme = lexemes := by
  induction lexemes generalizing ts with
  | nil => simp [ofLexemes]
  | cons l lexemes ih =>
    simp only [ofLexemes] at ih
    simp only [ofLexemes, List.map_cons, spell_lexeme, ih]
    constructor
    · rintro ⟨t, rest, rfl, rfl, rfl⟩
      rfl
    · intro same
      obtain ⟨t, rest, rfl, first, others⟩ := List.map_eq_cons_iff.1 same
      exact ⟨t, rest, rfl, first, others⟩

@[simp] theorem between_nil : between [] = [.boundary] := rfl

@[simp] theorem between_cons (piece : List Slot) (pieces : List (List Slot)) :
    between (piece :: pieces) = .boundary :: (piece ++ between pieces) := by
  simp [between]

/-- The lexemes of slots spell them: boundaries may stay empty. -/
theorem spell_of_lexemes (same : ts.map Token.lexeme = slots.filterMap lexeme?) :
    Spell slots ts := by
  induction slots generalizing ts with
  | nil => exact spell_nil.2 (List.map_eq_nil_iff.1 same)
  | cons slot slots ih =>
    cases slot with
    | boundary => exact .pass (ih same)
    | lexeme l =>
      obtain ⟨t, rest, rfl, head, others⟩ := List.map_eq_cons_iff.1 same
      exact .cons head (ih others)

end Slot

namespace Stmt

@[simp] theorem allSlots_eq (statements : List Stmt) :
    slots.allSlots statements = Slot.between (statements.map slots) := by
  induction statements with
  | nil => rfl
  | cons s rest ih => simp [slots.allSlots, ih]

@[simp] theorem blockSlots_eq (body : Block Stmt) : slots.blockSlots body =
    .fixed .openBrace :: (Slot.between (body.statements.map slots) ++ [.fixed .closeBrace]) := by
  cases body
  simp [slots.blockSlots]

end Stmt

/-! ## Trees that tokens spell -/

/-- A canonical expression that tokens spell and that holds together tightly enough. -/
structure Expr.SpeltBy (least : Nat) (e : Expr) (used : List Token) : Prop where
  canonical : e.Canonical
  rank : least ≤ e.rank
  lexemes : e.lexemes = used.map Token.lexeme

theorem Expr.SpeltBy.spell {least : Nat} {e : Expr} {used : List Token}
    (spelt : e.SpeltBy least used) : Slot.Spell e.slots used :=
  Slot.spell_ofLexemes.2 spelt.lexemes.symm

theorem Expr.SpeltBy.of_spell {e : Expr} {used : List Token} (canonical : e.Canonical)
    (spell : Slot.Spell e.slots used) : e.SpeltBy 0 used :=
  ⟨canonical, Nat.zero_le _, (Slot.spell_ofLexemes.1 spell).symm⟩

/-- A canonical declaration that tokens spell. -/
def VarDecl.SpeltBy (decl : VarDecl) (used : List Token) : Prop :=
  decl.Canonical ∧ Slot.Spell decl.slots used

/-- A canonical statement that tokens spell. -/
def Stmt.SpeltBy (s : Stmt) (used : List Token) : Prop := s.Canonical ∧ Slot.Spell s.slots used

/-- A block of canonical statements that tokens spell. -/
def Block.SpeltBy (b : Block Stmt) (used : List Token) : Prop :=
  (∀ s ∈ b.statements, s.Canonical) ∧ Slot.Spell (Stmt.slots.blockSlots b) used

/-- A canonical parameter that tokens spell. -/
def Param.SpeltBy (param : Param) (used : List Token) : Prop :=
  param.Canonical ∧ Slot.Spell param.slots used

/-- A canonical function that tokens spell. -/
def FunctionDecl.SpeltBy (decl : FunctionDecl) (used : List Token) : Prop :=
  decl.Canonical ∧ Slot.Spell decl.slots used

/-- A canonical top-level node that tokens spell. -/
def TopLevel.SpeltBy (node : TopLevel) (used : List Token) : Prop :=
  node.Canonical ∧ Slot.Spell node.slots used

/-! ## First lexemes -/

namespace TokenKind

/-- Whether an expression can start with a kind of token. -/
def startsExpr : TokenKind → Bool
  | identifier | mainWord | intLiteral | floatLiteral | stringLiteral | openParen | bang
  | operator .sub => true
  | _ => false

/-- Whether a statement can start with a kind of token. -/
def startsStmt : TokenKind → Bool
  | ifWord | whileWord | forWord | returnWord | openBrace => true
  | kind => kind.startsExpr || kind.isType

theorem startsStmt_of_isType {kind : TokenKind} (type : kind.isType) : kind.startsStmt := by
  cases kind <;> simp_all [startsStmt, startsExpr, isType]

/-- No type word starts an expression. -/
theorem startsStmt_of_startsExpr {kind : TokenKind} (start : kind.startsExpr) :
    kind.startsStmt ∧ kind.isType = false := by
  cases kind <;> simp_all [startsStmt, startsExpr, isType]

/-- A name by which a function can be called is an identifier or the reserved word. -/
theorem ofWord_isCallable {name : Text} (callee : spellsCallee name) :
    (ofWord name).isCallable := by
  simp only [spellsCallee, Bool.or_eq_true] at callee
  rcases callee with own | reserved
  · rw [ofWord_eq_identifier own]
    rfl
  · obtain rfl := (spells_fixed rfl).1 reserved
    decide

/-- Whether an expression can be followed by a kind of token. -/
def endsExpr : TokenKind → Bool
  | semicolon | closeParen | comma => true
  | _ => false

/-- Whether an operand can be followed by a kind of token. -/
def endsOperand : TokenKind → Bool
  | operator _ => true
  | kind => kind.endsExpr

end TokenKind

/-- A canonical expression has a first lexeme, and one that an expression can start with. -/
theorem Expr.Canonical.starts {e : Expr} (canonical : e.Canonical) :
    ∃ l more, e.lexemes = l :: more ∧ l.kind.startsExpr := by
  induction canonical with
  | intLiteral => exact ⟨_, _, rfl, rfl⟩
  | floatLiteral => exact ⟨_, _, rfl, rfl⟩
  | stringLiteral => exact ⟨_, _, rfl, rfl⟩
  | identifier spelt =>
    refine ⟨_, _, rfl, ?_⟩
    rw [Lexeme.word, TokenKind.ofWord_eq_identifier spelt]
    rfl
  | call name =>
    refine ⟨_, _, rfl, ?_⟩
    have callable := TokenKind.ofWord_isCallable name
    rw [Lexeme.word]
    revert callable
    cases TokenKind.ofWord _ <;> simp [TokenKind.isCallable, TokenKind.startsExpr]
  | assign name =>
    refine ⟨_, _, rfl, ?_⟩
    rw [Lexeme.word, TokenKind.ofWord_eq_identifier name]
    rfl
  | binary _ _ _ _ _ ih =>
    obtain ⟨l, more, same, start⟩ := ih
    exact ⟨l, _, by rw [Expr.lexemes, same, List.cons_append], start⟩
  | @prefixed _ op =>
    refine ⟨_, _, rfl, ?_⟩
    cases op <;> rfl
  | group => exact ⟨_, _, rfl, rfl⟩

/-- A canonical statement has a first lexeme, and one that a statement can start with; only a
declaration starts with a type word. -/
theorem Stmt.Canonical.starts {s : Stmt} (canonical : s.Canonical) :
    ∃ l more, s.slots = .lexeme l :: more ∧ l.kind.startsStmt ∧ l.kind.isType = s.isVar := by
  cases canonical with
  | @var decl inner =>
    have type : (Lexeme.word decl.type).kind.isType := inner.type
    exact ⟨_, _, rfl, TokenKind.startsStmt_of_isType type, type⟩
  | block => exact ⟨.fixed .openBrace, _, by rw [slots, blockSlots_eq]; rfl, rfl, rfl⟩
  | branch => exact ⟨_, _, rfl, rfl, rfl⟩
  | whileLoop => exact ⟨_, _, rfl, rfl, rfl⟩
  | forLoop => exact ⟨_, _, rfl, rfl, rfl⟩
  | expr inner =>
    obtain ⟨l, more, same, start⟩ := inner.starts
    exact ⟨l, _, by rw [slots, Expr.slots, same]; rfl, TokenKind.startsStmt_of_startsExpr start⟩
  | ret => exact ⟨_, _, rfl, rfl, rfl⟩

/-- A canonical top-level node starts like a statement. -/
theorem TopLevel.Canonical.starts {node : TopLevel} (canonical : node.Canonical) :
    ∃ l more, node.slots = .lexeme l :: more ∧ l.kind.startsStmt := by
  cases canonical with
  | global inner => exact ⟨_, _, rfl, TokenKind.startsStmt_of_isType inner.type⟩
  | function inner => exact ⟨_, _, rfl, TokenKind.startsStmt_of_isType inner.returnType⟩
  | statement _ inner =>
    obtain ⟨l, more, same, start, -⟩ := inner.starts
    exact ⟨l, more, same, start⟩

/-- The first token of an expression can start one. -/
theorem Expr.SpeltBy.starts {least : Nat} {e : Expr} {used : List Token}
    (spelt : e.SpeltBy least used) : ∃ t tail, used = t :: tail ∧ t.kind.startsExpr := by
  obtain ⟨l, more, same, start⟩ := spelt.canonical.starts
  obtain ⟨t, tail, rfl, head, -⟩ := List.map_eq_cons_iff.1 (spelt.lexemes.symm.trans same)
  have kind : t.kind = l.kind := congrArg Lexeme.kind head
  exact ⟨t, tail, rfl, kind ▸ start⟩

/-- The first token of a statement can start one, and tells whether it is a declaration. -/
theorem Stmt.SpeltBy.starts {s : Stmt} {used : List Token} (spelt : s.SpeltBy used) :
    ∃ t tail, used = t :: tail ∧ t.kind.startsStmt ∧ t.kind.isType = s.isVar := by
  obtain ⟨l, more, same, start⟩ := spelt.1.starts
  obtain ⟨t, tail, rfl, head, -⟩ := Slot.spell_lexeme.1 (same ▸ spelt.2)
  have kind : t.kind = l.kind := congrArg Lexeme.kind head
  exact ⟨t, tail, rfl, kind ▸ start⟩

/-! ## No end inside -/

/-- No word ends the input. -/
@[simp] theorem TokenKind.word_kind_ne_end (text : Text) :
    (Lexeme.word text).kind ≠ .endOfInput := by
  have entries : ∀ entry ∈ keywords, entry.2 ≠ .endOfInput := by decide
  rw [Lexeme.word, ofWord]
  cases found : keywords.lookup text with
  | none => simp
  | some kind =>
    obtain ⟨before, after, same, -⟩ := List.lookup_eq_some_iff.1 found
    exact entries (text, kind) (by simp [same])

namespace Slot

variable {slots others : List Slot}

/-- No slot ends the input. -/
def Endless (slots : List Slot) : Prop := ∀ l, .lexeme l ∈ slots → l.kind ≠ .endOfInput

@[simp] theorem endless_nil : Endless [] := fun _ h => absurd h List.not_mem_nil

@[simp] theorem endless_boundary : Endless (.boundary :: slots) ↔ Endless slots := by
  simp [Endless]

@[simp] theorem endless_lexeme {l : Lexeme} :
    Endless (.lexeme l :: slots) ↔ l.kind ≠ .endOfInput ∧ Endless slots := by
  simp [Endless]

@[simp] theorem endless_fixed {kind : TokenKind} :
    Endless (.fixed kind :: slots) ↔ kind ≠ .endOfInput ∧ Endless slots := endless_lexeme

@[simp] theorem endless_word {text : Text} : Endless (.word text :: slots) ↔ Endless slots := by
  simp [word]

@[simp] theorem endless_append : Endless (slots ++ others) ↔ Endless slots ∧ Endless others := by
  simp only [Endless, List.mem_append, or_imp, forall_and]

theorem Endless.between {pieces : List (List Slot)} (each : ∀ piece ∈ pieces, Endless piece) :
    Endless (Slot.between pieces) := by
  induction pieces with
  | nil => simp
  | cons piece pieces ih =>
    obtain ⟨head, others⟩ := List.forall_mem_cons.1 each
    simp [head, ih others]

/-- No token ends the input if no slot does. -/
theorem Spell.endless {ts : List Token} (spell : Spell slots ts) (endless : Endless slots) :
    ∀ t ∈ ts, t.kind ≠ .endOfInput := by
  induction spell with
  | done => simp
  | token _ ih =>
    obtain ⟨head, others⟩ := endless_lexeme.1 endless
    exact List.forall_mem_cons.2 ⟨head, ih others⟩
  | pass _ ih => exact ih (endless_boundary.1 endless)
  | empty semicolon _ ih =>
    have kind := congrArg Lexeme.kind semicolon
    refine List.forall_mem_cons.2 ⟨fun isEnd => ?_, ih endless⟩
    cases isEnd.symm.trans kind

end Slot

open Slot

theorem Expr.lexemes_endless (e : Expr) : Endless (ofLexemes e.lexemes) := by
  induction e using Expr.treeInduction with
  | call src callee args each =>
    have more (args : List Expr) (each : ∀ a ∈ args, Endless (ofLexemes a.lexemes)) :
        Endless (ofLexemes (lexemes.moreLexemes args)) := by
      induction args with
      | nil => exact endless_nil
      | cons a rest ih =>
        obtain ⟨head, others⟩ := List.forall_mem_cons.1 each
        simp [lexemes.moreLexemes, head, ih others]
    cases args with
    | nil => simp [lexemes, lexemes.argLexemes]
    | cons first rest =>
      obtain ⟨head, others⟩ := List.forall_mem_cons.1 each
      simp [lexemes, lexemes.argLexemes, head, more rest others]
  | assign src target value ih => simp [lexemes, ih]
  | binary src op left right ihLeft ihRight => simp [lexemes, ihLeft, ihRight]
  | prefixed src op operand ih => cases op <;> simp [lexemes, PrefixOp.kind, ih]
  | group src inner ih => simp [lexemes, ih]
  | _ => simp [lexemes]

theorem Expr.slots_endless (e : Expr) : Endless e.slots := e.lexemes_endless

theorem Expr.optionSlots_endless (e : Option Expr) : Endless (Expr.optionSlots e) := by
  cases e with
  | none => exact endless_nil
  | some e => exact e.slots_endless

theorem VarDecl.slots_endless (decl : VarDecl) : Endless decl.slots := by
  have init : Endless (Expr.initSlots decl.init) := by
    cases decl.init with
    | none => exact endless_nil
    | some e => simp [Expr.initSlots, e.slots_endless]
  simp [slots, init]

theorem Stmt.slots_endless (s : Stmt) : Endless s.slots := by
  have block {b : Block Stmt} (each : ∀ s ∈ b.statements, Endless s.slots) :
      Endless (slots.blockSlots b) := by
    have inside : Endless (between (b.statements.map slots)) :=
      Endless.between (by simpa using each)
    simp [inside]
  induction s using Stmt.treeInduction with
  | var decl => exact decl.slots_endless
  | block body each => exact block each
  | branch condition thenBlock elseBlock span thenEach elseEach =>
    have alternative : Endless (slots.elseSlots elseBlock) := by
      cases elseBlock with
      | none => exact endless_nil
      | some b =>
        have inside := block (elseEach b rfl)
        exact endless_fixed.2 ⟨by simp, inside⟩
    have inside := block thenEach
    simp only [slots, endless_fixed, endless_append]
    simp [condition.slots_endless, alternative, inside, -blockSlots_eq]
  | whileLoop condition body span each =>
    have inside := block each
    simp [slots, condition.slots_endless, inside, -blockSlots_eq]
  | forLoop init condition update body span first each =>
    have clause : Endless (slots.initSlots init) := by
      cases init with
      | none => simp [slots.initSlots]
      | some s => exact first s rfl
    have inside := block each
    simp [slots, clause, Expr.optionSlots_endless, inside, -blockSlots_eq]
  | expr e span => simp [slots, e.slots_endless]
  | ret value span => simp [slots, Expr.optionSlots_endless]
  | foreign => exact endless_nil

/-- No slot of a program ends the input. -/
theorem Program.slots_endless (p : Program) : Endless p.slots := by
  refine Endless.between fun piece member => ?_
  obtain ⟨node, -, rfl⟩ := List.mem_map.1 member
  cases node with
  | global decl => exact decl.slots_endless
  | statement s => exact s.slots_endless
  | function decl =>
    have each (param : Param) : Endless param.slots := by simp [Param.slots]
    have params : Endless (Param.listSlots decl.params) := by
      cases decl.params with
      | nil => exact endless_nil
      | cons first more =>
        have tail : Endless (more.flatMap fun param => .fixed .comma :: param.slots) := by
          induction more with
          | nil => exact endless_nil
          | cons param more ih => simp [each, ih]
        simp [Param.listSlots, each, tail]
    have body := (Stmt.block decl.body).slots_endless
    simp only [TopLevel.slots, FunctionDecl.slots, endless_word, endless_fixed, endless_append]
    simp [params, body]

end ProcCheck
