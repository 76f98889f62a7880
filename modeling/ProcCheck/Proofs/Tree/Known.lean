import ProcCheck.Analysis.Declare
import ProcCheck.Proofs.Tree.Induction

/-!
# Trees of known kinds

A tree is known if no node in it is of unknown kind and every type that it spells is one of the
types. The parser builds known trees only. The condition speaks about the whole tree: also about
parts that a scan does not look at, such as the body of a duplicate function.
-/

namespace ProcCheck

/-- No node of the expression is of unknown kind. -/
def Expr.isKnown (e : Expr) : Bool := e.walk.all (·.foreignTag?.isNone)

/-- The spelling is that of a type. -/
def ValueType.spells (spelling : Text) : Bool := (ofSpelling? spelling).isSome

/-- The declaration spells a type, and the initializer is known. -/
def VarDecl.isKnown (decl : VarDecl) : Bool :=
  ValueType.spells decl.type && decl.init.all Expr.isKnown

namespace Stmt

/-- No node of the statement is of unknown kind, and every declaration in it spells a type. -/
def isKnown : Stmt → Bool
  | var decl => decl.isKnown
  | block body => blockIsKnown body
  | branch condition thenBlock elseBlock _ =>
    condition.isKnown && blockIsKnown thenBlock && elseIsKnown elseBlock
  | whileLoop condition body _ => condition.isKnown && blockIsKnown body
  | forLoop init condition update body _ =>
    initIsKnown init && condition.all Expr.isKnown && update.all Expr.isKnown && blockIsKnown body
  | expr e _ => e.isKnown
  | ret value _ => value.all Expr.isKnown
  | foreign _ _ => false
where
  /-- All statements of the block are known. -/
  blockIsKnown : Block Stmt → Bool
    | ⟨statements, _⟩ => allKnown statements
  /-- The block of an alternative is known. -/
  elseIsKnown : Option (Block Stmt) → Bool
    | none => true
    | some body => blockIsKnown body
  /-- The first clause of a loop is known. -/
  initIsKnown : Option Stmt → Bool
    | none => true
    | some s => isKnown s
  /-- All statements of the list are known. -/
  allKnown : List Stmt → Bool
    | [] => true
    | s :: rest => isKnown s && allKnown rest

@[simp] theorem allKnown_iff {statements : List Stmt} :
    isKnown.allKnown statements = true ↔ ∀ s ∈ statements, s.isKnown := by
  induction statements with
  | nil => simp [isKnown.allKnown]
  | cons s rest ih => simp [isKnown.allKnown, ih]

@[simp] theorem blockIsKnown_iff {body : Block Stmt} :
    isKnown.blockIsKnown body = true ↔ ∀ s ∈ body.statements, s.isKnown := by
  cases body
  simp [isKnown.blockIsKnown]

@[simp] theorem elseIsKnown_iff {elseBlock : Option (Block Stmt)} :
    isKnown.elseIsKnown elseBlock = true ↔
      ∀ body ∈ elseBlock, ∀ s ∈ body.statements, s.isKnown := by
  cases elseBlock <;> simp [isKnown.elseIsKnown]

@[simp] theorem initIsKnown_iff {init : Option Stmt} :
    isKnown.initIsKnown init = true ↔ ∀ s ∈ init, s.isKnown := by
  cases init <;> simp [isKnown.initIsKnown]

end Stmt

/-- The function spells its types, and its body is known. -/
def FunctionDecl.isKnown (decl : FunctionDecl) : Bool :=
  ValueType.spells decl.returnType && decl.params.all (ValueType.spells ·.type) &&
    (Stmt.block decl.body).isKnown

/-- The node is known. -/
def TopLevel.isKnown : TopLevel → Bool
  | global decl => decl.isKnown
  | function decl => decl.isKnown
  | statement s => s.isKnown

/-- All nodes of the program are known. -/
def Program.isKnown (p : Program) : Bool := p.declarations.all TopLevel.isKnown

/-- The event is about known nodes. -/
def Event.isKnown : Event → Bool
  | declare decl => decl.isKnown
  | check e => e.isKnown
  | enter _ | leave => true
  | foreign _ => false

theorem Stmt.enclosed_isKnown {head : Option ControlHead} {inner : List Event}
    (known : ∀ event ∈ inner, event.isKnown) : ∀ event ∈ enclosed head inner, event.isKnown := by
  intro event member
  cases head with
  | none => exact known event (by simpa [enclosed] using member)
  | some head =>
    simp only [enclosed, Option.map_some, Option.toList_some, List.mem_append,
      List.mem_singleton] at member
    rcases member with (rfl | member) | rfl
    · rfl
    · exact known event member
    · rfl

/-- A known statement has known events only. -/
theorem Stmt.events_isKnown {s : Stmt} (known : s.isKnown) : ∀ event ∈ s.events, event.isKnown := by
  induction s using Stmt.treeInduction with
  | var decl => simpa [events, Event.isKnown, isKnown] using known
  | block body ih =>
    simp only [isKnown, blockIsKnown_iff] at known
    simp only [events, blockEvents_eq, List.mem_flatMap]
    rintro event ⟨s, member, h⟩
    exact ih s member (known s member) event h
  | branch condition thenBlock elseBlock span ihThen ihElse =>
    simp only [isKnown, Bool.and_eq_true, blockIsKnown_iff, elseIsKnown_iff] at known
    obtain ⟨⟨knownTest, knownThen⟩, knownElse⟩ := known
    refine enclosed_isKnown fun event member => ?_
    simp only [blockEvents_eq, elseEvents_eq, List.mem_cons, List.mem_append, List.mem_flatMap,
      Option.mem_toList] at member
    rcases member with rfl | ⟨s, member, h⟩ | ⟨body, some, s, member, h⟩
    · exact knownTest
    · exact ihThen s member (knownThen s member) event h
    · exact ihElse body some s member (knownElse body some s member) event h
  | whileLoop condition body span ih =>
    simp only [isKnown, Bool.and_eq_true, blockIsKnown_iff] at known
    refine enclosed_isKnown fun event member => ?_
    simp only [blockEvents_eq, List.mem_cons, List.mem_flatMap] at member
    rcases member with rfl | ⟨s, member, h⟩
    · exact known.1
    · exact ih s member (known.2 s member) event h
  | forLoop init condition update body span ihInit ihBody =>
    simp only [isKnown, Bool.and_eq_true, blockIsKnown_iff, initIsKnown_iff,
      Option.all_eq_true] at known
    obtain ⟨⟨⟨knownInit, knownTest⟩, knownUpdate⟩, knownBody⟩ := known
    refine enclosed_isKnown fun event member => ?_
    simp only [initEvents_eq, blockEvents_eq, List.mem_append, List.mem_flatMap, List.mem_map,
      Option.mem_toList] at member
    rcases member with ((⟨s, member, h⟩ | ⟨e, member, rfl⟩) | ⟨e, member, rfl⟩) | ⟨s, member, h⟩
    · exact ihInit s member (knownInit s member) event h
    · exact knownTest e member
    · exact knownUpdate e member
    · exact ihBody s member (knownBody s member) event h
  | expr e span => simpa [events, Event.isKnown, isKnown] using known
  | ret value span =>
    simp only [isKnown, Option.all_eq_true] at known
    simp only [events, List.mem_map, Option.mem_toList]
    rintro event ⟨e, member, rfl⟩
    exact known e member
  | foreign tag span => cases known

end ProcCheck
