import Mathlib.Data.List.Dedup
import ProcCheck.Analysis.Declare

/-!
# Diagnostics read off the source order

What an analysis reports, said without tables and without state. Every place of a program has a
`Scope`: the top-level nodes before the one that it is in and, inside a function, the parameters
and the declarations before it. A place is judged by the names in its scope alone, and
`Program.remarks` puts what the places give in source order, each in the words that a user reads.
-/

namespace ProcCheck

/-- What a user reads of a diagnostic: a line, 0 for the program as a whole, and a message. -/
structure Remark where
  line : Int
  text : Text
  deriving DecidableEq

/-- A diagnostic as a user reads it. -/
def Diagnostic.remark (d : Diagnostic) : Remark := ⟨d.line, d.message⟩

/-- What a user reads of the diagnostics of an analysis. -/
def Symbols.remarks (symbols : Symbols) : List Remark := symbols.diagnostics.map Diagnostic.remark

/-- What `f` finds at each element of a list, given the elements before it; those of `earlier`
stand before the whole list. -/
def inOrder {α β : Type} (f : List α → α → List β) (earlier : List α) : List α → List β
  | [] => []
  | a :: rest => f earlier a ++ inOrder f (earlier ++ [a]) rest

/-- A place in a statement: the declaration of a variable, or an expression that is no
initializer. -/
inductive Site where
  | declare (decl : VarDecl)
  | check (e : Expr)

/-- The declaration that stands at a place. -/
def Site.decl? : Site → Option VarDecl
  | declare decl => some decl
  | check _ => none

/-- The places in a statement, in source order. -/
def Stmt.sites : Stmt → List Site
  | var decl => [.declare decl]
  | block body => blockSites body
  | branch condition thenBlock elseBlock _ =>
    .check condition :: (blockSites thenBlock ++ elseSites elseBlock)
  | whileLoop condition body _ => .check condition :: blockSites body
  | forLoop init test update body _ =>
    initSites init ++ test.toList.map .check ++ update.toList.map .check ++ blockSites body
  | expr e _ => [.check e]
  | ret value _ => value.toList.map .check
  | foreign _ _ => []
where
  /-- The places in a block. -/
  blockSites : Block Stmt → List Site
    | ⟨statements, _⟩ => allSites statements
  /-- The places in an alternative. -/
  elseSites : Option (Block Stmt) → List Site
    | none => []
    | some body => blockSites body
  /-- The places in the first clause of a loop. -/
  initSites : Option Stmt → List Site
    | none => []
    | some s => sites s
  /-- The places in several statements. -/
  allSites : List Stmt → List Site
    | [] => []
    | s :: rest => sites s ++ allSites rest

/-- The global variable that a top-level node declares. -/
def TopLevel.global? : TopLevel → Option VarDecl
  | global decl => some decl
  | _ => none

/-- The function that a top-level node declares. -/
def TopLevel.function? : TopLevel → Option FunctionDecl
  | function decl => some decl
  | _ => none

/-- How many arguments a function takes: a name that its parameters repeat counts once. -/
def FunctionDecl.arity (decl : FunctionDecl) : Nat := (decl.params.map (·.name)).dedup.length

/-- The inside of a function at a place: the parameters and the declarations before the place. -/
structure Interior where
  params : List Param
  locals : List VarDecl := []

/-- Whether a parameter or a declaration before the place has the name. -/
def Interior.declares (interior : Interior) (name : Text) : Bool :=
  interior.params.any (·.name = name) || interior.locals.any (·.name = name)

/-- What stands before a place: the top-level nodes before its own and, in a function, the
inside of it. -/
structure Scope where
  before : List TopLevel
  inside? : Option Interior := none

namespace Scope

/-- Whether an earlier node declares a global variable of the name. -/
def declaresGlobal (sc : Scope) (name : Text) : Bool :=
  (sc.before.filterMap TopLevel.global?).any (·.name = name)

/-- The first function of the name in an earlier node. The function that the place is in is
not among them. -/
def function? (sc : Scope) (name : Text) : Option FunctionDecl :=
  (sc.before.filterMap TopLevel.function?).find? (·.name = name)

/-- Whether a variable of the name is declared before the place. -/
def seesVariable (sc : Scope) (name : Text) : Bool :=
  sc.inside?.any (·.declares name) || sc.declaresGlobal name

/-- What is said against a node, leaving aside its parts. -/
def objection? (sc : Scope) : Expr → Option Text
  | .identifier _ name =>
    if sc.seesVariable name || (sc.function? name).isSome then none
    else some ("Use of undeclared variable: " ++ name)
  | .assign _ target _ =>
    if sc.seesVariable target then none
    else some ("Assignment to undeclared variable: " ++ target)
  | .call _ callee args =>
    match sc.function? callee with
    | none => some ("Call to undefined function: " ++ callee)
    | some decl =>
      if decl.arity = args.length then none
      else some ("Function " ++ callee ++ " expects " ++ Text.ofNat decl.arity ++
        " arguments but got " ++ Text.ofNat args.length)
  | _ => none

/-- The remarks on the nodes of an expression, parents before their parts. -/
def ofExpr (sc : Scope) (e : Expr) : List Remark :=
  e.walk.filterMap fun node => (sc.objection? node).map fun text => ⟨node.line, text⟩

/-- The remarks on an initializer: only a compound one is looked at. -/
def ofInit (sc : Scope) : Option Expr → List Remark
  | none => []
  | some e => if e.text.isCompound then sc.ofExpr e else []

/-- The remarks on a place. -/
def ofSite (sc : Scope) : Site → List Remark
  | .check e => sc.ofExpr e
  | .declare decl =>
    match sc.inside? with
    | none => [⟨decl.span.line, "Variable declaration outside of function context"⟩]
    | some interior =>
      if interior.declares decl.name then
        [⟨decl.span.line, "Duplicate local variable declaration: " ++ decl.name⟩]
      else sc.ofInit decl.init

/-- The scope behind some places of a statement. -/
def pass (sc : Scope) (passed : List Site) : Scope :=
  { sc with
    inside? := sc.inside?.map fun interior =>
      { interior with locals := interior.locals ++ passed.filterMap Site.decl? } }

/-- The remarks on a statement. -/
def ofStmt (sc : Scope) (s : Stmt) : List Remark :=
  inOrder (fun passed site => (sc.pass passed).ofSite site) [] s.sites

end Scope

/-- The remarks on a parameter of a function, given the parameters before it. -/
def FunctionDecl.paramRemarks (decl : FunctionDecl) (earlier : List Param) (param : Param) :
    List Remark :=
  if earlier.any (·.name = param.name) then
    [⟨param.span.line, "Duplicate parameter name in function " ++ decl.name ++ ": " ++ param.name⟩]
  else []

/-- The remarks on a top-level node, given the nodes before it. -/
def TopLevel.remarks (before : List TopLevel) : TopLevel → List Remark
  | global decl =>
    if Scope.declaresGlobal ⟨before, none⟩ decl.name then
      [⟨decl.span.line, "Duplicate global variable declaration: " ++ decl.name⟩]
    else Scope.ofInit ⟨before, none⟩ decl.init
  | function decl =>
    if (Scope.function? ⟨before, none⟩ decl.name).isSome then
      [⟨decl.span.line, "Duplicate function declaration: " ++ decl.name⟩]
    else
      inOrder decl.paramRemarks [] decl.params ++
        Scope.ofStmt ⟨before, some ⟨decl.params, []⟩⟩ (.block decl.body)
  | statement s => Scope.ofStmt ⟨before, none⟩ s

/-- Whether one of the nodes declares a function with the entry name, in any case of letters. -/
def TopLevel.declareEntry (entry : Text) (nodes : List TopLevel) : Bool :=
  (nodes.filterMap TopLevel.function?).any (·.name.toLower = entry.toLower)

/-- The remarks on a program: those on its nodes and, if no function has the entry name, one on
the program as a whole. -/
def Program.remarks (entry : Text) (p : Program) : List Remark :=
  inOrder TopLevel.remarks [] p.declarations ++
    if TopLevel.declareEntry entry p.declarations then []
    else [⟨0, "No " ++ entry ++ " function found in program"⟩]

end ProcCheck
