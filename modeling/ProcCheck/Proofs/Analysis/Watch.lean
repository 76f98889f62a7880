import Mathlib.Data.List.TakeWhile
import ProcCheck.Proofs.Analysis.Growth

/-!
# Watching a scan

A scan checks an expression through the list of its nodes, and a statement through the list of its
events. `Watch` is the same scan along the tree: an expression is validated node by node, a
statement by its own statements, and a control structure is left however the scan inside it ends.
Beside the state it keeps a log of the nodes that come to be validated. The log changes nothing, and
what it holds in the end can be told from the events of the statement.
-/

namespace ProcCheck

/-- A scan, and the nodes that it has validated so far. -/
structure Watched where
  scan : ScanState
  seen : List Expr := []

/-- A step of a scan that is watched. -/
abbrev Watch := ExceptT Abort (StateM Watched)

namespace Scan

/-- Judges a node, leaving aside its parts. A node of unknown kind cuts the scan short. -/
def judge : Expr → Scan Unit
  | .identifier src name => do
    let s ← get
    if !s.seesVariable name && !s.seesFunction name then
      report src.span.line (.undeclaredVariable name)
  | .assign src target _ => do
    if !(← get).seesVariable target then report src.span.line (.undeclaredTarget target)
  | .call src callee args => do
    match (← get).symbols.function? callee with
    | none => report src.span.line (.undefinedFunction callee)
    | some f =>
      if f.parameters.length ≠ args.length then
        report src.span.line (.wrongArgumentCount callee f.parameters.length args.length)
  | .foreign _ tag => throw (.foreignExpression tag)
  | .intLiteral .. | .floatLiteral .. | .stringLiteral .. | .binary .. | .prefixed .. | .group .. =>
    return

end Scan

namespace Watch

variable {α β : Type}

/-- The answer of a step that starts in `w`, the state that it leaves and the log. -/
def exec (act : Watch α) (w : Watched) : Except Abort α × Watched := act.run.run w

/-- A step in which nothing is validated. -/
def lift (act : Scan α) : Watch α :=
  ExceptT.mk fun w => ((Scan.exec act w.scan).1, { w with scan := (Scan.exec act w.scan).2 })

/-- Validates a node, leaving aside its parts. -/
def node (e : Expr) : Watch Unit := do
  modify fun w => { w with seen := w.seen ++ [e] }
  lift (Scan.judge e)

mutual

/-- Validates an expression: a node is judged before its parts. -/
def expr : Expr → Watch Unit
  | e@(.call _ _ args) => do node e; exprs args
  | e@(.assign _ _ value) => do node e; expr value
  | e@(.binary _ _ left right) => do node e; expr left; expr right
  | e@(.prefixed _ _ operand) => do node e; expr operand
  | e@(.group _ inner) => do node e; expr inner
  | e => node e

/-- Validates expressions one after the other. -/
def exprs : List Expr → Watch Unit
  | [] => return
  | e :: rest => do expr e; exprs rest

end

/-- Validates an expression that may be left out. -/
def expr? : Option Expr → Watch Unit
  | none => return
  | some e => expr e

/-- Reads an initializer. -/
def evaluate (type : ValueType) : Option Expr → Watch (Option InitialValue)
  | none => return none
  | some e => do
    if e.text.isCompound then
      expr e
      return none
    else return type.literal? e.text

/-- Declares a local variable of the function that the scan stands in. -/
def declareLocal (decl : VarDecl) : Watch Unit := do
  match (← lift get).frame.function? with
  | none => lift (Scan.report decl.span.line .variableOutsideFunction)
  | some f =>
    let type ← lift (Scan.resolveType decl.type)
    if f.declares decl.name then lift (Scan.report decl.span.line (.duplicateLocal decl.name))
    else
      let initial ← evaluate type decl.init
      let declared : Variable := ⟨decl.name, type, false, decl.span.line, initial⟩
      lift (modify (·.addLocal declared))

/-- Enters a control structure and leaves it again, also if the scan is cut short inside. -/
def track (head : ControlHead) (inner : Watch Unit) : Watch Unit := do
  lift (discard (Scan.enterControl head))
  try inner finally lift Scan.leaveControl

/-- Scans a statement. -/
def statement : Stmt → Watch Unit
  | .var decl => declareLocal decl
  | .block body => block body
  | .expr e _ => expr e
  | .ret value _ => expr? value
  | .branch condition thenBlock elseBlock span =>
    track ⟨if elseBlock.isSome then .branchElse else .branch, span, condition.text⟩ do
      expr condition
      block thenBlock
      alternative elseBlock
  | .whileLoop condition body span =>
    track ⟨.whileLoop, span, condition.text⟩ do
      expr condition
      block body
  | .forLoop init condition update body span =>
    track ⟨.forLoop, span, (condition.map Expr.text).getD []⟩ do
      clause init
      expr? condition
      expr? update
      block body
  | .foreign tag _ => lift (throw (.foreignStatement tag))
where
  /-- Scans a block. -/
  block : Block Stmt → Watch Unit
    | ⟨statements, _⟩ => all statements
  /-- Scans an alternative. -/
  alternative : Option (Block Stmt) → Watch Unit
    | none => return
    | some body => block body
  /-- Scans the first clause of a loop. -/
  clause : Option Stmt → Watch Unit
    | none => return
    | some s => statement s
  /-- Scans several statements. -/
  all : List Stmt → Watch Unit
    | [] => return
    | s :: rest => do statement s; all rest

/-! ## What a watched step shows -/

/-- From the state `c` a watched step ends like `result` and adds `seen` to the log. -/
def Shows (w : Watch α) (c : ScanState) (seen : List Expr) (result : Except Abort α × ScanState) :
    Prop :=
  ∀ before, exec w ⟨c, before⟩ = (result.1, ⟨result.2, before ++ seen⟩)

namespace Shows

variable {w : Watch α} {f : α → Watch β} {c d : ScanState} {seen seen' : List Expr}

theorem pure (a : α) (c : ScanState) : Shows (Pure.pure a) c [] (.ok a, c) := by
  intro before
  rw [List.append_nil]
  rfl

theorem lift (act : Scan α) (c : ScanState) : Shows (Watch.lift act) c [] (Scan.exec act c) := by
  intro before
  rw [List.append_nil]
  rfl

theorem exec_bind (w : Watch α) (f : α → Watch β) (v : Watched) :
    exec (w >>= f) v =
      match exec w v with
      | (.ok a, u) => exec (f a) u
      | (.error abort, u) => (.error abort, u) := by
  unfold exec ExceptT.run StateT.run
  simp only [Bind.bind, ExceptT.bind, ExceptT.mk, StateT.bind, ExceptT.bindCont]
  rcases w v with ⟨_ | a, u⟩ <;> rfl

/-- A step that returns, and what is done with its answer. -/
theorem bind {a : α} {result : Except Abort β × ScanState} (first : Shows w c seen (.ok a, d))
    (second : Shows (f a) d seen' result) : Shows (w >>= f) c (seen ++ seen') result := by
  intro before
  rw [exec_bind, first before, ← List.append_assoc]
  exact second (before ++ seen)

/-- What would be done with the answer of a step that is cut short does not matter. -/
theorem bind_error {abort : Abort} (first : Shows w c seen (.error abort, d)) :
    Shows (w >>= f) c seen (.error abort, d) := by
  intro before
  rw [exec_bind, first before]

/-- Two steps in a row, watched and not. -/
theorem follow {x : Scan α} {g : α → Scan β} (first : Shows w c seen (Scan.exec x c))
    (second : ∀ a d, Scan.exec x c = (.ok a, d) → Shows (f a) d seen' (Scan.exec (g a) d))
    (cut : ∀ abort d, Scan.exec x c = (.error abort, d) → seen' = []) :
    Shows (w >>= f) c (seen ++ seen') (Scan.exec (x >>= g) c) := by
  rw [Scan.exec_bind]
  rcases run : Scan.exec x c with ⟨abort | a, d⟩
  · rw [run] at first
    rw [cut abort d run, List.append_nil]
    exact first.bind_error
  · rw [run] at first
    exact first.bind (second a d run)

/-- A step in which nothing is validated, and another. -/
theorem lift_follow {x : Scan α} {g : α → Scan β}
    (second : ∀ a d, Scan.exec x c = (.ok a, d) → Shows (f a) d seen (Scan.exec (g a) d))
    (cut : ∀ abort d, Scan.exec x c = (.error abort, d) → seen = []) :
    Shows (Watch.lift x >>= f) c seen (Scan.exec (x >>= g) c) := by
  rw [← List.nil_append seen]
  exact follow (.lift x c) second cut

/-- What is done at last is done however the step ends. -/
theorem atLast {w : Watch Unit} {result : Except Abort Unit × ScanState}
    (inner : Shows w c seen result) :
    Shows (tryFinally w (Watch.lift Scan.leaveControl)) c seen
      (result.1, result.2.closeControl) := by
  intro before
  have last (v : Watched) : exec (tryFinally w (Watch.lift Scan.leaveControl)) v =
      ((exec w v).1, { (exec w v).2 with scan := (exec w v).2.scan.closeControl }) := by
    unfold exec ExceptT.run StateT.run
    simp only [tryFinally, tryFinally', Functor.map, ExceptT.map, ExceptT.mk, Bind.bind, StateT.bind]
    rcases w v with ⟨_ | a, u⟩ <;> rfl
  rw [last, inner before]

end Shows

/-! ## Expressions -/

/-- The nodes up to the first of unknown kind, which is the last of them. -/
def reached : List Expr → List Expr
  | [] => []
  | e :: rest => e :: if e.foreignTag?.isSome then [] else reached rest

/-- What judging the nodes one after the other comes to. -/
def judged (c : ScanState) (nodes : List Expr) : Except Abort Unit × ScanState :=
  (match nodes.findSome? Expr.foreignTag? with
    | some tag => .error (.foreignExpression tag)
    | none => .ok (),
  c.report ((nodes.takeWhile (·.foreignTag?.isNone)).filterMap c.diagnose))

/-- The step validates the nodes in their order, from every state. -/
def Validates (w : Watch Unit) (nodes : List Expr) : Prop :=
  ∀ c, Shows w c (reached nodes) (judged c nodes)

end Watch

namespace Scan

/-- Judging a node adds at most one diagnostic, the one that the node and the tables tell. -/
theorem exec_judge {e : Expr} (known : e.foreignTag? = none) (c : ScanState) :
    exec (judge e) c = (.ok (), c.report (c.diagnose e).toList) := by
  cases e with
  | identifier src name =>
    rw [judge, exec_bind_ok (exec_get c), ScanState.diagnose, ScanState.problem?]
    cases c.seesVariable name with
    | true => simp
    | false => cases c.seesFunction name <;> simp [exec_report, Expr.line, Expr.span, Expr.src]
  | assign src target value =>
    rw [judge, exec_bind_ok (exec_get c), ScanState.diagnose, ScanState.problem?]
    cases c.seesVariable target <;> simp [exec_report, Expr.line, Expr.span, Expr.src]
  | call src callee args =>
    rw [judge, exec_bind_ok (exec_get c), ScanState.diagnose, ScanState.problem?]
    cases c.symbols.function? callee with
    | none => rfl
    | some f =>
      by_cases same : f.parameters.length = args.length <;>
        simp [same, exec_report, Expr.line, Expr.span, Expr.src]
  | foreign => cases known
  | _ => simp [judge, ScanState.diagnose, ScanState.problem?]

end Scan

namespace Watch

theorem Validates.nil : Validates (pure ()) [] := by
  intro c
  have same : judged c [] = (.ok (), c) := by simp [judged]
  rw [same]
  exact .pure () c

/-- Judging a node is judging a list of one. -/
theorem exec_judge_single (e : Expr) (c : ScanState) : Scan.exec (Scan.judge e) c = judged c [e] := by
  cases tag : e.foreignTag? with
  | none =>
    rw [Scan.exec_judge tag]
    cases found : c.diagnose e <;> simp [judged, tag, found]
  | some tag =>
    cases e with
    | foreign src tag' =>
      have empty : c.report [] = c := c.report_nil
      simp [Scan.judge, judged, Expr.foreignTag?, empty]
    | _ => cases tag

theorem Validates.node (e : Expr) : Validates (Watch.node e) [e] := by
  intro c
  have logged : Shows (modify fun w => { w with seen := w.seen ++ [e] }) c [e] (.ok (), c) :=
    fun _ => rfl
  have single : reached [e] = [e] ++ [] := by simp [reached]
  rw [single, ← exec_judge_single]
  exact logged.bind (.lift (Scan.judge e) c)

end Watch

/-! ## Nodes of unknown kind -/

/-- No node of the list is of unknown kind. -/
abbrev AllKnown (nodes : List Expr) : Prop := ∀ e ∈ nodes, e.foreignTag? = none

/-- A list of nodes is known, or it can be split at its first node of unknown kind. -/
theorem known_or_foreign (nodes : List Expr) : AllKnown nodes ∨
    ∃ front src tag back, nodes = front ++ .foreign src tag :: back ∧ AllKnown front := by
  induction nodes with
  | nil => exact .inl fun _ member => absurd member List.not_mem_nil
  | cons e rest ih =>
    cases here : e.foreignTag? with
    | some =>
      cases e with
      | foreign src tag =>
        exact .inr ⟨[], src, tag, rest, rfl, fun _ member => absurd member List.not_mem_nil⟩
      | _ => cases here
    | none =>
      rcases ih with known | ⟨front, src, tag', back, rfl, known⟩
      · exact .inl (List.forall_mem_cons.2 ⟨here, known⟩)
      · exact .inr ⟨e :: front, src, tag', back, rfl, List.forall_mem_cons.2 ⟨here, known⟩⟩

namespace ScanState

/-- What is wrong with a node is told by the tables and the function alone. -/
theorem diagnose_report (c : ScanState) (found : List Diagnostic) :
    (c.report found).diagnose = c.diagnose := by
  funext e
  cases e <;> rfl

theorem report_report (c : ScanState) (found more : List Diagnostic) :
    (c.report found).report more = c.report (found ++ more) := by
  simp [report, Symbols.report]

end ScanState

namespace Watch

variable {front back nodes : List Expr} {c : ScanState}

theorem reached_known (known : AllKnown nodes) : reached nodes = nodes := by
  induction nodes with
  | nil => rfl
  | cons e rest ih =>
    obtain ⟨here, others⟩ := List.forall_mem_cons.1 known
    simp [reached, here, ih others]

theorem reached_foreign (known : AllKnown front) (src : Excerpt) (tag : Text) :
    reached (front ++ .foreign src tag :: back) = front ++ [.foreign src tag] := by
  induction front with
  | nil => simp [reached, Expr.foreignTag?]
  | cons e rest ih =>
    obtain ⟨here, others⟩ := List.forall_mem_cons.1 known
    simp [reached, here, ih others]

theorem judged_known (known : AllKnown nodes) :
    judged c nodes = (.ok (), c.report (nodes.filterMap c.diagnose)) := by
  have all : nodes.takeWhile (·.foreignTag?.isNone) = nodes :=
    List.takeWhile_eq_self_iff.2 fun e member => by simp [known e member]
  rw [judged, all, List.findSome?_eq_none_iff.2 known]

theorem judged_foreign (known : AllKnown front) (src : Excerpt) (tag : Text) :
    judged c (front ++ .foreign src tag :: back) =
      (.error (.foreignExpression tag), c.report (front.filterMap c.diagnose)) := by
  have cut : (front ++ .foreign src tag :: back).takeWhile (·.foreignTag?.isNone) = front := by
    rw [List.takeWhile_append_of_pos fun e member => by simp [known e member]]
    simp [Expr.foreignTag?]
  rw [judged, cut, List.findSome?_append, List.findSome?_eq_none_iff.2 known]
  rfl

/-- Nodes that are validated one list after the other are validated in a row. -/
theorem Validates.append {w v : Watch Unit} (first : Validates w front)
    (second : Validates v back) : Validates (do w; v) (front ++ back) := by
  intro c
  rcases known_or_foreign front with known | ⟨front, src, tag, behind, rfl, known⟩
  · have shows := first c
    rw [reached_known known, judged_known known] at shows
    have both := shows.bind (f := fun _ => v) (second (c.report (front.filterMap c.diagnose)))
    rcases known_or_foreign back with known' | ⟨front', src, tag, behind, rfl, known'⟩
    · rw [reached_known known', judged_known known', c.report_report, c.diagnose_report] at both
      have all := List.forall_mem_append.2 ⟨known, known'⟩
      rwa [reached_known all, judged_known all, List.filterMap_append]
    · rw [reached_foreign known', judged_foreign known', c.report_report, c.diagnose_report,
        ← List.append_assoc, ← List.filterMap_append] at both
      have all := List.forall_mem_append.2 ⟨known, known'⟩
      rwa [← List.append_assoc, reached_foreign all, judged_foreign all]
  · have shows := first c
    rw [reached_foreign known, judged_foreign known] at shows
    rw [List.append_assoc, List.cons_append, reached_foreign known, judged_foreign known]
    exact shows.bind_error

/-- Validating an expression judges the nodes of its walk in their order. -/
theorem expr_validates (e : Expr) : Validates (expr e) e.walk := by
  have list (args : List Expr) (each : ∀ a ∈ args, Validates (expr a) a.walk) :
      Validates (exprs args) (args.flatMap Expr.walk) := by
    induction args with
    | nil => exact .nil
    | cons a rest ih =>
      obtain ⟨here, others⟩ := List.forall_mem_cons.1 each
      exact here.append (ih others)
  induction e using Expr.treeInduction with
  | call src callee args ih =>
    rw [Expr.walk, Expr.walkAll_eq]
    exact (Validates.node _).append (list args ih)
  | assign src target value ih | prefixed src op value ih | group src value ih =>
    exact (Validates.node _).append ih
  | binary src op left right ihLeft ihRight =>
    exact (Validates.node _).append (ihLeft.append ihRight)
  | _ => exact .node _

theorem expr_shows (e : Expr) (c : ScanState) :
    Shows (expr e) c (reached e.walk) (Scan.exec (Scan.checkExpr e) c) := by
  rw [Scan.exec_checkExpr_eq]
  exact expr_validates e c

end Watch

/-! ## Statements -/

/-- Whether a scan looks at the initializer of a declaration: it stands in a function that does not
have the name yet, and the initializer is compound. -/
def ScanState.looksAt (c : ScanState) (decl : VarDecl) : Bool :=
  c.frame.function?.any (!·.declares decl.name) && ValueType.spells decl.type &&
    decl.init.any (·.text.isCompound)

/-- The nodes that are validated when an event happens. -/
def Event.validated (c : ScanState) : Event → List Expr
  | declare decl =>
    if c.looksAt decl then decl.init.toList.flatMap fun e => Watch.reached e.walk else []
  | check e => Watch.reached e.walk
  | enter _ | leave | foreign _ => []

/-- The nodes that are validated when events happen one after the other. -/
def Event.validatedAlong : List Event → ScanState → List Expr
  | [], _ => []
  | event :: rest, c => event.validated c ++
    match Scan.exec (Scan.happen event) c with
    | (.ok (), d) => validatedAlong rest d
    | (.error _, _) => []

namespace Watch

theorem evaluate_shows (type : ValueType) (init : Option Expr) (c : ScanState) :
    Shows (evaluate type init) c
      (if init.any (·.text.isCompound) then init.toList.flatMap fun e => reached e.walk else [])
      (Scan.exec (Scan.evaluate type init) c) := by
  cases init with
  | none => exact .pure none c
  | some e =>
    simp only [evaluate, Scan.evaluate, Option.any_some, Option.toList_some, List.flatMap_singleton]
    split
    · rw [← List.append_nil (reached e.walk)]
      exact (expr_shows e c).follow (fun _ d _ => .pure none d) fun _ _ _ => rfl
    · exact .pure _ c

theorem declareLocal_shows (decl : VarDecl) (c : ScanState) :
    Shows (declareLocal decl) c (Event.validated c (.declare decl))
      (Scan.exec (Scan.declareLocal decl) c) := by
  rw [Event.validated]
  refine Shows.lift_follow (fun _ _ run => ?_) fun _ _ run => by cases run
  cases run
  cases function : c.frame.function? with
  | none =>
    have outside : c.looksAt decl = false := by simp [ScanState.looksAt, function]
    rw [outside]
    exact .lift _ c
  | some f =>
    refine Shows.lift_follow (fun type d run => ?_) fun abort d run => ?_
    · obtain ⟨spelt, rfl⟩ := Scan.exec_resolveType_returns.1 run
      by_cases duplicate : f.declares decl.name
      · have old : d.looksAt decl = false := by simp [ScanState.looksAt, function, duplicate]
        rw [old, if_pos duplicate, if_pos duplicate]
        exact .lift _ d
      · have new : d.looksAt decl = decl.init.any (·.text.isCompound) := by
          simp [ScanState.looksAt, function, duplicate, ValueType.spells, spelt]
        rw [new, if_neg duplicate, if_neg duplicate, ← List.append_nil (ite _ _ _)]
        exact (evaluate_shows type decl.init d).follow (fun _ d' _ => .lift _ d') fun _ _ _ => rfl
    · have unspelt : ValueType.ofSpelling? decl.type = none := by
        cases spelt : ValueType.ofSpelling? decl.type with
        | none => rfl
        | some type => cases (Scan.exec_resolveType_returns.2 ⟨spelt, rfl⟩).symm.trans run
      exact if_neg (by simp [ScanState.looksAt, ValueType.spells, unspelt])

end Watch

namespace Event

theorem validatedAlong_cons {event : Event} {c d : ScanState}
    (run : Scan.exec (Scan.happen event) c = (.ok (), d)) (rest : List Event) :
    validatedAlong (event :: rest) c = event.validated c ++ validatedAlong rest d := by
  rw [validatedAlong, run]

theorem validatedAlong_append (l m : List Event) (c : ScanState) :
    validatedAlong (l ++ m) c = validatedAlong l c ++
      match Scan.exec (l.forM Scan.happen) c with
      | (.ok (), d) => validatedAlong m d
      | (.error _, _) => [] := by
  induction l generalizing c with
  | nil => rfl
  | cons event rest ih =>
    rw [List.cons_append, validatedAlong, validatedAlong, Scan.forM_cons, Scan.exec_bind]
    rcases Scan.exec (Scan.happen event) c with ⟨abort | ⟨⟩, d⟩
    · simp
    · simp only [ih d, List.append_assoc]

theorem validatedAlong_single (event : Event) (c : ScanState) :
    validatedAlong [event] c = event.validated c := by
  rw [validatedAlong]
  rcases Scan.exec (Scan.happen event) c with ⟨abort | ⟨⟩, d⟩ <;> simp [validatedAlong]

end Event

/-- Where a step is cut short, the nesting is taken back. -/
theorem Scan.exec_keepNesting {α : Type} (act : Scan α) (c : ScanState) :
    exec (keepNesting act) c =
      match exec act c with
      | (.ok a, d) => (.ok a, d)
      | (.error abort, d) =>
        (.error abort, { d with frame := { d.frame with nesting := c.frame.nesting } }) := by
  rw [keepNesting, exec_bind_ok (exec_get c), exec_tryCatch]
  rcases exec act c with ⟨abort | a, d⟩ <;> rfl

namespace Watch

/-- A watched step ends like the events, and the log has what is validated along them. -/
def Follows (w : Watch Unit) (events : List Event) : Prop :=
  ∀ c, Shows w c (Event.validatedAlong events c)
    (Scan.exec (Scan.keepNesting (events.forM Scan.happen)) c)

namespace Follows

variable {w v : Watch Unit} {l m : List Event}

theorem nil : Follows (pure ()) [] := fun c => .pure () c

theorem single {event : Event} (keeps : Scan.KeepsFrame (Scan.happen event))
    (shows : ∀ c, Shows w c (event.validated c) (Scan.exec (Scan.happen event) c)) :
    Follows w [event] := by
  intro c
  have nesting := (keeps c).nesting
  have each := shows c
  have once : Scan.exec (List.forM [event] Scan.happen) c = Scan.exec (Scan.happen event) c := by
    rw [Scan.forM_cons, Scan.exec_bind]
    rcases Scan.exec (Scan.happen event) c with ⟨abort | ⟨⟩, d⟩ <;> rfl
  rw [Event.validatedAlong_single, Scan.exec_keepNesting, once]
  rcases run : Scan.exec (Scan.happen event) c with ⟨abort | ⟨⟩, d⟩
  · rw [run] at each nesting
    rwa [← nesting]
  · rwa [run] at each

/-- Events in a row: the first ones leave the nesting as it was, so it is taken back to the same
place wherever the scan is cut short. -/
theorem append (first : Follows w l) (balanced : Scan.Balanced (l.forM Scan.happen))
    (second : Follows v m) : Follows (do w; v) (l ++ m) := by
  intro c
  have shows := first c
  rw [Scan.exec_keepNesting] at shows
  rw [Event.validatedAlong_append, Scan.exec_keepNesting, Scan.forM_append, Scan.exec_bind]
  rcases run : Scan.exec (l.forM Scan.happen) c with ⟨abort | ⟨⟩, d⟩
  · rw [run] at shows
    rw [List.append_nil]
    exact shows.bind_error
  · rw [run] at shows
    have more := second d
    rw [Scan.exec_keepNesting, balanced.nesting c d run] at more
    exact shows.bind more

/-- A control structure: it is left again in both ways that the scan inside can end. -/
theorem track (head : ControlHead) (inner : Follows w l) :
    Follows (Watch.track head w) (.enter head :: (l ++ [.leave])) := by
  intro c
  have entered : Scan.exec (discard (Scan.enterControl head)) c = (.ok (), c.openControl head) := rfl
  have happened : Scan.exec (Scan.happen (.enter head)) c = (.ok (), c.openControl head) := rfl
  have shows := (inner (c.openControl head)).atLast
  have seen : Event.validatedAlong (.enter head :: (l ++ [.leave])) c =
      Event.validatedAlong l (c.openControl head) := by
    rw [Event.validatedAlong_cons happened, Event.validated, List.nil_append,
      Event.validatedAlong_append]
    rcases Scan.exec (l.forM Scan.happen) (c.openControl head) with ⟨abort | ⟨⟩, d⟩
    · exact List.append_nil _
    · simp [Event.validatedAlong_single, Event.validated]
  have result : Scan.exec (Scan.keepNesting (List.forM (.enter head :: (l ++ [.leave])) Scan.happen))
      c = ((Scan.exec (Scan.keepNesting (l.forM Scan.happen)) (c.openControl head)).1,
        (Scan.exec (Scan.keepNesting (l.forM Scan.happen)) (c.openControl head)).2.closeControl) := by
    rw [Scan.exec_keepNesting, Scan.exec_keepNesting, Scan.forM_cons,
      Scan.exec_bind_ok happened, Scan.forM_append, Scan.exec_bind]
    rcases Scan.exec (l.forM Scan.happen) (c.openControl head) with ⟨abort | ⟨⟩, d⟩
    · have back : (c.openControl head).frame.nesting.dropLast = c.frame.nesting :=
        List.dropLast_concat
      simp only [ScanState.closeControl, back]
    · rfl
  rw [seen, result]
  have step := Shows.lift (discard (Scan.enterControl head)) c
  rw [entered] at step
  rw [← List.nil_append (Event.validatedAlong _ _)]
  exact step.bind shows

end Follows

theorem expr_follows (e : Expr) : Follows (expr e) [.check e] :=
  .single (Scan.checkExpr_keepsFrame e) (expr_shows e)

theorem expr?_follows (e? : Option Expr) : Follows (expr? e?) (e?.toList.map .check) := by
  cases e? with
  | none => exact .nil
  | some e => exact expr_follows e

/-- Watching a statement changes nothing, and the log has what is validated along its events. -/
theorem statement_follows (s : Stmt) : Follows (statement s) s.events := by
  have list (statements : List Stmt) (each : ∀ s ∈ statements, Follows (statement s) s.events) :
      Follows (statement.all statements) (statements.flatMap Stmt.events) := by
    induction statements with
    | nil =>
      rw [statement.all]
      exact .nil
    | cons s rest ih =>
      obtain ⟨here, others⟩ := List.forall_mem_cons.1 each
      rw [statement.all]
      exact here.append (Scan.events_balanced s) (ih others)
  have block (body : Block Stmt) (each : ∀ s ∈ body.statements, Follows (statement s) s.events) :
      Follows (statement.block body) (body.statements.flatMap Stmt.events) := by
    cases body
    rw [statement.block]
    exact list _ each
  have balanced (body : Block Stmt) :
      Scan.Balanced ((body.statements.flatMap Stmt.events).forM Scan.happen) :=
    .flatMap fun s _ => Scan.events_balanced s
  induction s using Stmt.treeInduction with
  | var decl =>
    rw [statement, Stmt.events]
    exact .single (Scan.declareLocal_keepsFrame decl) (declareLocal_shows decl)
  | block body ih =>
    rw [statement, Stmt.events, Stmt.blockEvents_eq]
    exact block body ih
  | branch condition thenBlock elseBlock span ihThen ihElse =>
    have alternative : Follows (statement.alternative elseBlock)
        (Stmt.events.elseEvents elseBlock) := by
      cases elseBlock with
      | none =>
        rw [statement.alternative]
        exact .nil
      | some body =>
        rw [statement.alternative, Stmt.events.elseEvents, Stmt.blockEvents_eq]
        exact block body (ihElse body rfl)
    have inner := (expr_follows condition).append (Scan.check_balanced condition)
      ((block thenBlock ihThen).append (balanced thenBlock) alternative)
    rw [statement, Stmt.events, Stmt.blockEvents_eq]
    cases elseBlock with
    | none => exact inner.track _
    | some body => exact inner.track _
  | whileLoop condition body span ih =>
    rw [statement, Stmt.events, Stmt.blockEvents_eq]
    exact ((expr_follows condition).append (Scan.check_balanced condition) (block body ih)).track _
  | forLoop init condition update body span ihInit ih =>
    have clause : Follows (statement.clause init) (Stmt.events.initEvents init) := by
      cases init with
      | none =>
        rw [statement.clause]
        exact .nil
      | some s =>
        rw [statement.clause]
        exact ihInit s rfl
    have clauseBalanced : Scan.Balanced ((Stmt.events.initEvents init).forM Scan.happen) := by
      rw [Stmt.initEvents_eq]
      exact .flatMap fun s _ => Scan.events_balanced s
    have inner := clause.append clauseBalanced
      ((expr?_follows condition).append (Scan.checks_balanced condition)
        ((expr?_follows update).append (Scan.checks_balanced update) (block body ih)))
    rw [← List.append_assoc, ← List.append_assoc] at inner
    rw [statement, Stmt.events, Stmt.blockEvents_eq]
    exact inner.track _
  | expr e span =>
    rw [statement, Stmt.events]
    exact expr_follows e
  | ret value span =>
    rw [statement, Stmt.events]
    exact expr?_follows value
  | foreign tag span =>
    rw [statement, Stmt.events]
    exact .single (.ofSame fun _ => rfl) fun c => .lift _ c

end Watch

end ProcCheck
