import Mathlib.Data.List.Forall2
import ProcCheck.Proofs.Grammar.Nesting
import ProcCheck.Proofs.Tree.Induction

/-!
# Calls among tokens

A call starts with a name that stands right in front of an opening parenthesis. `Token.callHeads`
lists these names. The readers miss none of them and add none: `Finds es used` says that the calls
among the expressions `es` start, one by one, with the names that are called among the tokens
`used`, and every reader relates the walk of what it returns to what it takes in this way.
-/

namespace ProcCheck

/-! ## Names that are called -/

/-- Whether no call reaches over a token of this kind: it is no name and starts no arguments. -/
def TokenKind.separates : TokenKind → Bool
  | identifier | mainWord | openParen => false
  | _ => true

namespace Token

variable {t paren : Token} {used rest : List Token}

/-- The names among tokens that stand right in front of an opening parenthesis. -/
def callHeads : List Token → List Token
  | [] => []
  | t :: rest =>
    if t.kind.isCallable ∧ rest.head?.any (·.kind = .openParen) then t :: callHeads rest
    else callHeads rest

theorem callHeads_other (other : t.kind.isCallable = false) :
    callHeads (t :: rest) = callHeads rest := by
  rw [callHeads, if_neg (by simp [other])]

theorem callHeads_call (callable : t.kind.isCallable) (opens : paren.kind = .openParen) :
    callHeads (t :: paren :: rest) = t :: callHeads rest := by
  have other : paren.kind.isCallable = false := by rw [opens]; rfl
  rw [callHeads, if_pos ⟨callable, by simp [opens]⟩, callHeads_other other]

/-- Names are called on either side of a token that no call reaches over. -/
theorem callHeads_between (apart : t.kind.separates) :
    callHeads (used ++ t :: rest) = callHeads used ++ callHeads rest := by
  have other : t.kind.isCallable = false ∧ t.kind ≠ .openParen := by
    revert apart
    cases t.kind <;> simp [TokenKind.separates, TokenKind.isCallable]
  induction used with
  | nil => exact callHeads_other other.1
  | cons first more ih =>
    have next : (more ++ t :: rest).head?.any (·.kind = .openParen) =
        more.head?.any (·.kind = .openParen) := by
      cases more <;> simp [other.2]
    simp only [List.cons_append, callHeads, next, ih]
    split <;> rfl

/-- A name is called where a parenthesis opens right behind it. -/
theorem mem_callHeads : t ∈ callHeads used ↔ t.kind.isCallable ∧
    ∃ front paren behind, used = front ++ t :: paren :: behind ∧ paren.kind = .openParen := by
  induction used with
  | nil => simp [callHeads]
  | cons first more ih =>
    have here : (more.head?.any (·.kind = .openParen) = true) ↔
        ∃ paren behind, more = paren :: behind ∧ paren.kind = .openParen := by
      cases more <;> simp
    have split : (∃ front paren behind, first :: more = front ++ t :: paren :: behind ∧
          paren.kind = .openParen) ↔
        (first = t ∧ ∃ paren behind, more = paren :: behind ∧ paren.kind = .openParen) ∨
          ∃ front paren behind, more = front ++ t :: paren :: behind ∧ paren.kind = .openParen := by
      constructor
      · rintro ⟨_ | ⟨_, front⟩, paren, behind, same, opens⟩
        · obtain ⟨rfl, rfl⟩ := List.cons.inj same
          exact .inl ⟨rfl, paren, behind, rfl, opens⟩
        · obtain ⟨rfl, rfl⟩ := List.cons.inj same
          exact .inr ⟨front, paren, behind, rfl, opens⟩
      · rintro (⟨rfl, paren, behind, rfl, opens⟩ | ⟨front, paren, behind, rfl, opens⟩)
        · exact ⟨[], paren, behind, rfl, opens⟩
        · exact ⟨first :: front, paren, behind, rfl, opens⟩
    rw [callHeads, split, ← here]
    by_cases called : first.kind.isCallable ∧ more.head?.any (·.kind = .openParen) = true
    · rw [if_pos called, List.mem_cons, ih]
      constructor
      · rintro (rfl | ⟨callable, later⟩)
        · exact ⟨called.1, .inl ⟨rfl, called.2⟩⟩
        · exact ⟨callable, .inr later⟩
      · rintro ⟨callable, ⟨rfl, -⟩ | later⟩
        · exact .inl rfl
        · exact .inr ⟨callable, later⟩
    · rw [if_neg called, ih]
      constructor
      · rintro ⟨callable, later⟩
        exact ⟨callable, .inr later⟩
      · rintro ⟨callable, ⟨rfl, opens⟩ | later⟩
        · exact absurd ⟨callable, opens⟩ called
        · exact ⟨callable, later⟩

end Token

/-! ## Calls among expressions -/

namespace Expr

/-- Whether an expression is a call. -/
def isCall (e : Expr) : Bool := e.callSite?.isSome

/-- A call that starts with a token and calls what the token spells. -/
def CalledBy (e : Expr) (t : Token) : Prop :=
  ∃ src args, e = .call src t.spelling args ∧ src.span.start = t.pos

/-- Wherever an operator is hung into a tree, its right operand gets behind the calls before it. -/
theorem calls_attach (left : Expr) (op : BinaryOp) (sign : Excerpt) (right : Expr) :
    (left.attach op sign right).walk.filter isCall =
      left.walk.filter isCall ++ right.walk.filter isCall := by
  induction left using Expr.attach.induct op with
  | case1 src outer l r below ih =>
    simp [attach, below, walk, isCall, callSite?, ih]
  | case2 src outer l r above =>
    simp [attach, above, walk, isCall, callSite?]
  | case3 left other =>
    simp [attach, walk, isCall, callSite?]

end Expr

namespace Grammar

/-- The calls among expressions start with the names that are called among tokens, in order. -/
def Finds (es : List Expr) (used : List Token) : Prop :=
  List.Forall₂ Expr.CalledBy (es.filter Expr.isCall) (Token.callHeads used)

namespace Finds

variable {es es' : List Expr} {used used' tail : List Token} {t : Token}

theorem nil : Finds [] [] := List.Forall₂.nil

theorem cons (other : t.kind.isCallable = false) (finds : Finds es used) :
    Finds es (t :: used) := by
  rw [Finds, Token.callHeads_other other]
  exact finds

theorem between (first : Finds es used) (apart : t.kind.separates) (second : Finds es' used') :
    Finds (es ++ es') (used ++ t :: used') := by
  rw [Finds, List.filter_append, Token.callHeads_between apart]
  exact List.rel_append first second

theorem concat (finds : Finds es used) (apart : t.kind.separates) : Finds es (used ++ [t]) := by
  have closed := finds.between apart .nil
  rwa [List.append_nil] at closed

/-- An expression that is no call is found what its parts are. -/
theorem node {e : Expr} (other : e.isCall = false)
    (parts : Finds (e.children.flatMap Expr.walk) used) : Finds e.walk used := by
  rw [Finds, Expr.walk_eq, List.filter_cons_of_neg (by simp [other])]
  exact parts

/-- Arguments behind commas are found what each of them is. -/
theorem commas {more : List (Token × Expr)} (first : Finds es used)
    (read : CommaTail (fun e taken => Finds e.walk taken) more tail) :
    Finds (es ++ (more.map (·.2)).flatMap Expr.walk) (used ++ tail) := by
  induction more generalizing es used tail with
  | nil =>
    cases read
    simpa using first
  | cons next more ih =>
    obtain ⟨taken, tail, rfl, comma, second, further⟩ := read
    have apart : next.1.kind.separates := by
      have kind : next.1.kind = .comma := congrArg Lexeme.kind comma
      rw [kind]
      rfl
    simpa using ih (first.between apart second) further

end Finds

/-! ## Readers of expressions -/

section Expressions

variable {inner : Parse Expr}

theorem call_finds (reads : Reads inner fun e used => Finds e.walk used) {bound : Nat}
    {callee opening : Token} (callable : callee.kind.isCallable)
    (opens : opening.kind = .openParen) :
    Reads (call inner bound callee opening) fun e used =>
      Finds e.walk (callee :: opening :: used) := by
  intro ts e rest spelt run
  obtain ⟨args, mid, runArgs, runRest⟩ := bind_ok.1 run
  obtain ⟨closing, mid', runClosing, same⟩ := bind_ok.1 runRest
  obtain ⟨rfl, isClosing⟩ := expect_ok.1 runClosing
  have apart : closing.kind.separates := by rw [isClosing]; rfl
  have whole {src : Excerpt} {args : List Expr} {used : List Token}
      (start : src.span.start = callee.pos) (found : Finds (args.flatMap Expr.walk) used) :
      Finds (Expr.call src callee.spelling args).walk (callee :: opening :: used) := by
    rw [Finds, Token.callHeads_call callable opens, Expr.walk_eq, List.filter_cons_of_pos rfl]
    exact .cons ⟨src, args, rfl, start⟩ found
  rcases unlessNext_ok.1 runArgs with ⟨rfl, rfl, -⟩ | ⟨⟨first, more⟩, rfl, runList, -⟩
  · obtain ⟨rfl, rfl⟩ := pure_ok.1 same
    exact ⟨[closing], rfl, whole rfl (Finds.nil.concat apart)⟩
  · obtain ⟨rfl, rfl⟩ := pure_ok.1 same
    obtain ⟨used, rfl, firstUsed, tail, rfl, readFirst, readMore⟩ :=
      commaList_reads reads bound _ _ _ spelt runList
    refine ⟨firstUsed ++ tail ++ [closing], by simp, whole ?_ ?_⟩
    · rw [Excerpt.span_append, Span.start_append, argsExcerpt_start]
      rfl
    · exact (readFirst.commas readMore).concat apart

theorem group_finds (reads : Reads inner fun e used => Finds e.walk used) {opening : Token}
    (opens : opening.kind = .openParen) :
    Reads (group inner opening) fun e used => Finds e.walk (opening :: used) := by
  intro ts e rest spelt run
  obtain ⟨body, mid, runInner, runRest⟩ := bind_ok.1 run
  obtain ⟨used, rfl, found⟩ := reads _ _ _ spelt runInner
  obtain ⟨closing, mid', runClosing, same⟩ := bind_ok.1 runRest
  obtain ⟨rfl, isClosing⟩ := expect_ok.1 runClosing
  obtain ⟨rfl, rfl⟩ := pure_ok.1 same
  have apart : closing.kind.separates := by rw [isClosing]; rfl
  have other : opening.kind.isCallable = false := by rw [opens]; rfl
  refine ⟨used ++ [closing], by simp, .node rfl (.cons other ?_)⟩
  simpa [Expr.children] using found.concat apart

theorem simple_finds (reads : Reads inner fun e used => Finds e.walk used) (t : Token) :
    Reads (primary.simple inner t) fun e used => Finds e.walk (t :: used) := by
  intro ts e rest spelt run
  -- a single token calls nothing, for nothing is behind it
  have alone {e : Expr} (leaf : e.children = []) (other : e.isCall = false) :
      Finds e.walk [t] := by
    refine .node other ?_
    rw [leaf]
    simp [Finds, Token.callHeads]
  simp only [primary.simple] at run
  split at run
  case h_5 kind => exact group_finds reads kind ts e rest spelt run
  case h_6 => exact absurd run refuse_ok
  all_goals
    cases run
    exact ⟨[], rfl, alone rfl rfl⟩

theorem primary_finds (reads : Reads inner fun e used => Finds e.walk used) (bound : Nat) :
    Reads (primary inner bound) fun e used => Finds e.walk used := by
  intro ts e rest spelt run
  cases ts with
  | nil => exact absurd run refuse_ok
  | cons t more =>
    obtain ⟨-, moreSpelt⟩ := allSpelt_cons.1 spelt
    have simple (run : primary.simple inner t more = .ok (e, rest)) :
        ∃ used, t :: more = used ++ rest ∧ Finds e.walk used := by
      obtain ⟨used, rfl, found⟩ := simple_finds reads t _ _ _ moreSpelt run
      exact ⟨t :: used, rfl, found⟩
    cases more with
    | nil => exact simple run
    | cons paren more =>
      simp only [primary] at run
      split at run
      next starts =>
        obtain ⟨-, argsSpelt⟩ := allSpelt_cons.1 moreSpelt
        obtain ⟨used, rfl, found⟩ := call_finds reads starts.1 starts.2 _ _ _ argsSpelt run
        exact ⟨t :: paren :: used, rfl, found⟩
      next => exact simple run

theorem prefixed_finds {primary : Parse Expr} (reads : Reads primary fun e used => Finds e.walk used)
    (bound : Nat) : Reads (prefixed primary bound) fun e used => Finds e.walk used := by
  induction bound with
  | zero => exact reads
  | succ bound ih =>
    intro ts e rest spelt run
    obtain ⟨taken, mid, runTake, runRest⟩ := bind_ok.1 run
    rcases take?_ok.1 runTake with ⟨op, sign, rfl, rfl, isOp⟩ | ⟨rfl, rfl, -⟩
    · obtain ⟨operand, mid', runOperand, same⟩ := bind_ok.1 runRest
      obtain ⟨rfl, rfl⟩ := pure_ok.1 same
      obtain ⟨used, rfl, found⟩ := ih _ _ _ (allSpelt_cons.1 spelt).2 runOperand
      have other : sign.kind.isCallable = false := by
        rw [prefixOp?_eq_some.1 isOp]
        cases op <;> rfl
      refine ⟨sign :: used, rfl, .node rfl (.cons other ?_)⟩
      simpa [Expr.children] using found
    · exact reads _ _ _ spelt runRest

/-- Each round of the loop attaches one more operand behind the calls found so far. -/
theorem operators_finds {operand : Parse Expr} (reads : Reads operand fun e used => Finds e.walk used)
    (bound : Nat) {left : Expr} {before : List Token} (found : Finds left.walk before) :
    Reads (operators operand bound left) fun e used => Finds e.walk (before ++ used) := by
  induction bound generalizing left before with
  | zero =>
    intro ts e rest _ run
    obtain ⟨rfl, rfl⟩ := pure_ok.1 run
    exact ⟨[], rfl, by simpa using found⟩
  | succ bound ih =>
    intro ts e rest spelt run
    obtain ⟨taken, mid, runTake, runRest⟩ := bind_ok.1 run
    rcases take?_ok.1 runTake with ⟨op, sign, rfl, rfl, isOp⟩ | ⟨rfl, rfl, -⟩
    · obtain ⟨right, mid', runOperand, runLoop⟩ := bind_ok.1 runRest
      obtain ⟨-, restSpelt⟩ := allSpelt_cons.1 spelt
      obtain ⟨used, rfl, foundRight⟩ := reads _ _ _ restSpelt runOperand
      have apart : sign.kind.separates := by
        rw [binaryOp?_eq_some.1 isOp]
        rfl
      have attached : Finds (left.attach op sign.excerpt right).walk (before ++ sign :: used) := by
        rw [Finds, Expr.calls_attach, ← List.filter_append]
        exact found.between apart foundRight
      obtain ⟨more, rfl, whole⟩ := ih attached _ _ _ (allSpelt_append.1 restSpelt).2 runLoop
      exact ⟨sign :: (used ++ more), by simp, by simpa using whole⟩
    · obtain ⟨rfl, rfl⟩ := pure_ok.1 runRest
      exact ⟨[], rfl, by simpa using found⟩

theorem expressionWithin_finds (bound : Nat) :
    Reads (expressionWithin bound) fun e used => Finds e.walk used := by
  induction bound with
  | zero =>
    intro ts e rest _ run
    exact absurd run refuse_ok
  | succ bound ih =>
    intro ts e rest spelt run
    obtain ⟨start, mid, runStart, runRest⟩ := bind_ok.1 run
    rcases assignmentStart?_ok.1 runStart with
      ⟨target, sign, rfl, rfl, -, isSign⟩ | ⟨rfl, rfl, -⟩
    · obtain ⟨value, mid', runValue, same⟩ := bind_ok.1 runRest
      obtain ⟨rfl, rfl⟩ := pure_ok.1 same
      simp only [allSpelt_cons] at spelt
      obtain ⟨used, rfl, found⟩ := ih _ _ _ spelt.2.2 runValue
      have apart : sign.kind.separates := by rw [isSign]; rfl
      -- the target is no call, for the sign is behind it
      have before : Finds [] [target] := by simp [Finds, Token.callHeads]
      refine ⟨target :: sign :: used, rfl, .node rfl ?_⟩
      simpa [Expr.children] using before.between apart found
    · obtain ⟨first, mid', runFirst, runLoop⟩ := bind_ok.1 runRest
      have operand := prefixed_finds (primary_finds ih (bound + 1)) (bound + 1)
      obtain ⟨used, rfl, found⟩ := operand _ _ _ spelt runFirst
      obtain ⟨more, rfl, whole⟩ :=
        operators_finds operand (bound + 1) found _ _ _ (allSpelt_append.1 spelt).2 runLoop
      exact ⟨used ++ more, by simp, whole⟩

theorem expression_finds : Reads expression fun e used => Finds e.walk used := by
  intro ts e rest spelt run
  exact expressionWithin_finds _ ts e rest spelt run

end Expressions

/-! ## Readers of statements -/

/-- Tokens that end with one that no call reaches over, and the calls that are found in front
of it. -/
def FindsThrough (es : List Expr) (used : List Token) : Prop :=
  ∃ front last, used = front ++ [last] ∧ last.kind.separates ∧ Finds es front

namespace FindsThrough

variable {es es' : List Expr} {used used' : List Token} {t : Token}

theorem of_finds (finds : Finds es used) (apart : t.kind.separates) :
    FindsThrough es (used ++ [t]) := ⟨used, t, rfl, apart, finds⟩

theorem cons (other : t.kind.isCallable = false) (through : FindsThrough es used) :
    FindsThrough es (t :: used) := by
  obtain ⟨front, last, rfl, apart, finds⟩ := through
  exact ⟨t :: front, last, rfl, apart, finds.cons other⟩

theorem append_finds (through : FindsThrough es used) (second : Finds es' used') :
    Finds (es ++ es') (used ++ used') := by
  obtain ⟨front, last, rfl, apart, finds⟩ := through
  simpa using finds.between apart second

theorem append (through : FindsThrough es used) (second : FindsThrough es' used') :
    FindsThrough (es ++ es') (used ++ used') := by
  obtain ⟨front, last, rfl, apart, finds⟩ := second
  exact ⟨used ++ front, last, by simp, apart, through.append_finds finds⟩

end FindsThrough

section Statements

variable {ts rest : List Token} {first : Token} {body : Parse (Block Stmt)}

theorem unlessNext_finds (stop : TokenKind) : Reads (unlessNext stop expression) fun e used =>
    Finds (e.toList.flatMap Expr.walk) used := by
  intro ts e rest spelt run
  rcases unlessNext_ok.1 run with ⟨rfl, rfl, -⟩ | ⟨a, rfl, runExpr, -⟩
  · exact ⟨[], rfl, .nil⟩
  · obtain ⟨used, rfl, found⟩ := expression_finds _ _ _ spelt runExpr
    exact ⟨used, rfl, by simpa using found⟩

theorem varDecl_finds : Reads varDecl fun decl used =>
    FindsThrough (decl.init.toList.flatMap Expr.walk) used := by
  intro ts decl rest spelt run
  obtain ⟨type, name, tail, init, last, rfl, isType, -, initializes, isLast, rfl⟩ :=
    varDecl_ok.1 run
  have typed : type.kind.isCallable = false := by
    cases kind : type.kind <;> simp_all [TokenKind.isType, TokenKind.isCallable]
  have ends : last.kind.separates := by rw [isLast]; rfl
  -- the name is not called, for a sign or a semicolon is behind it
  have named : Finds [] [name] := by simp [Finds, Token.callHeads]
  simp only [allSpelt_cons] at spelt
  rcases initializes with ⟨sign, after, e, rfl, isSign, rfl, runExpr⟩ | ⟨rfl, rfl, -⟩
  · obtain ⟨used, rfl, found⟩ := expression_finds _ _ _ (allSpelt_cons.1 spelt.2.2).2 runExpr
    have apart : sign.kind.separates := by rw [isSign]; rfl
    refine ⟨type :: name :: sign :: used ++ [last], by simp, .of_finds (.cons typed ?_) ends⟩
    simpa using named.between apart found
  · exact ⟨[type, name] ++ [last], rfl, .of_finds (.cons typed named) ends⟩

theorem exprStmt_finds : Reads exprStmt fun s used => FindsThrough s.walk used := by
  intro ts s rest spelt run
  obtain ⟨e, last, runExpr, isLast, rfl⟩ := exprStmt_ok.1 run
  obtain ⟨used, rfl, found⟩ := expression_finds _ _ _ spelt runExpr
  have ends : last.kind.separates := by rw [isLast]; rfl
  refine ⟨used ++ [last], by simp, .of_finds ?_ ends⟩
  simpa [Stmt.walk_eq, Stmt.expressions, Stmt.children] using found

theorem returnStmt_finds (isReturn : first.kind = .returnWord) :
    Reads (returnStmt first) fun s used => FindsThrough s.walk (first :: used) := by
  intro ts s rest spelt run
  obtain ⟨value, last, runValue, isLast, rfl⟩ := returnStmt_ok.1 run
  obtain ⟨used, rfl, found⟩ := unlessNext_finds _ _ _ _ spelt runValue
  have other : first.kind.isCallable = false := by rw [isReturn]; rfl
  have ends : last.kind.separates := by rw [isLast]; rfl
  refine ⟨used ++ [last], by simp, .cons other (.of_finds ?_ ends)⟩
  simpa [Stmt.walk_eq, Stmt.expressions, Stmt.children] using found

theorem condition_finds (opening : Expectation) :
    Reads (condition opening) fun e used => FindsThrough e.walk used := by
  intro ts e rest spelt run
  obtain ⟨paren, tail, closing, rfl, isParen, runExpr, isClosing⟩ := condition_ok.1 run
  obtain ⟨used, rfl, found⟩ := expression_finds _ _ _ (allSpelt_cons.1 spelt).2 runExpr
  have other : paren.kind.isCallable = false := by rw [isParen]; rfl
  have ends : closing.kind.separates := by rw [isClosing]; rfl
  exact ⟨paren :: (used ++ [closing]), by simp, .cons other (.of_finds found ends)⟩

/-- Behind each statement the calls of those that follow are found on their own. -/
theorem Items.finds {statements : List Stmt} {used : List Token}
    (items : Items (fun s used => FindsThrough s.walk used) statements used) :
    Finds (statements.flatMap Stmt.walk) used := by
  induction items with
  | nil => exact .nil
  | semicolon isSemicolon _ ih => exact ih.cons (by rw [isSemicolon]; rfl)
  | item through _ ih =>
    rw [List.flatMap_cons]
    exact through.append_finds ih

theorem block_finds {stmt : Parse Stmt} (reads : Reads stmt fun s used => FindsThrough s.walk used)
    (bound : Nat) :
    Reads (block stmt bound) fun b used => FindsThrough (Stmt.block b).walk used := by
  intro ts b rest spelt run
  obtain ⟨opening, tail, statements, closing, rfl, isOpening, runAll, isClosing, rfl⟩ :=
    block_ok.1 run
  obtain ⟨used, rfl, items⟩ := sequence_items reads _ _ _ _ _ (allSpelt_cons.1 spelt).2 runAll
  have other : opening.kind.isCallable = false := by rw [isOpening]; rfl
  have ends : closing.kind.separates := by rw [isClosing]; rfl
  refine ⟨opening :: (used ++ [closing]), by simp, .cons other (.of_finds ?_ ends)⟩
  simpa [Stmt.walk_eq, Stmt.expressions, Stmt.children] using items.finds

variable (reads : Reads body fun b used => FindsThrough (Stmt.block b).walk used)
include reads

theorem whileStmt_finds (isWhile : first.kind = .whileWord) :
    Reads (whileStmt body first) fun s used => FindsThrough s.walk (first :: used) := by
  intro ts s rest spelt run
  obtain ⟨test, mid, inner, runTest, runBody, rfl⟩ := whileStmt_ok.1 run
  obtain ⟨used, rfl, tested⟩ := condition_finds _ _ _ _ spelt runTest
  obtain ⟨used', rfl, found⟩ := reads _ _ _ (allSpelt_append.1 spelt).2 runBody
  have other : first.kind.isCallable = false := by rw [isWhile]; rfl
  refine ⟨used ++ used', by simp, .cons other ?_⟩
  rw [Stmt.walk_eq]
  simpa [Stmt.expressions, Stmt.children] using tested.append found

theorem alternates_finds {elseBlock : Option (Block Stmt)} {before : List Token} {es : List Expr}
    (spelt : AllSpelt ts) (alternates : Alternates body ts elseBlock rest)
    (through : FindsThrough es before) : ∃ used, ts = used ++ rest ∧
      FindsThrough (es ++ elseBlock.toList.flatMap fun b => (Stmt.block b).walk) (before ++ used) := by
  rcases alternates with ⟨word, tail, b, rfl, isElse, rfl, runElse⟩ | ⟨rfl, rfl, -⟩
  · obtain ⟨used, rfl, found⟩ := reads _ _ _ (allSpelt_cons.1 spelt).2 runElse
    have other : word.kind.isCallable = false := by rw [isElse]; rfl
    exact ⟨word :: used, rfl, by simpa using through.append (found.cons other)⟩
  · exact ⟨[], rfl, by simpa using through⟩

theorem ifStmt_finds (isIf : first.kind = .ifWord) :
    Reads (ifStmt body first) fun s used => FindsThrough s.walk (first :: used) := by
  intro ts s rest spelt run
  obtain ⟨test, mid, thenBlock, after, elseBlock, runTest, runThen, alternates, rfl⟩ :=
    ifStmt_ok.1 run
  obtain ⟨used, rfl, tested⟩ := condition_finds _ _ _ _ spelt runTest
  have midSpelt := (allSpelt_append.1 spelt).2
  obtain ⟨used', rfl, found⟩ := reads _ _ _ midSpelt runThen
  obtain ⟨used'', rfl, whole⟩ :=
    alternates_finds reads (allSpelt_append.1 midSpelt).2 alternates (tested.append found)
  have other : first.kind.isCallable = false := by rw [isIf]; rfl
  refine ⟨used ++ used' ++ used'', by simp, .cons other ?_⟩
  rw [Stmt.walk_eq]
  cases elseBlock <;> simpa [Stmt.expressions, Stmt.children] using whole

omit reads in
theorem forInit_finds : Reads forInit fun init used =>
    FindsThrough ((Stmt.expressions.first init).flatMap Expr.walk) used := by
  intro ts init rest spelt run
  rcases forInit_ok.1 run with ⟨rfl, t, rfl, isSemicolon⟩ | ⟨decl, rfl, runDecl⟩ |
    ⟨s, rfl, runStmt, -⟩
  · have ends : t.kind.separates := by rw [isSemicolon]; rfl
    exact ⟨[t], rfl, .of_finds .nil ends⟩
  · exact varDecl_finds _ _ _ spelt runDecl
  · obtain ⟨used, rfl, found⟩ := exprStmt_finds _ _ _ spelt runStmt
    obtain ⟨e, last, -, -, rfl⟩ := exprStmt_ok.1 runStmt
    refine ⟨used, rfl, ?_⟩
    simpa [Stmt.walk_eq, Stmt.expressions, Stmt.expressions.first, Stmt.children] using found

theorem forStmt_finds (isFor : first.kind = .forWord) :
    Reads (forStmt body first) fun s used => FindsThrough s.walk (first :: used) := by
  intro ts s rest spelt run
  obtain ⟨paren, tail, init, afterInit, test, semicolon, afterTest, update, closing, afterUpdate,
    inner, rfl, isParen, runInit, runTest, isSemicolon, runUpdate, isClosing, runBody, rfl⟩ :=
    forStmt_ok.1 run
  obtain ⟨initUsed, rfl, initFound⟩ := forInit_finds _ _ _ (allSpelt_cons.1 spelt).2 runInit
  simp only [allSpelt_append, allSpelt_cons] at spelt
  obtain ⟨testUsed, rfl, testFound⟩ := unlessNext_finds _ _ _ _ spelt.2.2 runTest
  simp only [allSpelt_append, allSpelt_cons] at spelt
  obtain ⟨updateUsed, rfl, updateFound⟩ := unlessNext_finds _ _ _ _ spelt.2.2.2.2 runUpdate
  simp only [allSpelt_append, allSpelt_cons] at spelt
  obtain ⟨used, rfl, found⟩ := reads _ _ _ spelt.2.2.2.2.2.2 runBody
  have other : first.kind.isCallable = false := by rw [isFor]; rfl
  have opens : paren.kind.isCallable = false := by rw [isParen]; rfl
  have between : semicolon.kind.separates := by rw [isSemicolon]; rfl
  have closes : closing.kind.separates := by rw [isClosing]; rfl
  have clauses := (initFound.append (.of_finds testFound between)).append
    (.of_finds updateFound closes)
  refine ⟨paren :: (initUsed ++ (testUsed ++ [semicolon]) ++ (updateUsed ++ [closing]) ++ used),
    by simp, .cons other (.cons opens ?_)⟩
  rw [Stmt.walk_eq]
  simpa [Stmt.expressions, Stmt.children] using clauses.append found

theorem stmtWith_finds : Reads (stmtWith body) fun s used => FindsThrough s.walk used := by
  intro ts s rest spelt run
  cases ts with
  | nil => exact exprStmt_finds _ _ _ spelt run
  | cons t tail =>
    have behind {parse : Parse Stmt}
        (found : Reads parse fun s used => FindsThrough s.walk (t :: used))
        (run : parse tail = .ok (s, rest)) :
        ∃ used, t :: tail = used ++ rest ∧ FindsThrough s.walk used := by
      obtain ⟨used, rfl, through⟩ := found _ _ _ (allSpelt_cons.1 spelt).2 run
      exact ⟨t :: used, rfl, through⟩
    simp only [stmtWith] at run
    split at run
    case h_1 =>
      obtain ⟨decl, runDecl, rfl⟩ := map_ok.1 run
      obtain ⟨used, same, through⟩ := varDecl_finds _ _ _ spelt runDecl
      refine ⟨used, same, ?_⟩
      simpa [Stmt.walk_eq, Stmt.expressions, Stmt.children] using through
    case h_2 kind => exact behind (ifStmt_finds reads kind) run
    case h_3 kind => exact behind (whileStmt_finds reads kind) run
    case h_4 kind => exact behind (forStmt_finds reads kind) run
    case h_5 kind => exact behind (returnStmt_finds kind) run
    case h_6 =>
      obtain ⟨b, runBlock, rfl⟩ := map_ok.1 run
      exact reads _ _ _ spelt runBlock
    case h_7 => exact exprStmt_finds _ _ _ spelt run

end Statements

theorem stmtWithin_finds (bound : Nat) :
    Reads (stmtWithin bound) fun s used => FindsThrough s.walk used := by
  induction bound with
  | zero => exact exprStmt_finds
  | succ bound ih => exact stmtWith_finds (block_finds ih bound)

/-- The calls of a body are found among its tokens. -/
theorem body_finds : Reads body fun b used => FindsThrough (Stmt.block b).walk used :=
  fun ts _ _ spelt run => block_finds (stmtWithin_finds ts.length) ts.length _ _ _ spelt run

end Grammar

end ProcCheck
