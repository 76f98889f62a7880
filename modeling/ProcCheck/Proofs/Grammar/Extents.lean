import ProcCheck.Proofs.Grammar.ExpressionExtents

/-!
# Statements and declarations and the tokens that they take

The readers of statements return settled nodes if the reader of blocks does, and it does at each
bound if they do at the bound below. From them declarations, and with these the whole program, are
settled on the tokens that they are read from.
-/

namespace ProcCheck

namespace Node.Settled

variable {s : Stmt} {b : Block Stmt} {used : List Token}

theorem stmt_ne_nil (settled : (Node.stmt s).Settled used) : used ≠ [] := by
  obtain ⟨t, tail, rfl, -⟩ := Stmt.SpeltBy.starts settled.spelt
  exact List.cons_ne_nil t tail

theorem stmt_span (settled : (Node.stmt s).Settled used) : s.span = (Token.excerpts used).span :=
  settled.span settled.stmt_ne_nil

theorem block_spelt (settled : (Node.stmt (.block b)).Settled used) : b.SpeltBy used := by
  obtain ⟨canonical, spell⟩ := settled.spelt
  cases canonical with
  | block each => exact ⟨each, spell⟩

end Node.Settled

/-- A declaration of a variable stands on the tokens that spell it, wherever it is declared. -/
structure VarDecl.SettledOn (decl : VarDecl) (used : List Token) : Prop where
  spelt : decl.SpeltBy used
  span : decl.span = (Token.excerpts used).span
  parts : Parts Node.Settled (decl.init.toList.map .expr) used

theorem VarDecl.SettledOn.global {decl : VarDecl} {used : List Token}
    (settled : decl.SettledOn used) : (Node.global decl).Settled used :=
  .node settled.spelt (fun _ => settled.span) settled.parts

theorem VarDecl.SettledOn.stmt {decl : VarDecl} {used : List Token}
    (settled : decl.SettledOn used) : (Node.stmt (.var decl)).Settled used :=
  .node ⟨.var settled.spelt.1, settled.spelt.2⟩ (fun _ => settled.span) settled.parts

namespace Grammar

variable {ts rest : List Token}

/-! ## Parts of statements -/

theorem unlessNext_settled {stop : TokenKind} {e : Option Expr} (spelt : AllSpelt ts)
    (run : unlessNext stop expression ts = .ok (e, rest)) :
    ∃ used, ts = used ++ rest ∧ Parts Node.Settled (e.toList.map .expr) used := by
  rcases unlessNext_ok.1 run with ⟨rfl, rfl, -⟩ | ⟨a, rfl, runExpr, -⟩
  · exact ⟨[], rfl, .nil⟩
  · obtain ⟨used, rfl, settled⟩ := expression_settled _ _ _ spelt runExpr
    exact ⟨used, rfl, .single settled.settled⟩

theorem initializes_settled {init : Option Expr} (spelt : AllSpelt ts)
    (initializes : Initializes ts init rest) :
    ∃ used, ts = used ++ rest ∧ Parts Node.Settled (init.toList.map .expr) used := by
  rcases initializes with ⟨sign, tail, e, rfl, -, rfl, runExpr⟩ | ⟨rfl, rfl, -⟩
  · obtain ⟨used, rfl, settled⟩ := expression_settled _ _ _ (allSpelt_cons.1 spelt).2 runExpr
    exact ⟨sign :: used, rfl, .skip (.single settled.settled)⟩
  · exact ⟨[], rfl, .nil⟩

theorem varDecl_settled : Reads varDecl VarDecl.SettledOn := by
  intro ts decl rest spelt run
  obtain ⟨used, same, speltBy⟩ := varDecl_reads _ _ _ spelt run
  obtain ⟨type, name, tail, init, last, rfl, -, -, initializes, -, rfl⟩ := varDecl_ok.1 run
  simp only [allSpelt_cons] at spelt
  obtain ⟨mine, rfl, parts⟩ := initializes_settled spelt.2.2 initializes
  obtain rfl : used = type :: name :: (mine ++ [last]) :=
    List.append_cancel_right (by rw [← same]; simp)
  refine ⟨_, same, speltBy, ?_, .skip (.skip (parts.before _))⟩
  exact (Token.excerpts_ends type (name :: mine) (List.cons_ne_nil last [])).symm

theorem exprStmt_settled : Reads exprStmt fun s used => (Node.stmt s).Settled used := by
  intro ts s rest spelt run
  obtain ⟨used, same, speltBy⟩ := exprStmt_reads _ _ _ spelt run
  obtain ⟨e, last, runExpr, -, rfl⟩ := exprStmt_ok.1 run
  obtain ⟨mine, rfl, settled⟩ := expression_settled _ _ _ spelt runExpr
  obtain rfl : used = mine ++ [last] := List.append_cancel_right (by rw [← same]; simp)
  refine ⟨_, same, .node speltBy (fun _ => ?_) ((Parts.single settled.settled).before _)⟩
  rw [Token.excerpts_append settled.ne_nil (List.cons_ne_nil last []), Excerpt.span_append,
    ← settled.span]
  rfl

theorem condition_settled (opening : Expectation) : Reads (condition opening) fun e used =>
    Parts Node.Settled [.expr e] used := by
  intro ts e rest spelt run
  obtain ⟨paren, tail, closing, rfl, -, runExpr, -⟩ := condition_ok.1 run
  obtain ⟨used, rfl, settled⟩ := expression_settled _ _ _ (allSpelt_cons.1 spelt).2 runExpr
  exact ⟨paren :: (used ++ [closing]), by simp, .skip ((Parts.single settled.settled).before _)⟩

theorem block_settled {stmt : Parse Stmt}
    (reads : Reads stmt fun s used => (Node.stmt s).Settled used) (bound : Nat) :
    Reads (block stmt bound) fun b used => (Node.stmt (.block b)).Settled used := by
  intro ts b rest spelt run
  obtain ⟨used, same, each, spell⟩ :=
    block_reads (reads.mono fun _ _ settled => settled.spelt) bound _ _ _ spelt run
  obtain ⟨opening, tail, statements, closing, rfl, -, runAll, -, rfl⟩ := block_ok.1 run
  obtain ⟨mine, rfl, items⟩ :=
    sequence_items reads _ _ _ _ _ (allSpelt_cons.1 spelt).2 runAll
  obtain rfl : used = opening :: (mine ++ [closing]) :=
    List.append_cancel_right (by rw [← same]; simp)
  refine ⟨_, same, .node ⟨.block each, spell⟩ (fun _ => ?_) ?_⟩
  · exact (Token.excerpts_ends opening mine (List.cons_ne_nil closing [])).symm
  · exact .skip ((Parts.map (.of_items items)).before _)

/-! ## Statements -/

section Body

variable {body : Parse (Block Stmt)} {first : Token}

theorem returnStmt_settled (isReturn : first.lexeme = .fixed .returnWord) :
    Reads (returnStmt first) fun s used => (Node.stmt s).Settled (first :: used) := by
  intro ts s rest spelt run
  obtain ⟨used, same, speltBy⟩ := returnStmt_reads isReturn _ _ _ spelt run
  obtain ⟨value, last, runValue, -, rfl⟩ := returnStmt_ok.1 run
  obtain ⟨mine, rfl, parts⟩ := unlessNext_settled spelt runValue
  obtain rfl : used = mine ++ [last] := List.append_cancel_right (by rw [← same]; simp)
  refine ⟨_, same, .node speltBy (fun _ => ?_) (.skip (parts.before _))⟩
  exact (Token.excerpts_ends first mine (List.cons_ne_nil last [])).symm

variable (reads : Reads body fun b used => (Node.stmt (.block b)).Settled used)

include reads

theorem alternates_settled {elseBlock : Option (Block Stmt)} (spelt : AllSpelt ts)
    (alternates : Alternates body ts elseBlock rest) :
    ∃ used, ts = used ++ rest ∧
      ((elseBlock = none ∧ used = []) ∨ ∃ b word mine, elseBlock = some b ∧
        used = word :: mine ∧ (Node.stmt (.block b)).Settled mine) := by
  rcases alternates with ⟨word, tail, b, rfl, -, rfl, runBody⟩ | ⟨rfl, rfl, -⟩
  · obtain ⟨mine, rfl, settled⟩ := reads _ _ _ (allSpelt_cons.1 spelt).2 runBody
    exact ⟨word :: mine, rfl, .inr ⟨b, word, mine, rfl, rfl, settled⟩⟩
  · exact ⟨[], rfl, .inl ⟨rfl, rfl⟩⟩

theorem ifStmt_settled (isIf : first.lexeme = .fixed .ifWord) :
    Reads (ifStmt body first) fun s used => (Node.stmt s).Settled (first :: used) := by
  intro ts s rest spelt run
  obtain ⟨used, same, speltBy⟩ :=
    ifStmt_reads (reads.mono fun _ _ settled => settled.block_spelt) isIf _ _ _ spelt run
  obtain ⟨test, mid, thenBlock, after, elseBlock, runTest, runThen, alternates, rfl⟩ :=
    ifStmt_ok.1 run
  obtain ⟨testUsed, rfl, testParts⟩ := condition_settled _ _ _ _ spelt runTest
  obtain ⟨-, midSpelt⟩ := allSpelt_append.1 spelt
  obtain ⟨thenUsed, rfl, thenSettled⟩ := reads _ _ _ midSpelt runThen
  obtain ⟨-, afterSpelt⟩ := allSpelt_append.1 midSpelt
  obtain ⟨elseUsed, rfl, alternative⟩ := alternates_settled reads afterSpelt alternates
  have front : Parts Node.Settled [.expr test, .stmt (.block thenBlock)] (testUsed ++ thenUsed) :=
    testParts.append (.single thenSettled)
  obtain rfl : used = testUsed ++ thenUsed ++ elseUsed :=
    List.append_cancel_right (by rw [← same]; simp)
  rcases alternative with ⟨rfl, rfl⟩ | ⟨b, word, mine, rfl, rfl, elseSettled⟩
  · refine ⟨_, same, .node speltBy (fun _ => ?_) (.skip (front.before _))⟩
    rw [List.append_nil, Token.excerpts_ends first testUsed thenSettled.stmt_ne_nil,
      ← thenSettled.stmt_span]
    rfl
  · refine ⟨_, same, .node speltBy (fun _ => ?_) (.skip (front.append (.skip (.single elseSettled))))⟩
    rw [List.append_cons, Token.excerpts_ends first _ elseSettled.stmt_ne_nil,
      ← elseSettled.stmt_span]
    rfl

theorem whileStmt_settled (isWhile : first.lexeme = .fixed .whileWord) :
    Reads (whileStmt body first) fun s used => (Node.stmt s).Settled (first :: used) := by
  intro ts s rest spelt run
  obtain ⟨used, same, speltBy⟩ :=
    whileStmt_reads (reads.mono fun _ _ settled => settled.block_spelt) isWhile _ _ _ spelt run
  obtain ⟨test, mid, inner, runTest, runBody, rfl⟩ := whileStmt_ok.1 run
  obtain ⟨testUsed, rfl, testParts⟩ := condition_settled _ _ _ _ spelt runTest
  obtain ⟨mine, rfl, settled⟩ := reads _ _ _ (allSpelt_append.1 spelt).2 runBody
  obtain rfl : used = testUsed ++ mine := List.append_cancel_right (by rw [← same]; simp)
  refine ⟨_, same, .node speltBy (fun _ => ?_) (.skip (testParts.append (.single settled)))⟩
  rw [Token.excerpts_ends first testUsed settled.stmt_ne_nil, ← settled.stmt_span]
  rfl

omit reads in
theorem forInit_settled : Reads forInit fun init used =>
    Parts Node.Settled (init.toList.map .stmt) used := by
  intro ts init rest spelt run
  rcases forInit_ok.1 run with ⟨rfl, t, rfl, -⟩ | ⟨decl, rfl, runDecl⟩ | ⟨s, rfl, runStmt, -⟩
  · exact ⟨[t], rfl, .none _⟩
  · obtain ⟨used, rfl, settled⟩ := varDecl_settled _ _ _ spelt runDecl
    exact ⟨used, rfl, .single settled.stmt⟩
  · obtain ⟨used, rfl, settled⟩ := exprStmt_settled _ _ _ spelt runStmt
    exact ⟨used, rfl, .single settled⟩

theorem forStmt_settled (isFor : first.lexeme = .fixed .forWord) :
    Reads (forStmt body first) fun s used => (Node.stmt s).Settled (first :: used) := by
  intro ts s rest spelt run
  obtain ⟨used, same, speltBy⟩ :=
    forStmt_reads (reads.mono fun _ _ settled => settled.block_spelt) isFor _ _ _ spelt run
  obtain ⟨paren, tail, init, afterInit, test, semicolon, afterTest, update, closing, afterUpdate,
    inner, rfl, -, runInit, runTest, -, runUpdate, -, runBody, rfl⟩ := forStmt_ok.1 run
  obtain ⟨initUsed, rfl, initParts⟩ := forInit_settled _ _ _ (allSpelt_cons.1 spelt).2 runInit
  simp only [allSpelt_cons, allSpelt_append] at spelt
  obtain ⟨testUsed, rfl, testParts⟩ := unlessNext_settled spelt.2.2 runTest
  simp only [allSpelt_cons, allSpelt_append] at spelt
  obtain ⟨updateUsed, rfl, updateParts⟩ := unlessNext_settled spelt.2.2.2.2 runUpdate
  simp only [allSpelt_cons, allSpelt_append] at spelt
  obtain ⟨mine, rfl, settled⟩ := reads _ _ _ spelt.2.2.2.2.2.2 runBody
  obtain rfl : used =
      (paren :: (initUsed ++ (testUsed ++ semicolon :: (updateUsed ++ [closing])))) ++ mine :=
    List.append_cancel_right (by rw [← same]; simp)
  refine ⟨_, same, .node speltBy (fun _ => ?_) ?_⟩
  · rw [Token.excerpts_ends first _ settled.stmt_ne_nil, ← settled.stmt_span]
    rfl
  · have last := updateParts.append (.skip (t := closing) (.single settled))
    have clauses := initParts.append (testParts.append (.skip (t := semicolon) last))
    simp only [List.cons_append, List.append_assoc, List.nil_append]
    exact .skip (.skip clauses)

theorem stmtWith_settled : Reads (stmtWith body) fun s used => (Node.stmt s).Settled used := by
  intro ts s rest spelt run
  cases ts with
  | nil => exact exprStmt_settled _ _ _ spelt run
  | cons t tail =>
    obtain ⟨tSpelt, tailSpelt⟩ := allSpelt_cons.1 spelt
    have behind {p : Parse Stmt}
        (settles : Reads p fun s used => (Node.stmt s).Settled (t :: used))
        (runTail : p tail = .ok (s, rest)) :
        ∃ used, t :: tail = used ++ rest ∧ (Node.stmt s).Settled used := by
      obtain ⟨used, rfl, settled⟩ := settles _ _ _ tailSpelt runTail
      exact ⟨t :: used, rfl, settled⟩
    simp only [stmtWith] at run
    split at run
    case h_1 =>
      obtain ⟨decl, runDecl, rfl⟩ := map_ok.1 run
      obtain ⟨used, same, settled⟩ := varDecl_settled _ _ _ spelt runDecl
      exact ⟨used, same, settled.stmt⟩
    case h_2 kind => exact behind (ifStmt_settled reads (Token.lexeme_fixed tSpelt kind rfl)) run
    case h_3 kind =>
      exact behind (whileStmt_settled reads (Token.lexeme_fixed tSpelt kind rfl)) run
    case h_4 kind => exact behind (forStmt_settled reads (Token.lexeme_fixed tSpelt kind rfl)) run
    case h_5 kind => exact behind (returnStmt_settled (Token.lexeme_fixed tSpelt kind rfl)) run
    case h_6 =>
      obtain ⟨b, runBody, rfl⟩ := map_ok.1 run
      exact reads _ _ _ spelt runBody
    case h_7 => exact exprStmt_settled _ _ _ spelt run

end Body

theorem stmtWithin_settled (bound : Nat) :
    Reads (stmtWithin bound) fun s used => (Node.stmt s).Settled used := by
  induction bound with
  | zero => exact exprStmt_settled
  | succ bound ih => exact stmtWith_settled (block_settled ih bound)

/-! ## Declarations -/

theorem param_settled : Reads param fun p used => (Node.param p).Settled used := by
  intro ts p rest spelt run
  obtain ⟨used, same, speltBy⟩ := param_reads _ _ _ spelt run
  obtain ⟨type, name, rfl, -, -, rfl⟩ := param_ok.1 run
  obtain rfl : used = [type, name] := List.append_cancel_right same.symm
  exact ⟨_, same, .node speltBy (fun _ => rfl) (.none _)⟩

theorem paramList_settled {params? : Option (List Param)} (spelt : AllSpelt ts)
    (run : unlessNext .closeParen params ts = .ok (params?, rest)) :
    ∃ used, ts = used ++ rest ∧ Parts Node.Settled ((params?.getD []).map .param) used := by
  rcases unlessNext_ok.1 run with ⟨rfl, rfl, -⟩ | ⟨list, rfl, runList, -⟩
  · exact ⟨[], rfl, .nil⟩
  · obtain ⟨⟨first, more⟩, runItems, rfl⟩ := map_ok.1 runList
    obtain ⟨used, rfl, firstUsed, tail, rfl, settled, others⟩ :=
      commaList_reads param_settled _ _ _ _ spelt runItems
    exact ⟨firstUsed ++ tail, rfl, .map (.part settled (.of_commaTail others))⟩

theorem functionDecl_settled {type name : Token} (typeSpelt : type.isSpelt)
    (isType : type.kind.isType) (nameSpelt : name.isSpelt) (callable : name.kind.isCallable) :
    Reads (functionDecl type name) fun decl used =>
      (Node.function decl).Settled (type :: name :: used) := by
  intro ts decl rest spelt run
  obtain ⟨used, same, speltBy⟩ :=
    functionDecl_reads typeSpelt isType nameSpelt callable _ _ _ spelt run
  obtain ⟨paren, tail, params?, closing, after, inner, rfl, -, runParams, -, runBody, rfl⟩ :=
    functionDecl_ok.1 run
  obtain ⟨paramUsed, rfl, params⟩ := paramList_settled (allSpelt_cons.1 spelt).2 runParams
  simp only [allSpelt_cons, allSpelt_append] at spelt
  obtain ⟨mine, rfl, settled⟩ :=
    block_settled (stmtWithin_settled after.length) _ _ _ _ spelt.2.2.2 runBody
  obtain rfl : used = (paren :: (paramUsed ++ [closing])) ++ mine :=
    List.append_cancel_right (by rw [← same]; simp)
  refine ⟨_, same, .node speltBy (fun _ => ?_) ?_⟩
  · have ends := Token.excerpts_ends type (name :: paren :: (paramUsed ++ [closing]))
      settled.stmt_ne_nil
    rw [List.cons_append] at ends
    rw [ends, ← settled.stmt_span]
    rfl
  · have all := params.append (.skip (t := closing) (.single settled))
    simp only [List.cons_append, List.append_assoc, List.nil_append]
    exact .skip (.skip (.skip all))

theorem topLevel_settled : Reads topLevel fun node used => node.node.Settled used := by
  intro ts node rest spelt run
  rcases topLevel_cases run with ⟨type, name, tail, decl, rfl, isType, callable, runDecl, rfl⟩ |
    ⟨decl, runDecl, rfl⟩ | ⟨s, runStmt, rfl, -⟩
  · obtain ⟨typeSpelt, restSpelt⟩ := allSpelt_cons.1 spelt
    obtain ⟨nameSpelt, tailSpelt⟩ := allSpelt_cons.1 restSpelt
    obtain ⟨used, rfl, settled⟩ :=
      functionDecl_settled typeSpelt isType nameSpelt callable _ _ _ tailSpelt runDecl
    exact ⟨type :: name :: used, rfl, settled⟩
  · obtain ⟨used, same, settled⟩ := varDecl_settled _ _ _ spelt runDecl
    exact ⟨used, same, settled.global⟩
  · exact stmtWithin_settled _ _ _ _ spelt runStmt

end Grammar

/-- A program is settled on the tokens before the end token. -/
theorem Program.settled {body : List Token} {last : Token} {p : Program}
    (spelt : Grammar.AllSpelt body) (inside : ∀ t ∈ body, t.kind ≠ .endOfInput)
    (ends : last.isEnd) (read : Program.ofTokens (body ++ [last]) = .ok p) :
    (Node.program p).Settled body ∧
      p.span = (body.headD last).span ++ (body.getLast?.getD last).span := by
  simp only [Program.ofTokens, splitAtEnd_append inside ends] at read
  split at read
  next => cases read
  next nodes rest run =>
    cases read
    obtain ⟨rfl, canonical, spell⟩ := Grammar.declarations_reads spelt run
    obtain ⟨used, same, items⟩ :=
      Grammar.sequence_items Grammar.topLevel_settled _ _ _ _ _ spelt run
    obtain rfl : body = used := by simpa using same
    refine ⟨.node ⟨canonical, spell⟩ (fun some => ?_) (Parts.map (.of_items items)), rfl⟩
    obtain ⟨first, more, rfl⟩ := List.exists_cons_of_ne_nil some
    rw [Token.excerpts_span some]
    simp [Node.span, List.getLast?_eq_some_getLast some]
    rfl

end ProcCheck
