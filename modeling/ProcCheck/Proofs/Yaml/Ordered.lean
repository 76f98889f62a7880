import ProcCheck.Yaml.Document
import ProcCheck.Proofs.Text.KeyOrder

/-!
# Mappings of a document

Every mapping in the value of a document has each key once, and its entries are in the order of
their keys, however deep it is nested. A mapping is only made of pairs, which `Value.ofPairs` checks
and puts in order; so each reader hands ordered values on if the readers that it uses do.
-/

namespace ProcCheck.Yaml

/-- A value as a document denotes it: no mapping has a key twice, and the entries of each, which
are written in any order, are in the order of their keys. -/
inductive Value.IsOrdered : Value → Prop
  | null : IsOrdered .null
  | bool (b : Bool) : IsOrdered (.bool b)
  | number (x : Float) : IsOrdered (.number x)
  | string (t : Text) : IsOrdered (.string t)
  | list {items : List Value} (each : ∀ v ∈ items, IsOrdered v) : IsOrdered (.list items)
  | mapping {written : List (Text × Value)} (distinct : (written.map Prod.fst).Nodup)
      (each : ∀ e ∈ written, IsOrdered e.2) :
      IsOrdered (.mapping (Text.inKeyOrder Prod.fst written))

namespace Value

/-- The keys of a mapping are distinct. -/
theorem IsOrdered.distinct {entries : List (Text × Value)}
    (ordered : (Value.mapping entries).IsOrdered) : (entries.map Prod.fst).Nodup := by
  cases ordered with
  | mapping distinct each => exact (Text.inKeyOrder_perm.map Prod.fst).nodup_iff.2 distinct

/-- The entries of a mapping that is being read: no key comes twice, and the values are ordered. -/
structure AreEntries (entries : List (Text × Value)) : Prop where
  distinct : (entries.map Prod.fst).Nodup
  each : ∀ e ∈ entries, e.2.IsOrdered

theorem AreEntries.nil : AreEntries [] := ⟨.nil, nofun⟩

theorem AreEntries.concat {entries : List (Text × Value)} (entered : AreEntries entries)
    {key : Text} {v : Value} (new : entries.lookup key = none) (ordered : v.IsOrdered) :
    AreEntries (entries ++ [(key, v)]) := by
  constructor
  · rw [List.map_append, List.map_singleton]
    apply List.nodup_append.2
    refine ⟨entered.distinct, List.pairwise_singleton _ _, ?_⟩
    intro k member k' last same
    obtain ⟨e, isEntry, rfl⟩ := List.mem_map.1 member
    have other : (key != e.1) = true := List.lookup_eq_none_iff.1 new e isEntry
    rw [same, List.mem_singleton.1 last] at other
    simp at other
  · intro e member
    rcases List.mem_append.1 member with earlier | last
    · exact entered.each e earlier
    · rw [List.mem_singleton.1 last]
      exact ordered

/-- The entries of a mapping with one more pair. -/
def enter (entries : List (Text × Value)) (pair : Value × Value) :
    Except Fault (List (Text × Value)) := do
  let key ← keyText pair.1
  if (entries.lookup key).isSome then throw (.duplicateKey key)
  else return entries ++ [(key, pair.2)]

theorem ofPairs_eq (pairs : List (Value × Value)) : ofPairs pairs = do
    let entries ← pairs.foldlM enter []
    return mapping (Text.inKeyOrder Prod.fst entries) :=
  rfl

theorem AreEntries.enter {entries entries' : List (Text × Value)} (entered : AreEntries entries)
    {pair : Value × Value} (ordered : pair.2.IsOrdered)
    (added : enter entries pair = .ok entries') : AreEntries entries' := by
  unfold Value.enter at added
  cases text : keyText pair.1 with
  | error fault =>
    rw [text] at added
    cases added
  | ok key =>
    rw [text] at added
    change (if (entries.lookup key).isSome then _ else _) = _ at added
    split at added
    · cases added
    next new =>
      cases added
      exact entered.concat (Option.not_isSome_iff_eq_none.1 new) ordered

theorem AreEntries.enterAll {pairs : List (Value × Value)} {entries entries' : List (Text × Value)}
    (entered : AreEntries entries) (each : ∀ p ∈ pairs, p.2.IsOrdered)
    (added : pairs.foldlM Value.enter entries = .ok entries') : AreEntries entries' := by
  induction pairs generalizing entries with
  | nil =>
    cases added
    exact entered
  | cons pair pairs ih =>
    obtain ⟨ordered, each⟩ := List.forall_mem_cons.1 each
    rw [List.foldlM_cons] at added
    cases first : Value.enter entries pair with
    | error fault =>
      rw [first] at added
      cases added
    | ok next =>
      rw [first] at added
      exact ih (entered.enter ordered first) each added

/-- A mapping of ordered values is ordered, since a key that comes twice is refused. -/
theorem ofPairs_isOrdered {pairs : List (Value × Value)} {v : Value}
    (each : ∀ p ∈ pairs, p.2.IsOrdered) (made : ofPairs pairs = .ok v) : v.IsOrdered := by
  rw [ofPairs_eq] at made
  cases added : pairs.foldlM enter [] with
  | error fault =>
    rw [added] at made
    cases made
  | ok entries =>
    rw [added] at made
    cases made
    have entered := AreEntries.nil.enterAll each added
    exact .mapping entered.distinct entered.each

end Value

/-! ## Readers -/

/-- A reader gives only values with a property. -/
def Gives {α : Type} (P : α → Prop) (reader : Reader α) : Prop :=
  ∀ c a c', reader c = .ok (a, c') → P a

namespace Gives

variable {α β : Type} {P : α → Prop} {Q : β → Prop}

theorem pure {a : α} (holds : P a) : Gives P (pure a) := by
  intro c a' c' run
  cases run
  exact holds

theorem throw (fault : Fault) : Gives P (throw fault) := nofun

theorem bind {reader : Reader α} {next : α → Reader β} (first : Gives P reader)
    (then_ : ∀ a, P a → Gives Q (next a)) : Gives Q (reader >>= next) := by
  intro c b c' run
  change (reader c).bind (fun r => next r.1 r.2) = .ok (b, c') at run
  cases read : reader c with
  | error fault => rw [read] at run; cases run
  | ok r =>
    rw [read] at run
    exact then_ r.1 (first c r.1 r.2 read) r.2 b c' run

/-- Nothing is known of what the first reader gives. -/
theorem after {reader : Reader α} {next : α → Reader β} (then_ : ∀ a, Gives Q (next a)) :
    Gives Q (reader >>= next) :=
  bind (P := fun _ => True) (fun _ _ _ _ => trivial) fun a _ => then_ a

theorem lift {x : Except Fault α} (holds : ∀ a, x = .ok a → P a) :
    Gives P (liftM x) := by
  intro c a c' run
  cases result : x with
  | error fault => subst result; cases run
  | ok a' => subst result; cases run; exact holds _ rfl

theorem ite {c : Prop} [Decidable c] {yes no : Reader α} (ofYes : Gives P yes)
    (ofNo : Gives P no) : Gives P (if c then yes else no) := by
  split
  · exact ofYes
  · exact ofNo

end Gives

/-! ## Nodes -/

/-- A reader of nodes gives ordered values. -/
def GivesOrdered (node : Reader (Option Value)) : Prop := Gives (∀ v ∈ ·, v.IsOrdered) node

theorem isOrdered_getD {node : Option Value} (ordered : ∀ v ∈ node, v.IsOrdered) :
    (node.getD .null).IsOrdered := by
  cases node with
  | none => exact .null
  | some v => exact ordered v rfl

theorem forall_mem_some {v : Value} (ordered : v.IsOrdered) : ∀ w ∈ some v, w.IsOrdered := by
  intro w member
  rwa [← Option.some.inj member]

/-- An entry of a collection in brackets has ordered values. -/
def IsOrderedEntry (e : Value × Option Value) : Prop := e.1.IsOrdered ∧ ∀ v ∈ e.2, v.IsOrdered

theorem flowEntries_ordered {node : Reader (Option Value)} (nodes : GivesOrdered node)
    (closing : CodeUnit) (bound : Nat) (afterComma : Bool) :
    Gives (∀ e ∈ ·, IsOrderedEntry e) (flowEntries node closing bound afterComma) := by
  induction bound generalizing afterComma with
  | zero => exact .throw _
  | succ bound ih =>
    unfold flowEntries
    refine .after fun _ => .after fun c => .ite (.throw _) <|
      .ite (.after fun _ => .pure nofun) <| .ite (.throw _) <| .ite (.throw _) ?_
    extract_lets isExplicit entry
    -- The entry and those behind it, wherever its key starts.
    have ofEntry : ∀ u, Gives (∀ e ∈ ·, IsOrderedEntry e) (entry u) := by
      intro u
      refine .after fun c => .bind nodes fun key ofKey => .after fun _ => .after fun c => ?_
      extract_lets later
      have ofLater : ∀ v?, (∀ v ∈ v?, v.IsOrdered) →
          Gives (∀ e ∈ ·, IsOrderedEntry e) (later v?) := by
        intro v? ofValue
        refine .after fun _ => .after fun c => ?_
        extract_lets hasComma next
        have ofNext : ∀ u, Gives (∀ e ∈ ·, IsOrderedEntry e) (next u) := by
          intro u
          refine .bind (ih hasComma) fun entries each => .pure ?_
          exact List.forall_mem_cons.2 ⟨⟨isOrdered_getD ofKey, ofValue⟩, each⟩
        exact .ite (.after ofNext) (ofNext ())
      apply Gives.ite
      · refine .after fun _ => .after fun _ => .bind nodes fun value ofValue => ?_
        exact ofLater _ (forall_mem_some (isOrdered_getD ofValue))
      · apply ofLater
        split
        · exact forall_mem_some .null
        · nofun
    exact .ite (.after fun _ => .after ofEntry) (ofEntry ())

theorem itemValue_ordered {e : Value × Option Value} (ordered : IsOrderedEntry e) {v : Value}
    (made : itemValue e = .ok v) : v.IsOrdered := by
  obtain ⟨key, value?⟩ := e
  cases value? with
  | none =>
    cases made
    exact ordered.1
  | some value =>
    apply Value.ofPairs_isOrdered _ made
    intro p member
    rw [List.mem_singleton.1 member]
    exact ordered.2 value rfl

theorem mapM_itemValue_ordered {entries : List (Value × Option Value)}
    (each : ∀ e ∈ entries, IsOrderedEntry e) :
    Gives (∀ v ∈ ·, v.IsOrdered) (entries.mapM fun e => liftM (itemValue e)) := by
  induction entries with
  | nil => exact .pure nofun
  | cons e entries ih =>
    obtain ⟨ofEntry, ofEntries⟩ := List.forall_mem_cons.1 each
    rw [List.mapM_cons]
    refine .bind (.lift fun v => itemValue_ordered ofEntry) fun v ordered =>
      .bind (ih ofEntries) fun items ofItems => .pure ?_
    exact List.forall_mem_cons.2 ⟨ordered, ofItems⟩

/-- What a plain scalar denotes has no entries. -/
theorem ofPlain_isOrdered (t : Text) : (Value.ofPlain t).IsOrdered := by
  have noEntries : (Value.mapping []).IsOrdered := by
    have ordered := Value.IsOrdered.mapping Value.AreEntries.nil.distinct Value.AreEntries.nil.each
    rwa [Text.inKeyOrder_plain nofun] at ordered
  unfold Value.ofPlain
  split
  · exact .null
  · split
    next b known => exact .bool b
    · split
      next x isNumber => exact .number x
      · split
        next isDate => exact noEntries
        · exact .string t

theorem flowNode_ordered (levels : Nat) (inFlow : Bool) (indent : Int) :
    GivesOrdered (flowNode levels inFlow indent) := by
  induction levels generalizing inFlow with
  | zero => exact .throw _
  | succ levels ih =>
    unfold flowNode
    refine .after fun c => ?_
    extract_lets inner
    have entries := flowEntries_ordered (ih true)
    apply Gives.ite
    · refine .after fun _ => .bind (entries _ _ _) fun es each => ?_
      exact .bind (mapM_itemValue_ordered each) fun items ofItems =>
        .pure (forall_mem_some (.list ofItems))
    apply Gives.ite
    · refine .after fun _ => .bind (entries _ _ _) fun es each => ?_
      refine .bind (.lift fun v => Value.ofPairs_isOrdered ?_) fun v ordered =>
        .pure (forall_mem_some ordered)
      intro p member
      obtain ⟨e, isEntry, rfl⟩ := List.mem_map.1 member
      exact isOrdered_getD (each e isEntry).2
    apply Gives.ite
    · exact .after fun t => .pure (forall_mem_some (.string t))
    apply Gives.ite
    · exact .after fun t => .pure (forall_mem_some (.string t))
    refine .ite (.throw _) (.ite (.throw _) (.ite ?_ (.pure nofun)))
    refine .after fun scalar => .after fun _ => ?_
    extract_lets value
    have ofValue : ∀ u, Gives (∀ v ∈ ·, v.IsOrdered) (value u) :=
      fun _ => .pure (forall_mem_some (ofPlain_isOrdered scalar.1))
    exact .ite (.after ofValue) (ofValue ())

/-! ## Blocks -/

theorem blockItems_ordered {node : BlockReader}
    (nodes : ∀ parent seek compact, GivesOrdered (node parent seek compact)) (indent bound : Nat) :
    Gives (∀ v ∈ ·, v.IsOrdered) (blockItems node indent bound) := by
  induction bound with
  | zero => exact .pure nofun
  | succ bound ih =>
    unfold blockItems
    refine .after fun c => .ite (.pure nofun) <| .ite (.throw _) <| .ite (.pure nofun) <|
      .after fun _ => .after fun breaks => .after fun c => ?_
    apply Gives.ite
    · exact .bind ih fun items each => .pure (List.forall_mem_cons.2 ⟨.null, each⟩)
    refine .bind (nodes _ _ _) fun item ofItem => .after fun more => ?_
    apply Gives.ite
    · exact .bind ih fun items each =>
        .pure (List.forall_mem_cons.2 ⟨isOrdered_getD ofItem, each⟩)
    · exact .pure (List.forall_mem_singleton.2 (isOrdered_getD ofItem))

/-- The values of a block are ordered. -/
def BlockContent.IsOrdered : BlockContent → Prop
  | .pairs found => ∀ p ∈ found, p.2.IsOrdered
  | .single node => node.IsOrdered
  | .nothing => True

/-- The node that stands where no key is, is ordered. -/
def KeyStart.IsOrdered : KeyStart → Prop
  | .other node => ∀ v ∈ node, v.IsOrdered
  | _ => True

theorem keyStart_ordered {key : Reader (Option Value)} (keys : GivesOrdered key) :
    Gives KeyStart.IsOrdered (keyStart key) := by
  unfold keyStart
  refine .after fun c => .ite (.after fun _ => .pure trivial) <|
    .ite (.after fun _ => .pure trivial) <| .bind keys fun node ofNode => ?_
  cases node with
  | none => exact .pure nofun
  | some v =>
    refine .after fun here => .ite (.pure ofNode) <| .ite (.after fun _ => .pure ofNode) ?_
    exact .ite (.after fun _ => .after fun _ => .pure trivial) (.after fun _ => .pure trivial)

theorem forall_mem_unfinished (pending : Option Value) :
    ∀ p ∈ pending.toList.map (·, Value.null), p.2.IsOrdered := by
  intro p member
  obtain ⟨key, -, rfl⟩ := List.mem_map.1 member
  exact .null

theorem blockPairs_ordered {node : BlockReader} {key : Reader (Option Value)}
    (nodes : ∀ parent seek compact, GivesOrdered (node parent seek compact))
    (keys : GivesOrdered key) (indent bound : Nat) (pending : Option Value) (started : Bool) :
    Gives BlockContent.IsOrdered (blockPairs node key indent bound pending started) := by
  induction bound generalizing pending started with
  | zero => exact .pure (P := BlockContent.IsOrdered) trivial
  | succ bound ih =>
    unfold blockPairs
    refine .after fun c => ?_
    extract_lets unfinished finish more entry
    have ofUnfinished : ∀ p ∈ unfinished, p.2.IsOrdered := forall_mem_unfinished pending
    have ofFinish : finish.IsOrdered := by
      unfold finish
      split
      · exact ofUnfinished
      · trivial
    have ofMore : ∀ first pending, (∀ p ∈ first, p.2.IsOrdered) →
        Gives BlockContent.IsOrdered (more first pending) := by
      intro first pending ofFirst
      refine .after fun isNext => .ite (.bind (ih pending true) fun content ofContent => ?_) ?_
      · cases content with
        | pairs rest => exact .pure (List.forall_mem_append.2 ⟨ofFirst, ofContent⟩)
        | single v => exact .pure ofContent
        | nothing => exact .pure ofContent
      · exact .pure (List.forall_mem_append.2 ⟨ofFirst, forall_mem_unfinished pending⟩)
    have ofEntry : ∀ u, Gives BlockContent.IsOrdered (entry u) := by
      intro u
      refine .bind (keyStart_ordered keys) fun start ofStart => ?_
      cases start with
      | questionMark => exact .bind (nodes _ _ _) fun key _ => ofMore _ _ ofUnfinished
      | colon =>
        cases pending with
        | none => exact .throw _
        | some key =>
          exact .bind (nodes _ _ _) fun value ofValue =>
            ofMore _ _ (List.forall_mem_singleton.2 (isOrdered_getD ofValue))
      | key key =>
        exact .bind (nodes _ _ _) fun value ofValue => ofMore _ _ <|
          List.forall_mem_append.2
            ⟨ofUnfinished, List.forall_mem_singleton.2 (isOrdered_getD ofValue)⟩
      | other node =>
        cases node with
        | none => exact .pure ofFinish
        | some v => exact .ite (.throw _) (.pure (ofStart v rfl))
    refine .ite (.pure ofFinish) <| .ite (.after ofEntry) (ofEntry ())

theorem blockNode_ordered (levels : Nat) (parent : Int) (seek compact : Bool) :
    GivesOrdered (blockNode levels parent seek compact) := by
  induction levels generalizing parent seek compact with
  | zero => exact .throw _
  | succ levels ih =>
    unfold blockNode
    extract_lets key node
    have ofNode : ∀ breaks, GivesOrdered (node breaks) := by
      intro breaks
      refine .after fun c => ?_
      have items : GivesOrdered (do
          return some (.list (← blockItems (blockNode levels) c.column (c.rest.length + 1)))) :=
        .bind (blockItems_ordered ih _ _) fun items each => .pure (forall_mem_some (.list each))
      refine .ite (.ite items <| .ite (.throw _) <| .ite ?_ (flowNode_ordered _ _ _)) <|
        .ite items (.pure nofun)
      have ofKey : GivesOrdered key := flowNode_ordered levels false (parent + 1)
      refine .bind (blockPairs_ordered ih ofKey _ _ _ _) fun content ofContent => ?_
      cases content with
      | pairs pairs =>
        exact .bind (.lift fun v => Value.ofPairs_isOrdered ofContent) fun v ordered =>
          .pure (forall_mem_some ordered)
      | single v => exact .pure (forall_mem_some ofContent)
      | nothing => exact .pure nofun
    exact .ite (.after ofNode) (.after ofNode)

/-! ## Documents -/

theorem document_ordered : Gives Value.IsOrdered document := by
  unfold document
  refine .after fun _ => .after fun c => ?_
  extract_lets node start
  have ofNode : ∀ u, Gives Value.IsOrdered (node u) := by
    intro u
    refine .after fun c => .bind (blockNode_ordered _ _ _ _) fun v ofValue =>
      .after fun _ => .after fun c => ?_
    have ordered := isOrdered_getD ofValue
    exact .ite (.after fun _ => .after fun _ => .pure ordered) (.pure ordered)
  have ofStart : ∀ u, Gives Value.IsOrdered (start u) := by
    intro u
    exact .ite (.after fun _ => .after ofNode) (ofNode ())
  exact .ite (.after ofStart) (ofStart ())

/-- Every value that a loader gives is ordered. -/
def Loader.IsOrdered (load : Loader) : Prop := ∀ text v, load text = .ok v → v.IsOrdered

/-- Every mapping in the value of a text has each key once, in the order of keys. -/
theorem Value.ofText_isOrdered : Loader.IsOrdered ofText := by
  intro text v read
  unfold ofText at read
  extract_lets closed indent whole at read
  split at read
  · cases read
  unfold whole at read
  split at read
  · cases read
    exact .null
  · cases run : document.run { rest := closed.drop indent, column := indent, indent } with
    | error fault =>
      rw [run] at read
      cases read
    | ok result =>
      obtain ⟨value, c⟩ := result
      rw [run] at read
      change (if c.atEnd then _ else _) = _ at read
      split at read
      · cases read
        exact document_ordered _ _ _ run
      · cases read

end ProcCheck.Yaml
