import ProcCheck.Yaml.Scalar
import ProcCheck.Yaml.Plain

/-!
# Nodes

Collections in brackets may hold any node but blocks; blocks are laid out by indentation.
Every reader here answers nothing where no node stands. Nodes nest at most `maxDepth` deep;
`levels` counts how many are left. Loops over entries count down from a bound on the units left,
of which each entry consumes at least one.
-/

namespace ProcCheck.Yaml

/-- How deep nodes nest. The key of a block mapping is one level below the mapping, and so is
what turns out to be no key. -/
def maxDepth : Nat := 100

/-- The key under which a mapping takes over the entries of others. -/
def mergeKey : Text := "<<"

/-- Runs a reader of scalars that starts behind the unit at the cursor. -/
def behind (read : Nat → Cursor → Except Fault (Text × Cursor)) : Reader Text := fun c =>
  read (c.rest.length + 1) (c.skip 1)

/-- The entries of a collection in brackets up to the bracket `closing`: each is a node and,
if it is a pair, the value of the pair. -/
def flowEntries (node : Reader (Option Value)) (closing : CodeUnit) :
    Nat → Bool → Reader (List (Value × Option Value))
  | 0, _ => throw .unclosedBracket
  | bound + 1, afterComma => do
    discard skipSeparation
    let c ← get
    if c.atEnd then throw .unclosedBracket
    else if c.isAt closing then
      set (c.skip 1)
      return []
    else if !afterComma then throw .missingComma
    else if c.isAt ',' then throw .missingItem
    else
      let isExplicit := c.isAtSign '?'
      if isExplicit then
        set (c.skip 1)
        discard skipSeparation
      let line := (← get).line
      let key := (← node).getD .null
      discard skipSeparation
      let c ← get
      let value? ←
        if (isExplicit || c.line = line) && c.isAt ':' then
          set (c.skip 1)
          discard skipSeparation
          pure (some ((← node).getD .null))
        else pure (if isExplicit then some .null else none)
      discard skipSeparation
      let c ← get
      let hasComma := c.isAt ','
      if hasComma then set (c.skip 1)
      return (key, value?) :: (← flowEntries node closing bound hasComma)

/-- The value of an entry of a list; a pair is a mapping of its own. -/
def itemValue : Value × Option Value → Except Fault Value
  | (v, none) => .ok v
  | (key, some value) => Value.ofPairs [(key, value)]

/-- A node without block layout: a collection in brackets, a quoted or a plain scalar. -/
def flowNode : Nat → Bool → Int → Reader (Option Value)
  | 0, _, _ => throw .tooDeep
  | levels + 1, inFlow, indent => do
    let c ← get
    let inner := flowNode levels true indent
    if c.isAt '[' then
      set (c.skip 1)
      let entries ← flowEntries inner ']' (c.rest.length + 1) true
      return some (.list (← entries.mapM fun e => liftM (itemValue e)))
    else if c.isAt 0x7B then
      set (c.skip 1)
      let entries ← flowEntries inner 0x7D (c.rest.length + 1) true
      return some (← Value.ofPairs (entries.map fun e => (e.1, e.2.getD .null)))
    else if c.isAt singleQuote then return some (.string (← behind singleQuoted))
    else if c.isAt .quote then return some (.string (← behind doubleQuoted))
    else if c.isAt '*' then throw .unknownAlias
    else if c.isAt '&' || c.isAt '!' then throw .unsupported
    else if startsPlain inFlow c then
      let (t, next) ← plainLines indent inFlow (c.rest.length + 1) c
      set next
      if t = mergeKey then throw .unsupported
      return some (.ofPlain t)
    else return none

/-- What stands at the start of an entry of a block mapping. -/
inductive KeyStart where
  /-- A question mark, which a key follows. -/
  | questionMark
  /-- A colon, which the value of a key after a question mark follows. -/
  | colon
  /-- A key with its colon. -/
  | key (key : Value)
  /-- A node that no colon follows, or nothing. -/
  | other (node : Option Value)

/-- Reads the start of an entry of a block mapping, given the reader of its key. -/
def keyStart (key : Reader (Option Value)) : Reader KeyStart := do
  let c ← get
  if c.isAtSign '?' then
    set (c.skip 1)
    return .questionMark
  else if c.isAtSign ':' then
    set (c.skip 1)
    return .colon
  else
    match ← key with
    | none => return .other none
    | some key =>
      let here ← get
      let next := here.skip (here.rest.takeWhile isSpace).length
      if here.line ≠ c.line then return .other (some key)
      else if !next.isAt ':' then
        set next
        return .other (some key)
      else
        if !next.isAtSign ':' then throw .missingBlank
        set (next.skip 1)
        return .key key

/-- A node in block layout inside one that is indented by `parent`. With `seek` it may stand on
a later line; a block may start on the same line only if `compact`. -/
abbrev BlockReader := (parent : Int) → (seek compact : Bool) → Reader (Option Value)

/-- Goes to the next entry of a block that is indented by `indent`, after one that started on
`line`; tells whether there may be one. -/
def nextEntry (line indent : Nat) : Reader Bool := do
  discard skipSeparation
  let c ← get
  if !c.atEnd && (c.line = line || indent < c.indent) then throw .badIndentation
  return indent ≤ c.indent

/-- The items of a block sequence that is indented by `indent`. -/
def blockItems (node : BlockReader) (indent : Nat) : Nat → Reader (List Value)
  | 0 => return []
  | bound + 1 => do
    let c ← get
    if c.atEnd then return []
    else if c.tabbed then throw .tabIndentation
    else if !c.isAtSign '-' then return []
    else
      set (c.skip 1)
      let breaks ← skipSeparation
      let c ← get
      if breaks ≠ 0 && c.indent ≤ indent then
        return .null :: (← blockItems node indent bound)
      else
        let item := (← node indent false true).getD .null
        if ← nextEntry c.line indent then return item :: (← blockItems node indent bound)
        else return [item]

/-- What a reader of block mappings finds: the pairs of a mapping, a node that is none, or
nothing. -/
inductive BlockContent where
  | pairs (pairs : List (Value × Value))
  | single (node : Value)
  | nothing

/-- The pairs of a block mapping that is indented by `indent`. A key after a question mark is
`pending` until its value comes; `started` tells whether a pair has been seen. -/
def blockPairs (node : BlockReader) (key : Reader (Option Value)) (indent : Nat) :
    Nat → Option Value → Bool → Reader BlockContent
  | 0, _, _ => return .nothing
  | bound + 1, pending, started => do
    let c ← get
    let unfinished := pending.toList.map (·, Value.null)
    let finish : BlockContent := if started then .pairs unfinished else .nothing
    if c.atEnd then return finish
    if pending.isNone && c.tabbed then throw .tabIndentation
    /- The pairs `first`, then those of the entries that follow. -/
    let more (first : List (Value × Value)) (pending : Option Value) : Reader BlockContent := do
      if ← nextEntry c.line indent then
        match ← blockPairs node key indent bound pending true with
        | .pairs rest => return .pairs (first ++ rest)
        | other => return other
      else return .pairs (first ++ pending.toList.map (·, Value.null))
    match ← keyStart key with
    | .other none => return finish
    | .other (some single) => if started then throw .missingColon else return .single single
    | .questionMark =>
      let key := (← node indent true true).getD .null
      more unfinished (some key)
    | .colon =>
      match pending with
      | none => throw .missingKey
      | some key =>
        let value := (← node indent true true).getD .null
        more [(key, value)] none
    | .key key =>
      let value := (← node indent true false).getD .null
      more (unfinished ++ [(key, value)]) none

/-- A node in block layout. A sequence may be indented like the mapping that it is a value
of. -/
def blockNode : Nat → BlockReader
  | 0, _, _, _ => throw .tooDeep
  | levels + 1, parent, seek, compact => do
    let breaks ← if seek then skipSeparation else pure 0
    let c ← get
    let mayBeBlock := (breaks ≠ 0 || compact) && !c.tabbed
    if breaks = 0 || parent < c.indent then
      if mayBeBlock && c.isAtSign '-' then
        return some (.list (← blockItems (blockNode levels) c.column (c.rest.length + 1)))
      else if c.isAt '|' || c.isAt '>' then throw .unsupported
      else if mayBeBlock then
        let key := flowNode levels false (parent + 1)
        match ← blockPairs (blockNode levels) key c.column (c.rest.length + 1) none false with
        | .pairs pairs => return some (← Value.ofPairs pairs)
        | .single node => return some node
        | .nothing => return none
      else flowNode (levels + 1) false (parent + 1)
    else if parent = c.indent && mayBeBlock && c.isAtSign '-' then
      return some (.list (← blockItems (blockNode levels) c.column (c.rest.length + 1)))
    else return none

end ProcCheck.Yaml
