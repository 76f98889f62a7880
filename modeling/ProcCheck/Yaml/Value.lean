import ProcCheck.Number.Notation
import ProcCheck.Text.KeyOrder

/-!
# Values of a settings file

A document denotes a tree of values. Keys of mappings are texts: any other key is converted.
A mapping lists its entries in the order in which they are examined: keys that are array
indices first, in ascending order, then the others as they stand in the source. What reads
documents is a `Loader`; the one of this library, `Value.ofText`, reads what settings are
usually written in.
-/

namespace ProcCheck.Yaml

/-- A value of a document. Any other object that a loader may give stands here as the mapping of
its own entries; a date has none. -/
inductive Value where
  | null
  | bool (b : Bool)
  | number (x : Float)
  | string (t : Text)
  | list (items : List Value)
  | mapping (entries : List (Text × Value))

/-- Why a text is no document. -/
inductive Fault where
  | unclosedQuote
  | unclosedBracket
  | missingComma
  | missingItem
  | unknownEscape
  | controlCharacter
  | unknownAlias
  | unsupported
  | tooDeep
  | tabIndentation
  | badIndentation
  | missingKey
  | missingColon
  | missingBlank
  | nestedKey
  | duplicateKey (key : Text)
  | trailingContent
  deriving DecidableEq, Repr

/-- A way to read documents: the value that a text denotes, or why it is no document. -/
abbrev Loader := Text → Except Fault Value

namespace Value

/-- The text of a value inside a key that is a list. -/
def itemText : Value → Except Fault Text
  | null => .ok []
  | bool b => .ok (if b then "true" else "false")
  | number x => .ok (Number.text x)
  | string t => .ok t
  | mapping _ => .ok "[object Object]"
  | list _ => .error .nestedKey

/-- The text that a value has as a key. -/
def keyText : Value → Except Fault Text
  | null => .ok "null"
  | list items => return Text.join "," (← items.mapM itemText)
  | v => itemText v

/-- The mapping of keys and values in the order of the source; no key may come twice. -/
def ofPairs (pairs : List (Value × Value)) : Except Fault Value := do
  let entries ← pairs.foldlM (fun entries pair => do
    let key ← keyText pair.1
    if (entries.lookup key).isSome then throw (.duplicateKey key)
    return entries ++ [(key, pair.2)]) ([] : List (Text × Value))
  return mapping (Text.inKeyOrder (·.1) entries)

end Value

end ProcCheck.Yaml
