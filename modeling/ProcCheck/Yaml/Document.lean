import ProcCheck.Yaml.Node

/-!
# Documents

A text holds one document, between optional marks for its start and its end. A byte order mark
is dropped, and the last line is closed if it is not. This loader leaves out tags, anchors with
their aliases, blocks of literal or folded text, directives and merged mappings: a text that has
them is refused.
-/

namespace ProcCheck.Yaml

/-- The text without a byte order mark and with its last line closed. -/
def normalized (text : Text) : Text :=
  let closed := if text.getLast?.all isBreak then text else text ++ [.lineFeed]
  if closed.startsWith 0xFEFF then closed.drop 1 else closed

/-- One document with its marks. -/
def document : Reader Value := do
  discard skipSeparation
  let c ← get
  if c.indent = 0 && c.isAt '%' then throw .unsupported
  if c.indent = 0 && c.rest.take 3 == Text.ofString "---" then
    set (c.skip 3)
    discard skipSeparation
  let c ← get
  let value := (← blockNode maxDepth ((c.indent : Int) - 1) false true).getD .null
  discard skipSeparation
  let c ← get
  if c.atDocumentMark && c.isAt '.' then
    set (c.skip 3)
    discard skipSeparation
  return value

/-- The value of the document that a text holds; nothing but blank space is null. -/
def Value.ofText : Loader := fun text => do
  let text := normalized text
  if text.contains 0 then throw .controlCharacter
  let indent := (text.takeWhile isIndent).length
  if text.length ≤ indent + 1 then return .null
  let (value, c) ← document.run { rest := text.drop indent, column := indent, indent }
  if c.atEnd then return value else throw .trailingContent

end ProcCheck.Yaml
