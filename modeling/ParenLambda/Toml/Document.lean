import ParenLambda.Toml.Scalar
import ParenLambda.Toml.Table

/-!
# TOML documents

A document is a list of lines, each of which sets a key, opens a table, or is blank. Keys before the
first header belong to the document itself. Arrays and inline tables may nest, and keys may have
dots, but both only so far.
-/

namespace ParenLambda

namespace Toml

open Reader

/-- Nesting of values, and parts of a dotted key, have to stay below this number. -/
def nestingLimit : Nat := 80

/-! ### Keys -/

/-- Whether a character may stand in a key without quotes. -/
def isBare (c : Char) : Bool :=
  c.isAlphanum || c == '-' || c == '_'

/-- A key without dots. -/
def simpleKey : Reader String :=
  basicString <|> literalString <|> do
    let first ← satisfying isBare
    let rest ← many (satisfying isBare)
    pure (String.ofList (first :: rest))

/-- A key without dots and the spaces around it. -/
def spacedKey : Reader String := do
  spaces
  let key ← simpleKey
  spaces
  pure key

/-- A key with the dotted keys before it. -/
def key : Reader (List String × String) := do
  let first ← spacedKey
  let rest ← many (do char '.'; spacedKey)
  let parts := first :: rest
  if parts.length < nestingLimit then pure (parts.dropLast, parts.getLastD "") else failure

/-! ### Values -/

/-- Items with commas between them. -/
def separated {α : Type} (item : Reader α) : Reader (List α) :=
  (do
    let first ← item
    let rest ← many (do char ','; item)
    pure (first :: rest)) <|> pure []

/-- An array of items that a reader reads. -/
def array (item : Reader Value) : Reader Value := do
  char '['
  let items ← separated (do
    gaps
    let value ← item
    gaps
    pure value)
  if !items.isEmpty then
    let _ ← maybe (char ',')
  gaps
  char ']'
  pure (.array items)

/-- A key and its value in an inline table. -/
def inlineEntry (item : Reader Value) : Reader ((List String × String) × Value) := do
  let key ← key
  char '='
  spaces
  let value ← item
  spaces
  pure (key, value)

/-- A table on one line whose values a reader reads. -/
def inlineTable (item : Reader Value) : Reader Value := do
  char '\x7b'
  let entries ← separated (inlineEntry item)
  spaces
  char '\x7d'
  let table := entries.foldlM
    (fun (table : Table) entry => table.assign entry.1.1 entry.1.2 entry.2) Table.empty
  match table with
  | some table => pure table.toValue
  | none => failure

/-- **A value** in which arrays and inline tables nest at most so deeply. -/
def value : Nat → Reader Value
  | 0 => scalar
  | depth + 1 => scalar <|> array (value depth) <|> inlineTable (value depth)

/-! ### Lines -/

/-- The end of a line, or of the document. -/
def lineEnd : Reader Unit :=
  newline <|> finish

/-- What may follow a header or a value: spaces, a comment, the end of the line. -/
def trailing : Reader Unit := do
  spaces
  let _ ← maybe comment
  lineEnd

/-- Where the keys of the next lines go. -/
structure Cursor where
  /-- What has been read of the document. -/
  root : Table
  /-- The header that the lines stand under. -/
  path : List String

/-- Carry out a change of the document, if the rules of tables allow it. -/
def carryOut (change : Option Cursor) : Reader Cursor :=
  match change with
  | some cursor => pure cursor
  | none => failure

/-- A header. -/
def header (cursor : Cursor) : Reader Cursor :=
  (do
    word "[["
    let (path, key) ← key
    word "]]"
    trailing
    carryOut ((cursor.root.openElement path key).map (⟨·, path ++ [key]⟩))) <|> do
      char '['
      let (path, key) ← key
      char ']'
      trailing
      carryOut ((cursor.root.openTable path key).map (⟨·, path ++ [key]⟩))

/-- A line that sets a key. -/
def setting (cursor : Cursor) : Reader Cursor := do
  let (path, key) ← key
  char '='
  spaces
  let value ← value (nestingLimit - 1)
  trailing
  carryOut ((cursor.root.changeAt false (·.assign path key value) cursor.path).map
    (⟨·, cursor.path⟩))

/-- One line. -/
def line (cursor : Cursor) : Reader Cursor := do
  match ← peek? with
  | some '#' => do
    comment
    lineEnd
    pure cursor
  | some '[' => header cursor
  | some '\n' => do
    newline
    pure cursor
  | some '\r' => do
    newline
    pure cursor
  | _ => setting cursor

/-- The lines up to the end of the document, at most `bound` of them. -/
def lines : Nat → Cursor → Reader Cursor
  | 0, cursor => do
    finish
    pure cursor
  | bound + 1, cursor => do
    spaces
    match ← peek? with
    | none => pure cursor
    | some _ => do
      let cursor ← line cursor
      lines bound cursor

/-- The byte order mark. -/
def byteOrderMark : Char := Char.ofNat 0xFEFF

/-- **Read a document.** A byte order mark at its start does not count. -/
def read? (text : String) : Option Value :=
  let input := match text.toList with
    | c :: rest => if c == byteOrderMark then rest else c :: rest
    | [] => []
  (Reader.run (lines (input.length + 1) ⟨Table.empty, []⟩) input).map (·.root.toValue)

end Toml

end ParenLambda
