import ParenLambda.Toml.Value

/-!
# TOML tables under construction

The keys of a document can be set in any order, but a table may be given only once. A table that is
only implied by a longer header may still get a header of its own; one that dotted keys have made may
get further dotted keys and no header; and what a header has made gets no dotted keys from outside.
A table therefore knows how it came to be, until the document ends and only values are left.
-/

namespace ParenLambda

namespace Toml

mutual

/-- What a key of a table is set to. -/
inductive Item where
  /-- A value. -/
  | value (value : Value)
  /-- A table that can still grow. -/
  | table (table : Table)
  /-- The tables of an array of tables, of which the last can still grow. -/
  | tables (tables : List Table)

/-- **A table under construction.** -/
inductive Table where
  /-- Whether it is implied by something inside it, whether dotted keys made it, and its keys. -/
  | mk (implied dotted : Bool) (entries : List (String × Item))

end

namespace Table

/-- Whether the table is only implied by what is inside it. -/
def implied : Table → Bool
  | mk implied _ _ => implied

/-- Whether dotted keys have made the table. -/
def dotted : Table → Bool
  | mk _ dotted _ => dotted

/-- The keys of the table and what they are set to. -/
def entries : Table → List (String × Item)
  | mk _ _ entries => entries

/-- A table that a header makes. -/
def empty : Table := mk false false []

/-- What a key is set to. -/
def get? (table : Table) (key : String) : Option Item :=
  table.entries.lookup key

/-- The table with a key set to something else, in its old place if it had one. -/
def put (table : Table) (key : String) (item : Item) : Table :=
  let entries :=
    if (table.get? key).isSome then
      table.entries.map fun entry => if entry.1 == key then (key, item) else entry
    else table.entries ++ [(key, item)]
  mk table.implied table.dotted entries

/-- **Change the table at the end of a path of keys.** Tables that are not there are made; in an
array of tables the path goes through the last one. A path of dotted keys may go only through tables
that are implied. -/
def changeAt (dotted : Bool) (change : Table → Option Table) : List String → Table → Option Table
  | [], table => change table
  | key :: path, table =>
    match table.get? key with
    | none => do
      let inner ← changeAt dotted change path (mk true dotted [])
      pure (table.put key (.table inner))
    | some (.value _) => none
    | some (.table inner) =>
      if dotted && !inner.implied then none
      else do
        let inner ← changeAt dotted change path inner
        pure (table.put key (.table inner))
    | some (.tables list) =>
      match list.getLast? with
      | none => none
      | some last => do
        let last ← changeAt dotted change path last
        pure (table.put key (.tables (list.dropLast ++ [last])))

/-- Set a key, given with the dotted keys before it, that is not set yet. -/
def assign (path : List String) (key : String) (value : Value) : Table → Option Table :=
  changeAt true (fun table =>
    if table.dotted == path.isEmpty || (table.get? key).isSome then none
    else some (table.put key (.value value))) path

/-- Give a table a header of its own. -/
def openTable (path : List String) (key : String) : Table → Option Table :=
  changeAt false (fun table =>
    match table.get? key with
    | none => some (table.put key (.table empty))
    | some (.table inner) =>
      if inner.implied && !inner.dotted then
        some (table.put key (.table (mk false false inner.entries)))
      else none
    | some _ => none) path

/-- Add one more table to an array of tables. -/
def openElement (path : List String) (key : String) : Table → Option Table :=
  changeAt false (fun table =>
    match table.get? key with
    | none => some (table.put key (.tables [empty]))
    | some (.tables list) => some (table.put key (.tables (list ++ [empty])))
    | some _ => none) path

end Table

mutual

/-- What a key is set to, as a value. -/
def Item.toValue : Item → Value
  | .value value => value
  | .table table => table.toValue
  | .tables list => .array (tablesToValues list)

/-- The table as a value. -/
def Table.toValue : Table → Value
  | .mk _ _ entries => .table (entriesToValues entries)

/-- The tables of an array as values. -/
def tablesToValues : List Table → List Value
  | [] => []
  | table :: rest => table.toValue :: tablesToValues rest

/-- The entries of a table as values. -/
def entriesToValues : List (String × Item) → List (String × Value)
  | [] => []
  | (key, item) :: rest => (key, item.toValue) :: entriesToValues rest

end

end Toml

end ParenLambda
