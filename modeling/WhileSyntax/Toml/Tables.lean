import WhileSyntax.Toml.Value
namespace WhileSyntax.Toml

/-! # Tables in the making

The statements of a document add to one tree of tables. A table remembers how it came about,
because that decides what may still be added to it: a header opens a table once, and a dotted key
only goes through tables that no header has opened.
-/

/-- How a table came about. -/
inductive Origin where
  /-- As a parent of a table that a header opened. -/
  | implied
  /-- Through a dotted key. -/
  | dotted
  /-- Through a header of its own. -/
  | headed
  deriving DecidableEq, Repr

/-- What a key stands for while tables are made: a value that is complete, a table, or the tables
of a list, the last one apart from those before it. -/
inductive Node where
  | value (v : Value)
  | table (origin : Origin) (entries : List (String × Node))
  | tables (earlier : List (List (String × Node))) (last : List (String × Node))

/-- Keys with their nodes, in the order in which they were written. -/
abbrev Nodes := List (String × Node)

namespace Nodes

/-- Replaces or adds what stands at a key, as `f` says of what stands there now. -/
def alter (key : String) (f : Option Node → Option Node) : Nodes → Option Nodes
  | [] => (f none).map fun n => [(key, n)]
  | (k, n) :: rest =>
    if k = key then (f (some n)).map fun n => (k, n) :: rest
    else (alter key f rest).map ((k, n) :: ·)

/-- Adds a value at a key that stands for nothing yet. -/
def insert (key : String) (v : Value) : Nodes → Option Nodes :=
  alter key fun
    | none => some (.value v)
    | some _ => none

/-- Adds a value at the key that follows a dotted path. -/
def insertDotted : List String → String → Value → Nodes → Option Nodes
  | [], key, v => insert key v
  | p :: path, key, v =>
    alter p fun
      | none => (insertDotted path key v []).map (.table .dotted)
      | some (.table .dotted entries) => (insertDotted path key v entries).map (.table .dotted)
      | some (.table .implied entries) =>
        if path.isEmpty then none else (insertDotted path key v entries).map (.table .implied)
      | some (.tables earlier last) =>
        if path.isEmpty then none else (insertDotted path key v last).map (.tables earlier)
      | _ => none

/-- Changes the table that a header's path leads to, the last one where there is a list. -/
def within : List String → (Nodes → Option Nodes) → Nodes → Option Nodes
  | [], f => f
  | p :: path, f =>
    alter p fun
      | none => (within path f []).map (.table .implied)
      | some (.table origin entries) => (within path f entries).map (.table origin)
      | some (.tables earlier last) => (within path f last).map (.tables earlier)
      | some (.value _) => none

def openTable (key : String) : Nodes → Option Nodes :=
  alter key fun
    | none => some (.table .headed [])
    | some (.table .implied entries) => some (.table .headed entries)
    | _ => none

/-- Opens one more table of the list at a key. -/
def openListed (key : String) : Nodes → Option Nodes :=
  alter key fun
    | none => some (.tables [] [])
    | some (.tables earlier last) => some (.tables (earlier ++ [last]) [])
    | _ => none

end Nodes

mutual

/-- The value that a node has become. -/
def Node.toValue : Node → Value
  | .value v => v
  | .table _ entries => .table (Node.toTable entries)
  | .tables earlier last => .array (Node.toTables earlier ++ [.table (Node.toTable last)])

def Node.toTable : List (String × Node) → Table
  | [] => []
  | (k, n) :: rest => (k, n.toValue) :: Node.toTable rest

def Node.toTables : List (List (String × Node)) → List Value
  | [] => []
  | t :: rest => .table (Node.toTable t) :: Node.toTables rest

end

end WhileSyntax.Toml
