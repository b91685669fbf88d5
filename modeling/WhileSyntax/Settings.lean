import WhileSyntax.Parse
import WhileSyntax.Files
import WhileSyntax.Toml.Document
import WhileSyntax.Toml.Notation
namespace WhileSyntax

/-! # Settings

The title of the trees, what is printed of them, and how far levels are indented. A file of
settings is a TOML document with the keys `title`, `format` and `indent`. Keys that are left out
have defaults and other keys are ignored, but a document with a wrong value is refused as a whole.
-/

/-- What is printed after an analysis. -/
inductive Printout where
  /-- The parse tree as an outline. -/
  | tree
  /-- The events, one on each line. -/
  | events
  deriving DecidableEq, Repr, Inhabited

def Printout.name : Printout → String
  | .tree => "tree"
  | .events => "events"

def Printout.ofName? (name : String) : Option Printout :=
  if name = "tree" then some .tree
  else if name = "events" then some .events
  else none

structure Settings where
  title : String
  format : Printout
  indent : Nat
  deriving DecidableEq, Repr

namespace Settings

/-- The settings where no file says otherwise. -/
def default : Settings :=
  ⟨defaultTitle, .tree, 2⟩

/-! ## Reading -/

/-- Indents are below this number. -/
def indentBound : Nat :=
  Nat.pow 2 64

def title? : Toml.Value → Option String
  | .string s => some s
  | _ => none

/-- An indent is an integer that is neither negative nor too large. -/
def indent? : Toml.Value → Option Nat
  | .integer n => if 0 ≤ n ∧ n < indentBound then some n.toNat else none
  | _ => none

/-- A format is given by its name, or by a table whose only key is its name and holds nothing. -/
def format? : Toml.Value → Option Printout
  | .string s => Printout.ofName? s
  | .table [(name, .array [])] | .table [(name, .table [])] => Printout.ofName? name
  | _ => none

/-- What a key says, or the default when the key is missing; nothing when its value is wrong. -/
def setting {α : Type} (t : Toml.Table) (key : String) (read : Toml.Value → Option α)
    (fallback : α) : Option α :=
  match t.get? key with
  | none => some fallback
  | some v => read v

def ofTable? (t : Toml.Table) : Option Settings := do
  let title ← setting t "title" title? default.title
  let format ← setting t "format" format? default.format
  let indent ← setting t "indent" indent? default.indent
  some ⟨title, format, indent⟩

def ofText? (document : String) : Option Settings :=
  (Toml.read? document).bind ofTable?

/-! ## Writing -/

def titleLine (c : Settings) : String :=
  "title = " ++ Toml.writeText c.title ++ "\n"

def formatLine (c : Settings) : String :=
  "format = " ++ Toml.writeText c.format.name ++ "\n"

def indentLine (c : Settings) : String :=
  "indent = " ++ toString c.indent ++ "\n"

def render (c : Settings) : String :=
  c.titleLine ++ c.formatLine ++ c.indentLine

/-! ## Files -/

/-- Where the settings of a user are, given the home directory. -/
def path (home : String) : String :=
  home ++ "/.config/minilang/config.toml"

/-- Why a file of settings is refused. -/
inductive Fault where
  | unreadable (path : String) (error : FileError)
  | malformed (path : String)
  deriving DecidableEq, Repr

/-- The fault as it is reported. What is wrong with a malformed document would follow the colon. -/
def Fault.message : Fault → String
  | unreadable path error => "Failed to read config file at " ++ path ++ ": " ++ error.message
  | malformed path => "Failed to parse config file at " ++ path ++ ": "

/-- The settings at a path; there are none where the path leads nowhere, whatever the reason. -/
def load (read : Reader) (path : String) : Except Fault (Option Settings) :=
  match read path with
  | .error (.unreachable _) => .ok none
  | .error (.unreadable error) => .error (.unreadable path error)
  | .ok document =>
    match ofText? document with
    | none => .error (.malformed path)
    | some c => .ok (some c)

end Settings

end WhileSyntax
