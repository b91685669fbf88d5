import WhileSyntax.Toml.Lexeme
import WhileSyntax.Toml.Scalar
import WhileSyntax.Toml.Tables
namespace WhileSyntax.Toml

/-! # Reading a TOML document

A document is a sequence of lines with a key and a value, and of headers that say which table the
lines below belong to. A document that breaks a rule of the format has no meaning at all.
-/

/-! ## Keys -/

/-- How many levels arrays and inline tables may be nested, and how many tables a dotted key may go
through. -/
def nestingLimit : Nat :=
  80

/-- Whether the character may stand in a key without quotes. -/
def isKeyChar (c : Char) : Bool :=
  c.isAlphanum || c = '_' || c = '-'

/-- The part of a key that a lexeme is. -/
def keyPart? : Lexeme → Option String
  | .run s => if s.toList.all isKeyChar then some s else none
  | .text s false => some s
  | _ => none

/-- A key as it is written: the tables it goes through, and its last part. -/
structure Key where
  path : List String
  last : String
  deriving DecidableEq, Repr

mutual

/-- The key whose parts `path` have been read, the latest first, and whose next part comes. -/
def keyAt (path : List String) : List Lexeme → Option (Key × List Lexeme)
  | [] => none
  | .blank _ :: ts => keyAt path ts
  | t :: ts =>
    match keyPart? t with
    | none => none
    | some part => keyAfter path part ts

/-- The key whose latest part is `part`, once it is known whether another one follows. -/
def keyAfter (path : List String) (part : String) : List Lexeme → Option (Key × List Lexeme)
  | .blank _ :: ts => keyAfter path part ts
  | .dot :: ts => keyAt (part :: path) ts
  | ts => some (⟨path.reverse, part⟩, ts)

end

/-- The key at the front, which must not go through too many tables. -/
def key? (ts : List Lexeme) : Option (Key × List Lexeme) :=
  (keyAt [] ts).filter fun (key, _) => key.path.length < nestingLimit

/-! ## Values -/

/-- The lexemes without the blanks at their front. -/
def skipBlanks : List Lexeme → List Lexeme
  | .blank _ :: ts => skipBlanks ts
  | ts => ts

/-- The lexemes without the blanks and newlines at their front. -/
def skipLayout : List Lexeme → List Lexeme
  | .blank _ :: ts => skipLayout ts
  | .newline :: ts => skipLayout ts
  | ts => ts

/-- The runs and dots at the front, joined. -/
def joinRuns : List Lexeme → String × List Lexeme
  | .run s :: ts =>
    let (more, rest) := joinRuns ts
    (s ++ more, rest)
  | .dot :: ts =>
    let (more, rest) := joinRuns ts
    ("." ++ more, rest)
  | ts => ("", ts)

def startsWithDigit (s : String) : Bool :=
  match s.toList with
  | c :: _ => c.isDigit
  | [] => false

/-- A value without quotes at the front. A date and a time may have one space between them. -/
def unquoted? (ts : List Lexeme) : Option (Value × List Lexeme) :=
  let (first, rest) := joinRuns ts
  match afterDate? first.toList, rest with
  | some [], .blank " " :: .run s :: more =>
    if startsWithDigit s then
      let (time, rest) := joinRuns (.run s :: more)
      (scalar? (first ++ " " ++ time).toList).map (·, rest)
    else (scalar? first.toList).map (·, rest)
  | _, _ => (scalar? first.toList).map (·, rest)

mutual

/-- The value at the front; at most `depth` levels of brackets and `fuel` steps may come. -/
def value? : Nat → Nat → List Lexeme → Option (Value × List Lexeme)
  | _, _, .text s _ :: ts => some (.string s, ts)
  | fuel + 1, depth + 1, .openBracket :: ts => items? fuel depth [] (skipLayout ts)
  | fuel + 1, depth + 1, .openBrace :: ts => pairs? fuel depth [] (skipLayout ts)
  | _, _, ts => unquoted? ts

/-- The rest of an array behind the items `found`, which stand latest first. -/
def items? : Nat → Nat → List Value → List Lexeme → Option (Value × List Lexeme)
  | _, _, found, .closeBracket :: ts => some (.array found.reverse, ts)
  | 0, _, _, _ => none
  | fuel + 1, depth, found, ts =>
    match value? fuel depth ts with
    | none => none
    | some (v, ts) =>
      match skipLayout ts with
      | .comma :: ts => items? fuel depth (v :: found) (skipLayout ts)
      | .closeBracket :: ts => some (.array (v :: found).reverse, ts)
      | _ => none

/-- The rest of an inline table behind the entries `found`. Newlines may stand between any two of
its parts, but not inside a key. -/
def pairs? : Nat → Nat → Nodes → List Lexeme → Option (Value × List Lexeme)
  | _, _, found, .closeBrace :: ts => some (.table (Node.toTable found), ts)
  | 0, _, _, _ => none
  | fuel + 1, depth, found, ts =>
    match key? ts with
    | none => none
    | some (key, ts) =>
      match skipLayout ts with
      | .equals :: ts =>
        match value? fuel depth (skipLayout ts) with
        | none => none
        | some (v, ts) =>
          match Nodes.insertDotted key.path key.last v found with
          | none => none
          | some found =>
            match skipLayout ts with
            | .comma :: ts => pairs? fuel depth found (skipLayout ts)
            | .closeBrace :: ts => some (.table (Node.toTable found), ts)
            | _ => none
      | _ => none

end

/-! ## Statements -/

/-- What a line says. -/
inductive Statement where
  /-- A key has a value. -/
  | entry (key : Key) (value : Value)
  /-- The lines below belong to the table of this name. -/
  | table (key : Key)
  /-- The lines below belong to one more table in the list of this name. -/
  | listed (key : Key)

/-- The statement at the front and what stands behind it. -/
def statement? (ts : List Lexeme) : Option (Statement × List Lexeme) :=
  match ts with
  | .openBracket :: .openBracket :: ts =>
    match key? ts with
    | some (key, .closeBracket :: .closeBracket :: ts) => some (.listed key, ts)
    | _ => none
  | .openBracket :: ts =>
    match key? ts with
    | some (key, .closeBracket :: ts) => some (.table key, ts)
    | _ => none
  | ts =>
    match key? ts with
    | some (key, .equals :: ts) =>
      (value? ts.length nestingLimit (skipBlanks ts)).map fun (v, ts) => (.entry key v, ts)
    | _ => none

/-- Reads statements, one on each line that is not empty, with at most `fuel` of them; `read` stand
latest first. -/
def statementsFrom : Nat → List Statement → List Lexeme → Option (List Statement)
  | fuel, read, ts =>
    match skipLayout ts with
    | [] => some read.reverse
    | ts =>
      match fuel with
      | 0 => none
      | fuel + 1 =>
        match statement? ts with
        | none => none
        | some (s, rest) =>
          match skipBlanks rest with
          | [] => some (s :: read).reverse
          | .newline :: rest => statementsFrom fuel (s :: read) rest
          | _ => none

def statements? (ts : List Lexeme) : Option (List Statement) :=
  statementsFrom ts.length [] ts

/-! ## Meaning -/

/-- The tables so far, and the path of the table that lines belong to. -/
structure Progress where
  root : Nodes
  here : List String

def Progress.add (p : Progress) : Statement → Option Progress
  | .entry key v =>
    (Nodes.within p.here (Nodes.insertDotted key.path key.last v) p.root).map ({ p with root := · })
  | .table key =>
    (Nodes.within key.path (Nodes.openTable key.last) p.root).map (⟨·, key.path ++ [key.last]⟩)
  | .listed key =>
    (Nodes.within key.path (Nodes.openListed key.last) p.root).map (⟨·, key.path ++ [key.last]⟩)

/-- The table that a document describes, if it follows the rules. -/
def read? (document : String) : Option Table := do
  let ts ← lex document
  let statements ← statements? ts
  let p ← statements.foldlM Progress.add ⟨[], []⟩
  some (Node.toTable p.root)

end WhileSyntax.Toml
