import WhileSyntax.Grammar
namespace WhileSyntax

/-! # Kinds of pieces

Everything a stored tree holds has a kind with a number: first the three kinds of text, then the
nodes around terminals, the root, the nodes of rules, and the node of an error.
-/

/-- The kind of a text or a node in a stored tree. -/
inductive PieceKind where
  /-- The text of a terminal. -/
  | lexeme
  /-- The empty text that marks an empty production. -/
  | epsilon
  /-- The message of a syntax error. -/
  | errorMessage
  /-- The node around a terminal's text. -/
  | wrapper (kind : TokenKind)
  /-- The node that holds the whole tree. -/
  | root
  /-- The node of a rule. -/
  | rule (rule : Rule)
  /-- The node around an error's message. -/
  | error
  deriving DecidableEq, Repr

namespace PieceKind

def ofSymbol : Symbol → PieceKind
  | .terminal k => wrapper k
  | .rule r => .rule r

def name : PieceKind → String
  | lexeme => "LEXEME"
  | epsilon => "EPSILON"
  | errorMessage => "ERROR_MESSAGE"
  | wrapper k => k.label
  | root => "ROOT"
  | .rule r => r.name
  | error => "ERROR"

def code : PieceKind → Nat
  | lexeme => 0
  | epsilon => 1
  | errorMessage => 2
  | wrapper k => 3 + k.index
  | root => 21
  | .rule r => 22 + r.index
  | error => 31

/-- The kind with the given number; there is none above 31. -/
def ofCode? (n : Nat) : Option PieceKind :=
  if n = 0 then some lexeme
  else if n = 1 then some epsilon
  else if n = 2 then some errorMessage
  else if n < 21 then (TokenKind.all[n - 3]?).map wrapper
  else if n = 21 then some root
  else if n < 31 then (Rule.all[n - 22]?).map .rule
  else if n = 31 then some error
  else none

def isText (k : PieceKind) : Bool :=
  k.code ≤ errorMessage.code

/-- Whether the kind is one of a node around a terminal. -/
def isWrapper : PieceKind → Bool
  | wrapper _ => true
  | _ => false

def isRule : PieceKind → Bool
  | .rule _ => true
  | _ => false

end PieceKind

end WhileSyntax
