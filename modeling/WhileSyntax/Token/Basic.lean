import WhileSyntax.Token.Classify
namespace WhileSyntax

/-! # Tokens and where they stand -/

/-- A place in a text, in lines and characters counted from 1. -/
structure Position where
  line : Nat
  column : Nat
  deriving DecidableEq, Repr, Inhabited

def Position.render (p : Position) : String :=
  s!"{p.line}:{p.column}"

/-- A range of bytes in the UTF-8 form of a text. -/
structure Span where
  start : Nat
  stop : Nat
  deriving DecidableEq, Repr, Inhabited

/-- A lexeme with its kind and the place where it was found. -/
structure Token where
  kind : TokenKind
  text : String
  span : Span
  position : Position
  deriving DecidableEq, Repr, Inhabited

end WhileSyntax
