import WhileSyntax.Token.Basic
import WhileSyntax.Tree.Event
import WhileSyntax.Log
namespace WhileSyntax

/-! # Syntax errors -/

/-- What ended an analysis: a terminal was expected at a node, and something else was found. The
position is missing at the end of the input and where the tokens' places are not told. -/
structure Diagnosis where
  expected : TokenKind
  found : String
  node : Handle
  position : Option Position
  deriving DecidableEq, Repr

namespace Diagnosis

def message (e : Diagnosis) : String :=
  "SYNTAX ERROR: '" ++ e.expected.description ++ "' was expected but '" ++ e.found ++
    "' was found."

/-- The record of the error: its message, after its position if that is known. -/
def record (e : Diagnosis) : LogRecord :=
  match e.position with
  | some p => ⟨.error, p.render ++ ": " ++ e.message⟩
  | none => ⟨.error, e.message⟩

end Diagnosis

end WhileSyntax
