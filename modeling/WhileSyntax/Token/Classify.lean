import WhileSyntax.Token.Kind
import WhileSyntax.Text.Blank
namespace WhileSyntax

/-! # Classification of lexemes

A lexeme's kind depends on its text alone, once blank characters are trimmed from its ends.
-/

/-- Whether the text is a run of digits, at least one. -/
def isDigits (cs : List Char) : Bool :=
  !cs.isEmpty && cs.all Char.isDigit

/-- Whether the text is a run of digits, with at most one point that has digits on both sides. -/
def isNumeral (cs : List Char) : Bool :=
  match cs.dropWhile Char.isDigit with
  | [] => !cs.isEmpty
  | c :: rest => c = '.' && isDigits (cs.takeWhile Char.isDigit) && isDigits rest

namespace TokenKind

/-- The kind of a text without blank ends: nothing is the end of the stream, a numeral is a number,
a text of one of the lexeme sets has that set's kind, and all else is an identifier. -/
def ofTrimmed (cs : List Char) : TokenKind :=
  if cs.isEmpty then endOfStream
  else if isNumeral cs then number
  else (all.find? fun k => k.lexemes.contains (String.ofList cs)).getD identifier

def ofLexeme (lexeme : String) : TokenKind :=
  ofTrimmed (Text.trim lexeme.toList)

end TokenKind

end WhileSyntax
