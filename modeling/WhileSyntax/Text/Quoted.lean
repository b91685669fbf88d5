import WhileSyntax.Text.Shown
namespace WhileSyntax.Text

/-! # Quoted texts

A quoted text stands between double quotes on one line, whatever characters it holds: quotes and
backslashes get a backslash, five control characters have short names, and every other character
that is not shown as itself is written as its code point in braces.
-/

/-- One character as it is written between quotes. -/
def escape (c : Char) : List Char :=
  if c = '"' then ['\\', '"']
  else if c = '\\' then ['\\', '\\']
  else if c = '\t' then ['\\', 't']
  else if c = '\n' then ['\\', 'n']
  else if c = '\r' then ['\\', 'r']
  else if c = '\x00' then ['\\', '0']
  else if isShown c then [c]
  else '\\' :: 'u' :: '\x7b' :: (Nat.toDigits 16 c.toNat ++ ['\x7d'])

/-- The characters between the two quotes. -/
def escapeAll (cs : List Char) : List Char :=
  cs.flatMap escape

/-- The text between double quotes, on one line. -/
def quote (s : String) : String :=
  String.ofList ('"' :: (escapeAll s.toList ++ ['"']))

/-- The characters of a quoted text. -/
theorem toList_quote (s : String) :
    (quote s).toList = '"' :: (escapeAll s.toList ++ ['"']) := by
  simp [quote]

end WhileSyntax.Text
