namespace WhileSyntax.Text

/-! # Lines

A line goes up to a newline, or up to the end of the text if something is left there. A carriage
return just before the newline belongs to the end of the line.
-/

/-- The line whose characters are given, the latest first, without a carriage return at its end. -/
def endLine : List Char → String
  | '\r' :: cs => String.ofList cs.reverse
  | cs => String.ofList cs.reverse

/-- The lines of a text, when the first of them has begun with the characters `begun`, the latest
first. -/
def linesFrom (begun : List Char) : List Char → List String
  | [] => if begun.isEmpty then [] else [String.ofList begun.reverse]
  | c :: cs => if c = '\n' then endLine begun :: linesFrom [] cs else linesFrom (c :: begun) cs

def lines (cs : List Char) : List String :=
  linesFrom [] cs

/-- The text with `width` spaces in front of every line but the first. -/
def indentRest (width : Nat) (cs : List Char) : List Char :=
  cs.flatMap fun c => if c = '\n' then c :: List.replicate width ' ' else [c]

end WhileSyntax.Text
