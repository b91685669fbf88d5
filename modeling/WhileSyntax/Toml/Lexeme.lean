import WhileSyntax.Toml.Text
namespace WhileSyntax.Toml

/-! # Lexemes of a TOML document

A document is cut into punctuation, texts in quotes, blanks, newlines and runs of other characters.
Comments are checked and left out. What a run means depends on where it stands.
-/

/-- A piece of a document that means something as a whole. -/
inductive Lexeme where
  /-- Spaces and tabs. -/
  | blank (text : String)
  | newline
  | dot
  | equals
  | comma
  | openBracket
  | closeBracket
  | openBrace
  | closeBrace
  /-- What a text in quotes or apostrophes holds, and whether it may go over several lines. -/
  | text (content : String) (inLines : Bool)
  /-- Characters that belong together without quotes. -/
  | run (content : String)
  deriving DecidableEq, Repr

/-- Whether the character separates lexemes within a line. -/
def isGap (c : Char) : Bool :=
  c = ' ' || c = '\t'

/-- The punctuation that is one character. -/
def punctuation? (c : Char) : Option Lexeme :=
  if c = '.' then some .dot
  else if c = '=' then some .equals
  else if c = ',' then some .comma
  else if c = '[' then some .openBracket
  else if c = ']' then some .closeBracket
  else if c = '\x7b' then some .openBrace
  else if c = '\x7d' then some .closeBrace
  else none

def isRunChar (c : Char) : Bool :=
  !isGap c && c ≠ '\n' && c ≠ '\r' && c ≠ '#' && c ≠ '"' && c ≠ '\'' && (punctuation? c).isNone

def endsLine : List Char → Bool
  | [] | '\n' :: _ | '\r' :: '\n' :: _ => true
  | _ => false

/-- The lexemes of a text behind those `found`, which stand latest first. -/
def lexFrom (found : List Lexeme) : List Char → Option (List Lexeme)
  | [] => some found.reverse
  | c :: cs =>
    if isGap c then
      lexFrom (.blank (String.ofList (c :: cs.takeWhile isGap)) :: found) (cs.dropWhile isGap)
    else if c = '\n' then lexFrom (.newline :: found) cs
    else if c = '\r' then
      if cs.head? = some '\n' then lexFrom (.newline :: found) (cs.drop 1) else none
    else if c = '#' then
      if endsLine (cs.dropWhile isPlain) then lexFrom found (cs.dropWhile isPlain) else none
    else if c = '"' || c = '\'' then
      match _h : text? (c :: cs) with
      | none => none
      | some (content, inLines, rest) => lexFrom (.text (String.ofList content) inLines :: found) rest
    else
      match punctuation? c with
      | some p => lexFrom (p :: found) cs
      | none =>
        lexFrom (.run (String.ofList (c :: cs.takeWhile isRunChar)) :: found)
          (cs.dropWhile isRunChar)
  termination_by cs => cs.length
  decreasing_by
    · have := (List.dropWhile_suffix isGap (l := cs)).length_le
      simp only [List.length_cons]
      omega
    · simp
    · simp +arith
    · have := (List.dropWhile_suffix isPlain (l := cs)).length_le
      simp only [List.length_cons]
      omega
    · exact length_text? _h
    · simp
    · have := (List.dropWhile_suffix isRunChar (l := cs)).length_le
      simp only [List.length_cons]
      omega

/-- The text without a byte order mark at its front. -/
def dropMark : List Char → List Char
  | '\ufeff' :: cs => cs
  | cs => cs

def lex (document : String) : Option (List Lexeme) :=
  lexFrom [] (dropMark document.toList)

end WhileSyntax.Toml
