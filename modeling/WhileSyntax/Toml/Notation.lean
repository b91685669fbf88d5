namespace WhileSyntax.Toml

/-! # Writing texts in TOML

A text is written in the plainest of the four notations that can hold it without escapes: between
quotes or apostrophes on one line, else on several lines. A text that none of them can hold as it
is gets escapes, on several lines if it has newlines.
-/

/-- How a text is written. -/
inductive Notation where
  | basic
  | literal
  | basicLines
  | literalLines
  deriving DecidableEq, Repr

/-- The length of the longest run of the character; `current` is the length of the run that is
going on, `longest` that of the longest one before. -/
def longestRun (c : Char) (current longest : Nat) : List Char → Nat
  | [] => max current longest
  | d :: cs =>
    if d = c then longestRun c (current + 1) longest cs
    else longestRun c 0 (max current longest) cs

def runLength (c : Char) (cs : List Char) : Nat :=
  longestRun c 0 0 cs

/-- Whether a character has to be escaped wherever it stands: a control character other than tab
and newline. -/
def needsCode (c : Char) : Bool :=
  (c < ' ' && c ≠ '\t' && c ≠ '\n') || c = '\x7f'

def Notation.ofText (cs : List Char) : Notation :=
  let codes := cs.any needsCode
  let backslash := cs.contains '\\'
  let newline := cs.contains '\n'
  let quotes := runLength '"' cs
  let apostrophes := runLength '\'' cs
  if !codes && !backslash && quotes = 0 && !newline then .basic
  else if !codes && apostrophes = 0 && !newline then .literal
  else if !codes && !backslash && quotes ≤ 2 then .basicLines
  else if !codes && apostrophes ≤ 2 then .literalLines
  else if newline then .basicLines
  else .basic

/-- A character between quotes, other than a quote; only on one line does a newline need an
escape. -/
def escapeText (inLines : Bool) (c : Char) : List Char :=
  if c = '\x08' then ['\\', 'b']
  else if c = '\t' then ['\\', 't']
  else if c = '\n' then if inLines then ['\n'] else ['\\', 'n']
  else if c = '\x0c' then ['\\', 'f']
  else if c = '\r' then ['\\', 'r']
  else if c = '\\' then ['\\', '\\']
  else if needsCode c then
    let digits := (Nat.toDigits 16 c.toNat).map Char.toUpper
    '\\' :: 'u' :: (List.replicate (4 - digits.length) '0' ++ digits)
  else [c]

/-- A text between quotes. At most `allowed` quotes may stand side by side without an escape; `side`
of them have just been written. -/
def escapeTexts (inLines : Bool) (allowed : Nat) (side : Nat) : List Char → List Char
  | [] => []
  | c :: cs =>
    if c = '"' then
      if side < allowed then '"' :: escapeTexts inLines allowed (side + 1) cs
      else '\\' :: '"' :: escapeTexts inLines allowed 0 cs
    else escapeText inLines c ++ escapeTexts inLines allowed 0 cs

/-- A newline in front of a text that has newlines of its own, which is not part of it. -/
def openLines (cs : List Char) : List Char :=
  if cs.contains '\n' then ['\n'] else []

def Notation.write (cs : List Char) : Notation → List Char
  | .basic => '"' :: (escapeTexts false 0 0 cs ++ ['"'])
  | .literal => '\'' :: (cs ++ ['\''])
  | .basicLines =>
    ['"', '"', '"'] ++ openLines cs ++ escapeTexts true 2 0 cs ++ ['"', '"', '"']
  | .literalLines => ['\'', '\'', '\''] ++ openLines cs ++ cs ++ ['\'', '\'', '\'']

/-- A text as it is written in a document. -/
def writeText (s : String) : String :=
  String.ofList ((Notation.ofText s.toList).write s.toList)

end WhileSyntax.Toml
