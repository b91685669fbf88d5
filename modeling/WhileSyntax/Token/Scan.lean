import WhileSyntax.Token.Basic
import WhileSyntax.Text.Word
namespace WhileSyntax

/-! # From text to tokens

A text is cut into lexemes from left to right. Layout characters stand between lexemes and in
none; at any other character the longest lexeme that begins there is taken, and a character that
begins no longer one is a lexeme of its own. So the lexemes and the layout between them are the
whole text.
-/

/-! ## Where the reader stands -/

/-- A place in a text: the bytes before it, its line, and its column in characters. -/
structure Cursor where
  offset : Nat
  line : Nat
  column : Nat
  deriving DecidableEq, Repr

namespace Cursor

def start : Cursor :=
  ⟨0, 1, 1⟩

def step (p : Cursor) (c : Char) : Cursor :=
  if c = '\n' then ⟨p.offset + c.utf8Size, p.line + 1, 1⟩
  else ⟨p.offset + c.utf8Size, p.line, p.column + 1⟩

def past (p : Cursor) (cs : List Char) : Cursor :=
  cs.foldl step p

def position (p : Cursor) : Position :=
  ⟨p.line, p.column⟩

@[simp] theorem past_nil (p : Cursor) : p.past [] = p := rfl

@[simp] theorem past_cons (p : Cursor) (c : Char) (cs : List Char) :
    p.past (c :: cs) = (p.step c).past cs := rfl

theorem past_append (p : Cursor) (xs ys : List Char) :
    p.past (xs ++ ys) = (p.past xs).past ys := by
  simp [past]

end Cursor

/-! ## How far a lexeme reaches -/

/-- The length of the longest run of digits and of points with digits behind them at the front of
`cs`, added to `n`. -/
def numeralReach (n : Nat) : List Char → Nat
  | [] => n
  | [c] => if c.isDigit then n + 1 else n
  | c :: d :: cs =>
    if c.isDigit then numeralReach (n + 1) (d :: cs)
    else if c = '.' && d.isDigit then numeralReach (n + 2) cs
    else n

/-- Whether an equals sign behind the character makes a two-character lexeme with it. -/
def joinsEquals (c : Char) : Bool :=
  c = ':' || c = '!' || c = '<' || c = '>'

/-- How many characters of `cs` belong to the lexeme that begins with `c` in front of them. -/
def lexemeReach (c : Char) (cs : List Char) : Nat :=
  if joinsEquals c then if cs.head? = some '=' then 1 else 0
  else if c.isDigit then numeralReach 0 cs
  else if Text.isWordStart c then (cs.takeWhile Text.isWordContinue).length
  else 0

/-! ## The scan -/

/-- The token of a lexeme found at a place. -/
def Token.found (p : Cursor) (lexeme : List Char) : Token where
  kind := .ofLexeme (String.ofList lexeme)
  text := String.ofList lexeme
  span := ⟨p.offset, (p.past lexeme).offset⟩
  position := p.position

/-- The tokens `found` so far, latest first, followed by those of the rest of the text. -/
def scanFrom (p : Cursor) (found : List Token) : List Char → List Token
  | [] => found.reverse
  | c :: cs =>
    if Text.isLayout c then scanFrom (p.step c) found cs
    else
      let lexeme := c :: cs.take (lexemeReach c cs)
      scanFrom (p.past lexeme) (.found p lexeme :: found) (cs.drop (lexemeReach c cs))
  termination_by cs => cs.length
  decreasing_by all_goals simp +arith

def scan (source : String) : List Token :=
  scanFrom .start [] source.toList

end WhileSyntax
