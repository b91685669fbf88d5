import WhileSyntax.Token.Scan
namespace WhileSyntax

/-! # Streams of tokens

A stream gives one token at a time and cannot be rewound. Past its last token it shows the end of
the stream, with an empty lexeme and at no position, for as long as it is asked.
-/

/-- The tokens that are still to come, and whether their positions are told. -/
structure TokenStream where
  remaining : List Token
  located : Bool
  deriving DecidableEq, Repr

namespace TokenStream

def ofTokens (tokens : List Token) : TokenStream :=
  ⟨tokens, true⟩

def ofSource (source : String) : TokenStream :=
  .ofTokens (scan source)

/-- Tokens of the lexemes, placed as if they were written on one line with a space between
neighbours, from the given byte and column on. -/
def lineUp (offset column : Nat) : List String → List Token
  | [] => []
  | text :: rest =>
    { kind := .ofLexeme text
      text
      span := ⟨offset, offset + text.utf8ByteSize⟩
      position := ⟨1, column⟩ } ::
    lineUp (offset + text.utf8ByteSize + 1) (column + text.length + 1) rest

/-- The stream of lexemes that are cut already. -/
def ofLexemes (lexemes : List String) : TokenStream :=
  .ofTokens (lineUp 0 1 lexemes)

/-- The same tokens, without telling where they stand. -/
def unlocated (s : TokenStream) : TokenStream :=
  { s with located := false }

def kind (s : TokenStream) : TokenKind :=
  match s.remaining with
  | [] => .endOfStream
  | t :: _ => t.kind

def lexeme (s : TokenStream) : String :=
  match s.remaining with
  | [] => ""
  | t :: _ => t.text

/-- Where the current token stands, if there is one and the stream tells. -/
def position? (s : TokenStream) : Option Position :=
  match s.remaining with
  | [] => none
  | t :: _ => if s.located then some t.position else none

def advance (s : TokenStream) : TokenStream :=
  { s with remaining := s.remaining.tail }

end TokenStream

end WhileSyntax
