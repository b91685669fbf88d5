namespace WhileSyntax

/-! # Token kinds

The vocabulary of the language. Fourteen kinds own a fixed set of lexemes; identifiers and
numbers are open-ended, `empty` stands for the empty production and `endOfStream` for the end of
the input.
-/

/-- What a token is to the grammar. -/
inductive TokenKind where
  | identifier
  | number
  | empty
  | endOfStream
  | assign
  | readWord
  | writeWord
  | addOp
  | multOp
  | leftParen
  | rightParen
  | ifWord
  | thenWord
  | fiWord
  | whileWord
  | doWord
  | odWord
  | relation
  deriving DecidableEq, Repr, Inhabited

namespace TokenKind

/-- Every kind, in the order in which the lexeme sets are searched. -/
def all : List TokenKind :=
  [identifier, number, empty, endOfStream, assign, readWord, writeWord, addOp, multOp, leftParen,
    rightParen, ifWord, thenWord, fiWord, whileWord, doWord, odWord, relation]

def index : TokenKind → Nat
  | identifier => 0
  | number => 1
  | empty => 2
  | endOfStream => 3
  | assign => 4
  | readWord => 5
  | writeWord => 6
  | addOp => 7
  | multOp => 8
  | leftParen => 9
  | rightParen => 10
  | ifWord => 11
  | thenWord => 12
  | fiWord => 13
  | whileWord => 14
  | doWord => 15
  | odWord => 16
  | relation => 17

/-- The name of the kind, which also labels the node of a consumed terminal. -/
def label : TokenKind → String
  | identifier => "ID"
  | number => "NUMBER"
  | empty => "EMPTY"
  | endOfStream => "EOF"
  | assign => "EQUAL"
  | readWord => "READ"
  | writeWord => "WRITE"
  | addOp => "ADD_OP"
  | multOp => "MULT_OP"
  | leftParen => "LPAREN"
  | rightParen => "RPAREN"
  | ifWord => "IF"
  | thenWord => "THEN"
  | fiWord => "FI"
  | whileWord => "WHILE"
  | doWord => "DO"
  | odWord => "OD"
  | relation => "RELATION"

/-- The phrase that names the kind in a syntax error. -/
def description : TokenKind → String
  | identifier => "an ID"
  | number => "a Number"
  | empty => "nothing"
  | endOfStream => "End of Program"
  | assign => "a :="
  | readWord => "a Read"
  | writeWord => "a Write"
  | addOp => "an Addition/Subtraction Operator"
  | multOp => "a Multiplication/Division Operator"
  | leftParen => "a Left Parentheses"
  | rightParen => "a Right Parentheses"
  | ifWord => "an If"
  | thenWord => "a Then"
  | fiWord => "a Fi"
  | whileWord => "a While"
  | doWord => "a Do"
  | odWord => "an Od"
  | relation => "a Relation Operator"

/-- The lexemes that belong to the kind; none for the open-ended kinds. -/
def lexemes : TokenKind → List String
  | identifier | number | empty | endOfStream => []
  | assign => [":="]
  | readWord => ["read"]
  | writeWord => ["write"]
  | addOp => ["+", "-"]
  | multOp => ["*", "/"]
  | leftParen => ["("]
  | rightParen => [")"]
  | ifWord => ["if"]
  | thenWord => ["then"]
  | fiWord => ["fi"]
  | whileWord => ["while"]
  | doWord => ["do"]
  | odWord => ["od"]
  | relation => ["<", ">", "<=", ">=", "=", "!="]

def ofLabel? (name : String) : Option TokenKind :=
  all.find? fun k => k.label = name

theorem mem_all (k : TokenKind) : k ∈ all := by
  cases k <;> decide

/-- No two kinds have the same name. -/
theorem label_injective {j k : TokenKind} (h : j.label = k.label) : j = k := by
  cases j <;> cases k <;> simp_all [label]

end TokenKind

end WhileSyntax
