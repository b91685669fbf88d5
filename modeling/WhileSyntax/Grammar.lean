import WhileSyntax.Token.Kind
namespace WhileSyntax

/-! # The grammar

```
PROGRAM     := STMT_LIST EOF
STMT_LIST   := STMT STMT_LIST | ε
STMT        := ID := EXPR | read ID | write EXPR
             | if CONDITION then STMT_LIST fi
             | while CONDITION do STMT_LIST od
CONDITION   := EXPR RELATION EXPR
EXPR        := TERM TERM_TAIL
TERM_TAIL   := ADD_OP TERM TERM_TAIL | ε
TERM        := FACTOR FACTOR_TAIL
FACTOR_TAIL := MULT_OP FACTOR FACTOR_TAIL | ε
FACTOR      := ( EXPR ) | NUMBER | ID
```

One token of lookahead decides which production of a rule applies. `Rule.productions` says what
the grammar is, `Rule.predict` which production is taken.
-/

inductive Rule where
  | program
  | stmtList
  | stmt
  | expr
  | termTail
  | term
  | factorTail
  | factor
  | condition
  deriving DecidableEq, Repr, Inhabited

/-- A terminal or a rule: what a production is made of and what a node of a tree is labelled
with. -/
inductive Symbol where
  | terminal (kind : TokenKind)
  | rule (rule : Rule)
  deriving DecidableEq, Repr, Inhabited

namespace Rule

/-- Every rule, in the order of their node kinds. -/
def all : List Rule :=
  [program, stmtList, stmt, expr, termTail, term, factorTail, factor, condition]

def index : Rule → Nat
  | program => 0
  | stmtList => 1
  | stmt => 2
  | expr => 3
  | termTail => 4
  | term => 5
  | factorTail => 6
  | factor => 7
  | condition => 8

def name : Rule → String
  | program => "PROGRAM"
  | stmtList => "STMT_LIST"
  | stmt => "STMT"
  | expr => "EXPR"
  | termTail => "TERM_TAIL"
  | term => "TERM"
  | factorTail => "FACTOR_TAIL"
  | factor => "FACTOR"
  | condition => "CONDITION"

def ofName? (name : String) : Option Rule :=
  all.find? fun r => r.name = name

end Rule

/-- The label of a node as it is written: a rule by its name, a terminal by its kind in angle
brackets. -/
def Symbol.label : Symbol → String
  | .terminal k => "<" ++ k.label ++ ">"
  | .rule r => r.name

/-! ## Productions -/

/-- `ID := EXPR` -/
def assignment : List Symbol :=
  [.terminal .identifier, .terminal .assign, .rule .expr]

/-- `read ID` -/
def readStatement : List Symbol :=
  [.terminal .readWord, .terminal .identifier]

/-- `write EXPR` -/
def writeStatement : List Symbol :=
  [.terminal .writeWord, .rule .expr]

/-- `if CONDITION then STMT_LIST fi` -/
def conditional : List Symbol :=
  [.terminal .ifWord, .rule .condition, .terminal .thenWord, .rule .stmtList, .terminal .fiWord]

/-- `while CONDITION do STMT_LIST od` -/
def whileLoop : List Symbol :=
  [.terminal .whileWord, .rule .condition, .terminal .doWord, .rule .stmtList, .terminal .odWord]

/-- `STMT STMT_LIST` -/
def moreStatements : List Symbol :=
  [.rule .stmt, .rule .stmtList]

/-- `ADD_OP TERM TERM_TAIL` -/
def moreTerms : List Symbol :=
  [.terminal .addOp, .rule .term, .rule .termTail]

/-- `MULT_OP FACTOR FACTOR_TAIL` -/
def moreFactors : List Symbol :=
  [.terminal .multOp, .rule .factor, .rule .factorTail]

/-- `( EXPR )` -/
def parenthesized : List Symbol :=
  [.terminal .leftParen, .rule .expr, .terminal .rightParen]

def Rule.productions : Rule → List (List Symbol)
  | .program => [[.rule .stmtList, .terminal .endOfStream]]
  | .stmtList => [moreStatements, []]
  | .stmt => [assignment, readStatement, writeStatement, conditional, whileLoop]
  | .expr => [[.rule .term, .rule .termTail]]
  | .termTail => [moreTerms, []]
  | .term => [[.rule .factor, .rule .factorTail]]
  | .factorTail => [moreFactors, []]
  | .factor => [parenthesized, [.terminal .number], [.terminal .identifier]]
  | .condition => [[.rule .expr, .terminal .relation, .rule .expr]]

/-! ## Prediction -/

/-- Whether a statement may begin with a token of this kind. -/
def TokenKind.startsStatement : TokenKind → Bool
  | .identifier | .ifWord | .readWord | .whileWord | .writeWord => true
  | _ => false

/-- The right-hand side that is taken when the current token is of the given kind. A statement is
a loop and a factor an identifier where nothing else fits, so that a wrong token is reported by
the terminal that it fails to match. -/
def Rule.predict : Rule → TokenKind → List Symbol
  | .program, _ => [.rule .stmtList, .terminal .endOfStream]
  | .stmtList, k => if k.startsStatement then moreStatements else []
  | .stmt, .identifier => assignment
  | .stmt, .readWord => readStatement
  | .stmt, .writeWord => writeStatement
  | .stmt, .ifWord => conditional
  | .stmt, _ => whileLoop
  | .expr, _ => [.rule .term, .rule .termTail]
  | .termTail, .addOp => moreTerms
  | .termTail, _ => []
  | .term, _ => [.rule .factor, .rule .factorTail]
  | .factorTail, .multOp => moreFactors
  | .factorTail, _ => []
  | .factor, .leftParen => parenthesized
  | .factor, .number => [.terminal .number]
  | .factor, _ => [.terminal .identifier]
  | .condition, _ => [.rule .expr, .terminal .relation, .rule .expr]

/-- What is predicted is a production of the rule. -/
theorem Rule.predict_mem_productions (r : Rule) (k : TokenKind) : r.predict k ∈ r.productions := by
  cases r <;> cases k <;> decide

end WhileSyntax
