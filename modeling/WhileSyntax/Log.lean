import WhileSyntax.Text.Controls
import WhileSyntax.Text.Lines
namespace WhileSyntax

/-! # Log records

A record is a level and a message. Where records are written out, the further lines of a message
are indented, so that each record begins with the first line that is not.
-/

/-- How much a record matters, the weightiest first. -/
inductive Level where
  | error
  | warn
  | info
  | debug
  | trace
  deriving DecidableEq, Repr, Inhabited

namespace Level

/-- Every level, the weightiest first. -/
def all : List Level :=
  [error, warn, info, debug, trace]

/-- The place of the level, counted from 1; a threshold of 0 lets nothing through. -/
def rank : Level → Nat
  | error => 1
  | warn => 2
  | info => 3
  | debug => 4
  | trace => 5

def name : Level → String
  | error => "ERROR"
  | warn => "WARN"
  | info => "INFO"
  | debug => "DEBUG"
  | trace => "TRACE"

end Level

structure LogRecord where
  level : Level
  message : String
  deriving DecidableEq, Repr

def LogRecord.render (r : LogRecord) : String :=
  r.level.name ++ " " ++ r.message

/-- By how many spaces the further lines of a written record are indented. -/
def LogRecord.margin : Nat :=
  4

/-- The record as it is written out: without controls, and ended by a newline. -/
def LogRecord.written (r : LogRecord) : List Char :=
  Text.withoutControls (Text.indentRest margin r.render.toList ++ ['\n'])

def LogRecord.lines (r : LogRecord) : List String :=
  Text.lines r.written

/-- Records in the order in which they were made. -/
abbrev Log := List LogRecord

/-- The records that a threshold lets through: those of its rank or less, none at 0. -/
def Log.upTo (threshold : Nat) (log : Log) : Log :=
  log.filter fun r => r.level.rank ≤ threshold

end WhileSyntax
