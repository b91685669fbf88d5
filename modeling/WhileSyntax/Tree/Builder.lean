import WhileSyntax.Tree.Event
import WhileSyntax.Log
namespace WhileSyntax

/-! # Tree builders

A builder is told how a tree grows by a sequence of calls. A header and a node get a handle from
the builder, numbered in the order of these calls; later calls name nodes by their handles.
-/

/-- What a builder can be asked to do. -/
inductive Call where
  | header (title : String)
  | node (parent : Handle) (label : Symbol)
  | leaf (parent : Handle) (lexeme : String)
  | empty (parent : Handle)
  | error (parent : Handle) (message : String)
  | footer
  deriving DecidableEq, Repr

/-- Whether the call is answered with a new handle. -/
def Call.issues : Call → Bool
  | .header _ | .node _ _ => true
  | _ => false

/-- The node that the call adds to, if it names one. -/
def Call.target? : Call → Option Handle
  | .node h _ | .leaf h _ | .empty h | .error h _ => some h
  | .header _ | .footer => none

/-- A receiver of calls: the handle it issues next, and its answer to a call. -/
class Builder (β : Type) where
  /-- The handle that the next header or node is given. -/
  next : β → Handle
  /-- The builder after a call, and what it has to say about the call. -/
  apply : β → Call → β × Log

namespace Builder

variable {β : Type} [Builder β]

def answer? (b : β) (c : Call) : Option Handle :=
  if c.issues then some (next b) else none

end Builder

/-! ## Traces

An activity that makes calls and log records in between is described by its trace.
-/

/-- A call on a builder or a record for the log. -/
inductive Action where
  | call (call : Call)
  | note (record : LogRecord)
  deriving DecidableEq, Repr

namespace Builder

variable {β : Type} [Builder β]

/-- One action of a trace, on a builder and on a log whose latest record comes first. -/
def act (s : β × Log) : Action → β × Log
  | .note r => (s.1, r :: s.2)
  | .call c =>
    let (b, said) := apply s.1 c
    (b, said.reverse ++ s.2)

/-- The builder after a trace and everything that was logged meanwhile. -/
def perform (b : β) (trace : List Action) : β × Log :=
  let (b, log) := trace.foldl act (b, [])
  (b, log.reverse)

end Builder

end WhileSyntax
