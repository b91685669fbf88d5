import WhileSyntax.Grammar
import WhileSyntax.Text.Quoted
namespace WhileSyntax

/-! # Tree events

A tree is described by a flat list of events, in the order in which its nodes appear. Nodes are
known by handles; an event names the handle of the node that it adds to.
-/

/-- The name of a node. -/
structure Handle where
  index : Nat
  deriving DecidableEq, Repr, Inhabited

def Handle.render (h : Handle) : String :=
  "#" ++ toString h.index

/-- One step in the making of a tree. -/
inductive Event where
  /-- A tree begins, with the handle of its root. -/
  | header (root : Handle) (title : String)
  /-- A node with a label is added under a parent. -/
  | node (parent child : Handle) (label : Symbol)
  /-- The lexeme of a terminal is added under its node. -/
  | leaf (parent : Handle) (lexeme : String)
  /-- The empty production was applied at a node. -/
  | empty (parent : Handle)
  /-- A syntax error ended the analysis at a node. -/
  | error (parent : Handle) (message : String)
  /-- The tree is complete. -/
  | footer
  deriving DecidableEq, Repr

namespace Event

def render : Event → String
  | .header root title => "header " ++ root.render ++ " " ++ Text.quote title
  | .node parent child label =>
    "node " ++ child.render ++ " " ++ label.label ++ " under " ++ parent.render
  | .leaf parent lexeme => "leaf " ++ Text.quote lexeme ++ " under " ++ parent.render
  | .empty parent => "empty under " ++ parent.render
  | .error parent message => "error under " ++ parent.render ++ ": " ++ message
  | .footer => "footer"

/-- The events, each followed by a newline. -/
def renderAll (events : List Event) : String :=
  events.foldl (fun text e => text ++ e.render ++ "\n") ""

end Event

end WhileSyntax
