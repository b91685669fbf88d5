import WhileSyntax.Tree.Basic
import WhileSyntax.Tree.Builder
namespace WhileSyntax

/-! # Assembling a tree

The assembler is the builder that makes a tree. Nodes come in preorder, so only the nodes on the
rightmost path are still open: adding to one of them closes all that lie below it. Calls that come
before the header or after the tree is sealed change nothing, and an addition to a node that is
not open goes to the innermost one.
-/

/-- A node to which children can still be added; its children stand latest first. -/
structure Branch where
  handle : Handle
  label : Symbol
  children : List Tree

/-- A branch with everything it holds, as a finished tree. -/
def Branch.close (b : Branch) : Tree :=
  .node b.label b.children.reverse

/-- A tree that is still growing: the handle and the finished children of its root, latest first,
and the open nodes on the rightmost path, innermost first. -/
structure Growth where
  root : Handle
  children : List Tree
  spine : List Branch

namespace Growth

/-- Adds a finished tree to the innermost open node. -/
def attach (g : Growth) (t : Tree) : Growth :=
  match g.spine with
  | [] => { g with children := t :: g.children }
  | b :: outer => { g with spine := { b with children := t :: b.children } :: outer }

/-- Opens a node below the innermost one. -/
def descend (g : Growth) (handle : Handle) (label : Symbol) : Growth :=
  { g with spine := ⟨handle, label, []⟩ :: g.spine }

def isOpen (g : Growth) (h : Handle) : Bool :=
  g.spine.any (fun b => b.handle = h) || g.root = h

/-- Closes nodes until one that satisfies `stop` is innermost, or only the root is open. The
trees in `carried` come from the node that was closed last. -/
def settle (stop : Branch → Bool) (g : Growth) : List Tree → List Branch → Growth
  | carried, [] => { g with children := carried ++ g.children, spine := [] }
  | carried, b :: outer =>
    let b := { b with children := carried ++ b.children }
    if stop b then { g with spine := b :: outer } else settle stop g [b.close] outer

/-- Closes nodes until the given one is innermost. -/
def ascendTo (g : Growth) (h : Handle) : Growth :=
  g.settle (fun b => b.handle = h) [] g.spine

def closeAll (g : Growth) : Growth :=
  g.settle (fun _ => false) [] g.spine

end Growth

/-- How far a tree has come. -/
inductive Assembly where
  /-- No header yet. -/
  | blank
  /-- Between the header and what seals the tree. -/
  | growing (title : String) (growth : Growth)
  /-- Complete, or ended by an error. -/
  | sealed (title : String) (growth : Growth)

/-- A tree in the making and the number of handles that were issued. -/
structure Assembler where
  assembly : Assembly
  issued : Nat

namespace Assembler

/-- An assembler that waits for a header. -/
def new : Assembler :=
  ⟨.blank, 0⟩

/-- What a call is named when it is refused. -/
def callName : Call → String
  | .header _ => "header"
  | .node .. => "non-terminal"
  | .leaf .. => "terminal"
  | .empty _ => "empty"
  | .error .. => "syntax error"
  | .footer => "footer"

/-- The record of a call that changes nothing. -/
def refusal (c : Call) : LogRecord :=
  ⟨.warn, "ignoring " ++ callName c ++ " outside of header/footer"⟩

/-- The growth with the named node innermost where that node is open, and a warning where it is
not. -/
def reach (g : Growth) (h : Handle) : Growth × Log :=
  if g.isOpen h then (g.ascendTo h, [])
  else (g, [⟨.warn, "node " ++ h.render ++ " is not open; attaching to the innermost node"⟩])

/-- What a call does to a growing tree; `fresh` is the handle that a new node gets. -/
def grow (title : String) (g : Growth) (fresh : Handle) : Call → Assembly × Log
  | .header again =>
    (.growing title g, [⟨.warn, "header already written; ignoring " ++ Text.quote again⟩])
  | .node parent label =>
    let (g, log) := reach g parent
    (.growing title (g.descend fresh label), log)
  | .leaf parent lexeme =>
    let (g, log) := reach g parent
    (.growing title (g.attach (.lexeme lexeme)), log)
  | .empty parent =>
    let (g, log) := reach g parent
    (.growing title (g.attach .empty), log)
  | .error parent message =>
    let (g, log) := reach g parent
    (.sealed title (g.attach (.error message)), log)
  | .footer => (.sealed title g, [])

/-- What a call does to a tree; `fresh` is the handle that a new root or node gets. -/
def build (fresh : Handle) : Assembly → Call → Assembly × Log
  | .blank, .header title => (.growing title ⟨fresh, [], []⟩, [])
  | .blank, c => (.blank, [refusal c])
  | .growing title g, c => grow title g fresh c
  | .sealed title g, .header again =>
    (.sealed title g, [⟨.warn, "header already written; ignoring " ++ Text.quote again⟩])
  | .sealed title g, c => (.sealed title g, [refusal c])

instance : Builder Assembler where
  next a := ⟨a.issued⟩
  apply a c :=
    let (assembly, log) := build ⟨a.issued⟩ a.assembly c
    (⟨assembly, if c.issues then a.issued + 1 else a.issued⟩, log)

/-- The tree that has been made; whatever is still open is closed. Without a header it has neither
title nor content. -/
def finish (a : Assembler) : ParseTree :=
  match a.assembly with
  | .blank => ⟨"", []⟩
  | .growing title g | .sealed title g => ⟨title, g.closeAll.children.reverse⟩

end Assembler

end WhileSyntax
