import WhileSyntax.Tree.Basic
import WhileSyntax.Tree.PieceKind
namespace WhileSyntax

/-! # Stored trees

A stored tree keeps a text for each of its leaves; the texts from left to right are the tree's
text. The mark of an empty production is a node around an empty text, and an error is a node around
its message. Each node and each text covers a range of bytes.
-/

/-- A node or a text of a stored tree; a node has no text of its own. -/
structure Piece where
  depth : Nat
  kind : PieceKind
  start : Nat
  stop : Nat
  text : Option String
  deriving DecidableEq, Repr

/-- The text that an element adds to the tree. -/
def Element.text : Element → String
  | .node _ | .empty => ""
  | .lexeme text | .error text => text

/-- The bytes that the entries cover. -/
def extent (entries : List Entry) : Nat :=
  entries.foldl (fun n e => n + e.element.text.utf8ByteSize) 0

/-- The pieces of an entry that begins at the byte `start`, when `below` is listed below it. -/
def Entry.pieces (start : Nat) (e : Entry) (below : List Entry) : List Piece :=
  let stop := start + e.element.text.utf8ByteSize
  match e.element with
  | .node label => [⟨e.depth, .ofSymbol label, start, start + extent below, none⟩]
  | .lexeme text => [⟨e.depth, .lexeme, start, stop, some text⟩]
  | .empty =>
    [⟨e.depth, .wrapper .empty, start, stop, none⟩, ⟨e.depth + 1, .epsilon, start, stop, some ""⟩]
  | .error message =>
    [⟨e.depth, .error, start, stop, none⟩,
      ⟨e.depth + 1, .errorMessage, start, stop, some message⟩]

/-- The pieces of the entries of a listing, from the byte `start` on; `laid` stand latest
first. -/
def layOut (start : Nat) (laid : List Piece) : List Entry → List Piece
  | [] => laid.reverse
  | e :: es =>
    let below := es.takeWhile fun f => e.depth < f.depth
    layOut (start + e.element.text.utf8ByteSize) ((e.pieces start below).reverse ++ laid) es

namespace ParseTree

def textLength (t : ParseTree) : Nat :=
  extent t.listing

/-- Every node and text of the stored tree in preorder, the root at depth 0. -/
def pieces (t : ParseTree) : List Piece :=
  ⟨0, .root, 0, t.textLength, none⟩ :: layOut 0 [] t.listing

end ParseTree

end WhileSyntax
