import WhileSyntax.Tree.Builder
namespace WhileSyntax

/-! # Recording

The recorder is the builder that keeps every call as an event and questions none.
-/

/-- The events so far, latest first, and the number of handles that were issued. -/
structure Recorder where
  history : List Event
  issued : Nat
  deriving DecidableEq, Repr

namespace Recorder

def new : Recorder :=
  ⟨[], 0⟩

def events (r : Recorder) : List Event :=
  r.history.reverse

def push (r : Recorder) (e : Event) : Recorder :=
  { r with history := e :: r.history }

/-- Records a call, issuing a handle where one is due. -/
def record (r : Recorder) : Call → Recorder
  | .header title => { (r.push (.header ⟨r.issued⟩ title)) with issued := r.issued + 1 }
  | .node parent label => { (r.push (.node parent ⟨r.issued⟩ label)) with issued := r.issued + 1 }
  | .leaf parent lexeme => r.push (.leaf parent lexeme)
  | .empty parent => r.push (.empty parent)
  | .error parent message => r.push (.error parent message)
  | .footer => r.push .footer

instance : Builder Recorder where
  next r := ⟨r.issued⟩
  apply r c := (r.record c, [])

end Recorder

end WhileSyntax
