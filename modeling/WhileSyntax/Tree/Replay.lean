import WhileSyntax.Tree.Builder
import Std.Data.TreeMap
namespace WhileSyntax

/-! # Replaying events

Recorded events are turned back into calls on a builder. The builder issues handles of its own, so
the handles in the events are translated; an event that names a node which no earlier event has
made is skipped.
-/

/-- The builder's handle for each handle that an event has declared. -/
abbrev Translation := Std.TreeMap Nat Handle

/-- What an event asks for, with the builder's handles, and the handle that it declares. -/
structure Replayed where
  call : Call
  declares : Option Handle

/-- The call of an event, unless the node that it adds to is unknown. -/
def Event.toCall? (known : Translation) : Event → Option Replayed
  | .header root title => some ⟨.header title, some root⟩
  | .node parent child label => known[parent.index]?.map fun p => ⟨.node p label, some child⟩
  | .leaf parent lexeme => known[parent.index]?.map fun p => ⟨.leaf p lexeme, none⟩
  | .empty parent => known[parent.index]?.map fun p => ⟨.empty p, none⟩
  | .error parent message => known[parent.index]?.map fun p => ⟨.error p message, none⟩
  | .footer => some ⟨.footer, none⟩

/-- The record of an event that is skipped. -/
def Event.skipped (e : Event) : LogRecord :=
  let missing := match e with
    | .leaf .. | .error .. => "unknown node"
    | _ => "unknown parent"
  ⟨.warn, "skipping " ++ e.render ++ ": " ++ missing⟩

namespace Builder

variable {β : Type} [Builder β]

/-- A replay under way: the builder, the handles known so far, and the log, latest record
first. -/
structure Replay (β : Type) where
  builder : β
  known : Translation
  log : Log

def Replay.step (r : Replay β) (e : Event) : Replay β :=
  match e.toCall? r.known with
  | none => { r with log := e.skipped :: r.log }
  | some ⟨call, declares⟩ =>
    let known := match declares with
      | none => r.known
      | some h => r.known.insert h.index (next r.builder)
    let (builder, said) := apply r.builder call
    ⟨builder, known, said.reverse ++ r.log⟩

/-- The builder after the events, and what was logged. -/
def replay (b : β) (events : List Event) : β × Log :=
  let r := events.foldl Replay.step ⟨b, {}, []⟩
  (r.builder, r.log.reverse)

end Builder

end WhileSyntax
