import WhileSyntax.Analysis
import WhileSyntax.Tree.Recorder
import WhileSyntax.Tree.Assembler
import WhileSyntax.Tree.Replay
namespace WhileSyntax

/-! # Parsing

A session brings a stream and a builder together; it can be analysed any number of times. A parse
is one analysis of a source, recorded, together with the tree that the recorded events describe.
-/

def defaultTitle : String :=
  "PARSE TREE"

/-- A stream of tokens and the builder that hears of them. -/
structure Session (β : Type) where
  stream : TokenStream
  builder : β

/-- One analysis: the session after it, its error if it failed, and what was logged. -/
def Session.analyze {β : Type} [Builder β] (title : String) (s : Session β) :
    Session β × Option Diagnosis × Log :=
  let outcome := WhileSyntax.analyze title (Builder.next s.builder) s.stream
  let (builder, log) := Builder.perform s.builder outcome.trace
  (⟨outcome.rest, builder⟩, outcome.error, log)

/-- Everything that one analysis of a source gives. -/
structure Parse where
  events : List Event
  tree : ParseTree
  error : Option Diagnosis
  log : Log

/-- Scans and analyses a source and assembles its tree under a title. -/
def parseTitled (title : String) (source : String) : Parse :=
  let (session, error, log) :=
    (⟨.ofSource source, Recorder.new⟩ : Session Recorder).analyze title
  let events := session.builder.events
  let (assembler, said) := Builder.replay Assembler.new events
  ⟨events, assembler.finish, error, log ++ said⟩

def parse (source : String) : Parse :=
  parseTitled defaultTitle source

end WhileSyntax
