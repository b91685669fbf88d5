import WhileSyntax.Text.CodeSet
import WhileSyntax.Text.Blank
import WhileSyntax.Text.Controls
import WhileSyntax.Text.Lines
import WhileSyntax.Text.Word
import WhileSyntax.Text.Shown
import WhileSyntax.Text.Quoted
import WhileSyntax.Text.Digits
import WhileSyntax.Token.Kind
import WhileSyntax.Token.Classify
import WhileSyntax.Token.Basic
import WhileSyntax.Token.Scan
import WhileSyntax.Token.Stream
import WhileSyntax.Grammar
import WhileSyntax.Log
import WhileSyntax.Tree.Basic
import WhileSyntax.Tree.Event
import WhileSyntax.Tree.Builder
import WhileSyntax.Tree.Recorder
import WhileSyntax.Tree.Replay
import WhileSyntax.Tree.Assembler
import WhileSyntax.Tree.PieceKind
import WhileSyntax.Tree.Layout
import WhileSyntax.Tree.Outline
import WhileSyntax.Diagnosis
import WhileSyntax.Analysis
import WhileSyntax.Parse
import WhileSyntax.Toml.Value
import WhileSyntax.Toml.Text
import WhileSyntax.Toml.Scalar
import WhileSyntax.Toml.Lexeme
import WhileSyntax.Toml.Tables
import WhileSyntax.Toml.Document
import WhileSyntax.Toml.Notation
import WhileSyntax.Settings
import WhileSyntax.Files
import WhileSyntax.Command
import WhileSyntax.Main
import WhileSyntax.Proofs.Derivation
import WhileSyntax.Proofs.Language
import WhileSyntax.Proofs.Lookahead
import WhileSyntax.Proofs.Progress
import WhileSyntax.Proofs.Recognition
import WhileSyntax.Proofs.Retrace
import WhileSyntax.Proofs.Calls
import WhileSyntax.Proofs.Growth
import WhileSyntax.Proofs.Blanks
import WhileSyntax.Proofs.Scanning
import WhileSyntax.Proofs.Spacing
import WhileSyntax.Proofs.RoundTrip
import WhileSyntax.Proofs.Reading
import WhileSyntax.Proofs.Handles
import WhileSyntax.Proofs.Shape
import WhileSyntax.Proofs.Logging
import WhileSyntax.Proofs.Sessions
import WhileSyntax.Proofs.Protocol
import WhileSyntax.Proofs.Planting
import WhileSyntax.Proofs.Rightmost
import WhileSyntax.Proofs.Consumption
import WhileSyntax.Proofs.Depth
import WhileSyntax.Proofs.Printing
import WhileSyntax.Proofs.Segments
import WhileSyntax.Proofs.Tiling
import WhileSyntax.Proofs.Lockstep
import WhileSyntax.Proofs.Relayout
import WhileSyntax.Proofs.Normalizing
import WhileSyntax.Proofs.Contents
import WhileSyntax.Proofs.Quoting
import WhileSyntax.Proofs.Readability
import WhileSyntax.Proofs.Joining
import WhileSyntax.Proofs.Behind
import WhileSyntax.Proofs.Places
import WhileSyntax.Proofs.Outcomes
import WhileSyntax.Proofs.Foresight
import WhileSyntax.Proofs.Notations
import WhileSyntax.Proofs.Entries
import WhileSyntax.Proofs.Keeping
import WhileSyntax.Proofs.EventLines
import WhileSyntax.Proofs.Blame
import WhileSyntax.Proofs.LineByLine
import WhileSyntax.Proofs.Pace
import WhileSyntax.Proofs.OneLine
import WhileSyntax.Proofs.Sealing
import WhileSyntax.Proofs.Narration
import WhileSyntax.Proofs.Fallback
import WhileSyntax.Proofs.Walking
import WhileSyntax.Proofs.Nesting
import WhileSyntax.Proofs.Margins
