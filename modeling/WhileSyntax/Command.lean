import WhileSyntax.Settings
import WhileSyntax.Tree.Outline
namespace WhileSyntax

/-! # The command

The command analyses one source file and prints its tree or its events. What it does is decided by
its arguments, the files that can be read, the home directory and the log threshold.
-/

/-! ## Arguments -/

/-- What the arguments ask for. -/
structure Arguments where
  path : String
  events : Bool
  deriving DecidableEq, Repr

namespace Arguments

def isOption (arg : String) : Bool :=
  ['-', '-'].isPrefixOf arg.toList

/-- Reads the arguments that are left, when the path and the wish for events are known so far. -/
def parseFrom (path : Option String) (events : Bool) : List String → Option Arguments
  | [] => path.map (⟨·, events⟩)
  | arg :: rest =>
    if arg = "--events" then parseFrom path true rest
    else if isOption arg then none
    else
      match path with
      | none => parseFrom (some arg) events rest
      | some _ => none

/-- The arguments after the program's name: one path, and the option `--events` anywhere and any
number of times. -/
def parse? (args : List String) : Option Arguments :=
  parseFrom none false args

end Arguments

/-! ## Log thresholds -/

/-- The threshold when none is set: errors, warnings and information. -/
def Log.defaultThreshold : Nat :=
  Level.info.rank

/-- The threshold of the given name, in letters of either case and with blanks around it. -/
def Log.threshold? (name : String) : Option Nat :=
  let name := (String.ofList (Text.trim name.toList)).map Char.toUpper
  if name = "OFF" then some 0
  else (Level.all.find? fun l => l.name = name).map Level.rank

/-- The threshold for a setting that may be missing. -/
def Log.thresholdOf (setting : Option String) : Nat :=
  (setting.bind Log.threshold?).getD Log.defaultThreshold

/-! ## Running -/

inductive ExitStatus where
  | success
  | failure
  | usage
  /-- A line of the tree would need a margin that no text can hold. -/
  | aborted
  deriving DecidableEq, Repr

/-- The number that is handed to the caller. -/
def ExitStatus.code : ExitStatus → Nat
  | success => 0
  | failure => 1
  | usage => 2
  | aborted => 134

/-- What a run leaves behind: its status, what it printed, its complaints, and the records that the
threshold let through. -/
structure Report where
  status : ExitStatus
  output : String
  complaints : List String
  log : Log
  deriving DecidableEq, Repr

/-- The first line of each written record. -/
def Report.headlines (r : Report) : List String :=
  r.log.map fun x => x.lines.headD ""

/-- The lines that no record begins with: further lines of records, then the complaints. -/
def Report.remarks (r : Report) : List String :=
  r.log.flatMap (fun x => x.lines.tail) ++
    r.complaints.flatMap fun text => Text.lines (text.toList ++ ['\n'])

/-- What a run depends on apart from its arguments. -/
structure Environment where
  home : String
  read : Reader
  threshold : Nat

namespace Command

def usage (program : String) : String :=
  "Usage: " ++ program ++ " <source-file> [--events]"

/-- The fault with an ellipsis for what is wrong with a malformed document. -/
def complaint (fault : Settings.Fault) : String :=
  match fault with
  | .unreadable .. => fault.message
  | .malformed _ => fault.message ++ "..."

/-- The settings in effect, and the record of where they come from. -/
def configure (env : Environment) : Settings × Log :=
  match Settings.load env.read (Settings.path env.home) with
  | .ok none => (Settings.default, [])
  | .ok (some c) => (c, [⟨.debug, "Loaded config from " ++ Settings.path env.home⟩])
  | .error fault => (Settings.default, [⟨.warn, complaint fault ++ "; using defaults"⟩])

def sourceComplaints (path : String) (fault : ReadFault) : List String :=
  ["Error: Failed to read " ++ path, "", "Caused by:", "    " ++ fault.message]

/-- What is printed of a parse, unless its tree does not fit. -/
def output? (printout : Printout) (indent : Nat) (p : Parse) : Option String :=
  match printout with
  | .events => some (Event.renderAll p.events)
  | .tree => if p.tree.fits indent then some (p.tree.render indent) else none

/-- The printout in effect: events where the arguments or the settings ask for them. -/
def printoutOf (args : Arguments) (settings : Settings) : Printout :=
  if args.events then .events else settings.format

def analyzeSource (args : Arguments) (settings : Settings) (source : String) :
    ExitStatus × String × List String × Log :=
  let p := parseTitled settings.title source
  let log := ⟨.info, "Analyzing " ++ args.path⟩ :: p.log
  match output? (printoutOf args settings) settings.indent p with
  | none => (.aborted, "", [], log)
  | some text => (if p.error.isSome then .failure else .success, text, [], log)

/-- Runs the command under the name `program`. -/
def run (program : String) (env : Environment) (args : List String) : Report :=
  match Arguments.parse? args with
  | none => ⟨.usage, "", [usage program], []⟩
  | some args =>
    let (settings, settingsLog) := configure env
    match env.read args.path with
    | .error fault =>
      ⟨.failure, "", sourceComplaints args.path fault, settingsLog.upTo env.threshold⟩
    | .ok source =>
      let (status, output, complaints, log) := analyzeSource args settings source
      ⟨status, output, complaints, Log.upTo env.threshold (settingsLog ++ log)⟩

end Command

end WhileSyntax
