import WhileSyntax.Command
namespace WhileSyntax

/-! # The program

Reads the two files that a run may need, runs the command, and prints what it reports.
-/

def fileErrorOf : IO.Error → FileError
  | .noFileOrDirectory .. => .missing
  | .inappropriateType _ code _ => if code = 20 then .notDirectory else .isDirectory
  | .permissionDenied _ code _ => .system "Permission denied" code.toNat
  | e => .system (toString e) 0

/-- Reads a file as a text, after its path has been followed. -/
def readText (path : String) : IO (Except ReadFault String) := do
  try
    let _ ← IO.FS.realPath path
  catch e =>
    return .error (.unreachable (fileErrorOf e))
  try
    let bytes ← IO.FS.readBinFile path
    return (decodeText bytes).mapError .unreadable
  catch e =>
    return .error (.unreadable (fileErrorOf e))

end WhileSyntax

open WhileSyntax

def main (args : List String) : IO UInt32 := do
  let home := (← IO.getEnv "HOME").getD ""
  let config ← readText (Settings.path home)
  let source ←
    match Arguments.parse? args with
    | some args => readText args.path
    | none => pure (.error (.unreachable .missing))
  let read : Reader := fun path => if path = Settings.path home then config else source
  let report := Command.run "minilang" ⟨home, read, Log.thresholdOf (← IO.getEnv "RUST_LOG")⟩ args
  for r in report.log do
    IO.eprint (String.ofList r.written)
  for line in report.complaints do
    IO.eprintln line
  IO.print report.output
  return report.status.code.toUInt32
