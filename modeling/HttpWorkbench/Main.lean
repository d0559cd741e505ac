import HttpWorkbench.CommandLine.Drawing
import HttpWorkbench.CommandLine.NamedFiles
import HttpWorkbench.CommandLine.Program
import HttpWorkbench.CommandLine.Usage
import Std.Time.DateTime.Timestamp

/-!
# The command line

The outer layer: it gathers what a session starts from, runs the program, and carries what the
session changed out to the disk and the consoles. No transport is at hand, so that no exchange is
answered.
-/

namespace HttpWorkbench.CommandLine

/-- What is at a key on the disk. -/
def nodeOnDisk (key : FileKey) : IO (Option Node) := do
  try
    let content ← IO.FS.readBinFile (Files.keyText key).asString
    pure (some (.file (.bytes content.toList)))
  catch
    | .noFileOrDirectory .. => pure none
    | .invalidArgument .. => pure none
    | .inappropriateType .. => pure (some .directory)
    | fault => throw fault

/-- Files together with what the disk holds along a path. -/
def gather (files : Files) (path : Path) : IO Files :=
  (Files.keysAlong path).foldlM (fun files key => do
    let node ← nodeOnDisk key
    pure (node.elim files (files.put key))) files

/-- The files on the disk that an invocation names. -/
def gatherNamed (invocation : Invocation) : IO Files := do
  let files ← invocation.files.foldlM gather .empty
  match Settings.load files .null (Value.ofText? invocation.settingsFile) with
  | .ok settings => settings.files.foldlM gather files
  | .error _ => pure files

/-- The clock and a first identifier that nobody has drawn before. -/
def freshSupply : IO Supply := do
  let now ← Std.Time.Timestamp.now
  let seed ← IO.getRandomBytes 15
  pure { now := now.toMillisecondsSinceUnixEpoch.val
         drawn := seed.toList.foldl (fun n byte => 256 * n + byte.toNat) 0 }

/-- What an invocation finds around it. -/
def surroundingsOf (invocation : Option Invocation) : IO Surroundings := do
  let input ←
    if invocation.any Invocation.readsInput then (← IO.getStdin).readToEnd else pure ""
  let isTerminal ← (← IO.getStdout).isTty
  pure { registry := .standard, outcome := .error .notConnected, input, isTerminal }

/-- Show something on a console. -/
def draw (console : Console) (d : Display) : IO Unit :=
  match console with
  | .out => IO.println d.plain.asString
  | .err => IO.eprintln d.plain.asString

/-- Carry out what a session changed. -/
def carryOutChanges (before : Files) (s : Session) : IO Unit := do
  (Files.changedSince before s.files).forM fun (key, content) =>
    IO.FS.writeBinFile (Files.keyText key).asString ⟨content.raw.toArray⟩
  IO.print s.output.asString
  s.shown.forM fun (console, d) => draw console d

/-- Tell how the program ended, and give its code. -/
def conclude : Result Ending → IO UInt32
  | .ok ending => do
    match ending with
    | .code _ => pure ()
    | .helped _ => IO.println usage.asString
    | .refused fault => IO.eprintln (programName ++ ": error: " ++ fault.message).asString
    pure (UInt32.ofNat ending.exitCode)
  | .error failure => do
    IO.eprintln failure.message.asString
    pure 1

/-- Run the program on the words of a command line. -/
def runOnDisk (arguments : List Text) : IO UInt32 := do
  let invocation := (Invocation.read arguments).toOption
  let files ← invocation.elim (pure .empty) gatherNamed
  let around ← surroundingsOf invocation
  let supply ← freshSupply
  let (result, s) := CommandLine.run around arguments (.start files supply)
  carryOutChanges files s
  conclude result

end HttpWorkbench.CommandLine

/-- The program. -/
def main (arguments : List String) : IO UInt32 :=
  HttpWorkbench.CommandLine.runOnDisk (arguments.map HttpWorkbench.Text.ofString)
