/-
# ChainShell.Main — the command line

Collects the arguments, the environment's marker and the standard input, runs the
program, and writes what it wrote.  The machine it runs on offers the script named by
the arguments and no programs, so commands are looked up and not found; `--explain`
needs neither.
-/
import ChainShell.Program

set_option autoImplicit false

namespace ChainShell

partial def readToEnd (stream : IO.FS.Stream) (acc : ByteArray) : IO ByteArray := do
  let bytes ← stream.read 4096
  if bytes.isEmpty then return acc else readToEnd stream (acc ++ bytes)

/-- The bytes of a file, or why it cannot be read. -/
def readScript (path : String) : IO (Except OsError (List UInt8)) := do
  try
    let bytes ← IO.FS.readBinFile path
    return .ok bytes.toList
  catch error =>
    return .error (.bare error.toString.toList)

/-- The machine that offers the script of a request. -/
def machineFor : Except UsageError Request → IO Host
  | .ok (.run { script := some path, .. }) => do
    return { files := [(path, ← readScript (String.ofList path))] }
  | _ => return {}

def showAction : Action → IO Unit
  | .wrote .out text => IO.print (String.ofList text)
  | .wrote .err text => IO.eprint (String.ofList text)
  | _ => return ()

end ChainShell

open ChainShell in
def main (arguments : List String) : IO UInt32 := do
  let arguments := arguments.map String.toList
  let stdin ← IO.getStdin
  let bytes := (← readToEnd stdin .empty).toList
  let input : StandardInput :=
    if ← stdin.isTty then .terminal [.chunk bytes]
    else .piped (.ok bytes)
  let marker := (← IO.getEnv "DCSH_PROMPT").map String.toList
  let host ← machineFor (Request.ofArguments arguments)
  let ended := runProgram arguments { marker, input } { host }
  ended.actions.forM showAction
  match ended.result with
  | .ok code => return (code % 256).toNat.toUInt32
  | .error fault =>
    IO.eprintln (String.ofList fault.message)
    return 1
