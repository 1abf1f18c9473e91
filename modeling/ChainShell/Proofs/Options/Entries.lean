/-
# ChainShell.Proofs.Options.Entries — three ways to hand over a script

The text to run without a terminal is given with the options, held by a file, or stands on
the standard input.  The file and the standard input are read as UTF-8, and the line ends of the
file are written in one way before anything else; otherwise the text is taken as it is.  A script
says the same however its line ends are written, so all three run the same statements:

* `runSource_unifyNewlines`: the line ends of a script do not matter to its run;
* `runFile_of_encoded`: a file that holds the bytes of a text runs as the text;
* `runPiped_of_encoded`: so does a standard input with these bytes.

`run_same_source` says so for the program as its options choose, for every text and session.
-/
import ChainShell.Program
import ChainShell.Proofs.Statement.Sources
import ChainShell.Proofs.Text.Utf8
import Mathlib.Data.List.Basic

set_option autoImplicit false

namespace ChainShell

namespace Activity

theorem runSource_unifyNewlines (source : Text) :
    runSource (Text.unifyNewlines source) = runSource source := by
  unfold runSource
  rw [Statement.ofSource_unifyNewlines]

theorem runFile_of_encoded {path source : Text} {s : Session}
    (held : s.host.file path = .ok (Utf8.encode source)) :
    runFile path s = runSource source s := by
  unfold runFile
  rw [get_bind_apply, held]
  dsimp only
  rw [Utf8.decode?_encode]
  dsimp only
  rw [runSource_unifyNewlines]

theorem runPiped_of_encoded (source : Text) :
    runPiped (.ok (Utf8.encode source)) = runSource source := by
  rw [runPiped, Utf8.decode?_encode]

end Activity

open Activity

namespace Options

/-- A text given with the options, a file that holds its bytes and a standard input that holds it
run alike: with the same result, the same actions and the same session after. -/
theorem run_same_source {source path : Text} {s : Session}
    (held : s.host.file path = .ok (Utf8.encode source)) (o o' o'' : Options)
    (around around' around'' : Environment) :
    let given := { o with command := some (.text source), explain := false }
    let filed := { o' with script := some path, command := none, explain := false }
    let piped := { o'' with script := none, command := none, explain := false }
    filed.run around' s = given.run around s ∧
      piped.run { around'' with input := .text source } s = given.run around s := by
  intro given filed piped
  have asGiven : given.run around s = runSource source s := rfl
  have asFiled : filed.run around' s = runFile path s := rfl
  have asPiped : piped.run { around'' with input := .text source } s =
      runPiped (.ok (Utf8.encode source)) s := rfl
  constructor
  · rw [asFiled, asGiven]
    exact runFile_of_encoded held
  · rw [asPiped, asGiven, runPiped_of_encoded]

/-- A script with all three line ends, two of them in a row, and with characters of several
bytes. -/
def mixedScript : Text := "e = é\r\n\rx = $e\rshow $x\n\n show ß \r".toList

theorem run_same_source_mixed :
    let path := "mixed".toList
    let s : Session :=
      { host := {
          programs := [("show".toList, [.starts 0 0 0, .starts (-9) 0 0])]
          files := [(path, .ok (Utf8.encode mixedScript))] } }
    let given : Options := { command := some (.text mixedScript) }
    let filed : Options := { script := some path }
    let piped : Options := {}
    s.host.file path = .ok (Utf8.encode mixedScript) ∧
      (given.run {} s).result = .ok 137 ∧ filed.run {} s = given.run {} s ∧
      piped.run { input := .text mixedScript } s = given.run {} s := by
  intro path s given filed piped
  have held : s.host.file path = .ok (Utf8.encode mixedScript) := rfl
  have killed : (given.run {} s).result = .ok 137 := by decide +kernel
  exact ⟨held, killed, run_same_source held given filed piped {} {} {}⟩

end Options

end ChainShell
