import ChainShell.Main
import ChainShell.Proofs.Chain.Course
import ChainShell.Proofs.Chain.Wiring
import ChainShell.Proofs.Console.Detached
import ChainShell.Proofs.Chain.Shape
import ChainShell.Terminal.Program
import ChainShell.Proofs.Terminal.Modes
import ChainShell.Proofs.Terminal.Tracking
import ChainShell.Proofs.Console.Bracketing
import ChainShell.Proofs.Console.Editor
import ChainShell.Proofs.Console.Edits
import ChainShell.Proofs.Console.Screen
import ChainShell.Proofs.Console.Refinement
import ChainShell.Proofs.Children.Ledger
import ChainShell.Proofs.Children.Rounds
import ChainShell.Proofs.Children.Accounts
import ChainShell.Proofs.Key.Chunks
import ChainShell.Proofs.Text.Utf8
import ChainShell.Proofs.Key.Presses
import ChainShell.Proofs.Token.Matching
import ChainShell.Proofs.Token.Scanning
import ChainShell.Proofs.Token.Spacing
import ChainShell.Proofs.Chain.Quoting
import ChainShell.Proofs.Chain.Interrupts
import ChainShell.Proofs.Faults
import ChainShell.Proofs.Chain.Demands
import ChainShell.Proofs.Chain.Failure
import ChainShell.Proofs.Key.Signals
import ChainShell.Proofs.Statement.Sources
import ChainShell.Proofs.Key.Stream
import ChainShell.Proofs.Console.Agreement
import ChainShell.Proofs.Options.ExitCode
import ChainShell.Proofs.Statement.Explanation
import ChainShell.Proofs.Statement.Replay
import ChainShell.Proofs.Terminal.Nesting
import ChainShell.Proofs.Store.Reading
import ChainShell.Proofs.Token.Respacing
import ChainShell.Proofs.Chain.Joining
import ChainShell.Proofs.Chain.Description
import ChainShell.Proofs.Key.Pauses
import ChainShell.Proofs.Statement.SingleLine
import ChainShell.Proofs.Console.Browsing
import ChainShell.Proofs.Statement.Grammar
import ChainShell.Proofs.Status
import ChainShell.Proofs.Chain.Deaths
import ChainShell.Proofs.Statement.Turns
import ChainShell.Proofs.Statement.ExitStatus
import ChainShell.Proofs.Chain.Absence
import ChainShell.Proofs.Statement.Diagnostics
import ChainShell.Proofs.Token.Tables
import ChainShell.Proofs.Key.Holding
import ChainShell.Proofs.Key.Exits
