import BlockCalc.Main
import BlockCalc.Scope.Tree
import BlockCalc.Tree.Render
import BlockCalc.Grammar.Failure
import BlockCalc.Proofs.Grammar.Answers
import BlockCalc.Proofs.Grammar.Tokens
import BlockCalc.Proofs.Grammar.Heads
import BlockCalc.Proofs.Grammar.Derivation
import BlockCalc.Proofs.Grammar.Soundness
import BlockCalc.Proofs.Grammar.Canonical
import BlockCalc.Proofs.Tree.Layout
import BlockCalc.Proofs.Tree.RoundTrip
import BlockCalc.Proofs.Grammar.Normal
import BlockCalc.Proofs.Grammar.Acceptance
import BlockCalc.Proofs.Grammar.Agreement
import BlockCalc.Proofs.Grammar.Gaps
import BlockCalc.Proofs.Grammar.Limits
import BlockCalc.Proofs.Session.Refusals
import BlockCalc.Proofs.Scope.Noninterference
import BlockCalc.Proofs.Text.Trim
import BlockCalc.Proofs.Grammar.Balance
import BlockCalc.Proofs.Grammar.Locality
import BlockCalc.Proofs.Grammar.Neighbours
import BlockCalc.Proofs.Session.Continuation
import BlockCalc.Proofs.CommandLine.Completed
import BlockCalc.Proofs.Shell.Lines
import BlockCalc.Proofs.Session.Statements
import BlockCalc.Proofs.CommandLine.FileRun
import BlockCalc.Proofs.Shell.FileAgreement
import BlockCalc.Proofs.Shell.OpenBlocks
import BlockCalc.Proofs.Scope.Exact
import BlockCalc.Proofs.Scope.Range
import BlockCalc.Proofs.Session.History
import BlockCalc.Proofs.Tree.OpenLines
import BlockCalc.Proofs.Session.Reload
import BlockCalc.Proofs.Scope.Framing
import BlockCalc.Proofs.Session.Partition
import BlockCalc.Proofs.Grammar.Factoring
import BlockCalc.Proofs.Grammar.Verdicts
import BlockCalc.Proofs.Grammar.Progress
import BlockCalc.Proofs.Tree.Ink
import BlockCalc.Proofs.Grammar.Ink
import BlockCalc.Proofs.Scope.Independence
import BlockCalc.Proofs.Scope.Visibility
import BlockCalc.Proofs.Session.Draining
import BlockCalc.Proofs.Shell.Rest
import BlockCalc.Proofs.Shell.Commands
import BlockCalc.Proofs.Reporter.Locations
import BlockCalc.Proofs.Message.Templates
import BlockCalc.Proofs.Value.Division
