import HttpWorkbench.Export.GivenHeaders
import HttpWorkbench.Main
import HttpWorkbench.Proofs.CommandLine.ExitCodes
import HttpWorkbench.Proofs.CommandLine.PipedOutput
import HttpWorkbench.Proofs.CommandLine.SendRuns
import HttpWorkbench.Proofs.Environment.Occurrences
import HttpWorkbench.Proofs.Environment.Reachable
import HttpWorkbench.Proofs.Environment.Resolution
import HttpWorkbench.Proofs.Environment.Saved
import HttpWorkbench.Proofs.Environment.Selection
import HttpWorkbench.Proofs.Environment.Settled
import HttpWorkbench.Proofs.Environment.Substitution
import HttpWorkbench.Proofs.Export.BackslashRuns
import HttpWorkbench.Proofs.Export.BodyLiterals
import HttpWorkbench.Proofs.Export.ByName
import HttpWorkbench.Proofs.Export.ClosedBodies
import HttpWorkbench.Proofs.Export.DistinctRequests
import HttpWorkbench.Proofs.Export.GivenShapes
import HttpWorkbench.Proofs.Export.HeaderFragments
import HttpWorkbench.Proofs.Export.Literal
import HttpWorkbench.Proofs.Export.PhpLiteral
import HttpWorkbench.Proofs.Export.PythonLiteral
import HttpWorkbench.Proofs.Export.Reported
import HttpWorkbench.Proofs.Export.ReportedFigures
import HttpWorkbench.Proofs.Export.SentRequest
import HttpWorkbench.Proofs.Export.ShellCommand
import HttpWorkbench.Proofs.Export.TextRequest
import HttpWorkbench.Proofs.Failing
import HttpWorkbench.Proofs.History.Chronological
import HttpWorkbench.Proofs.History.FirstEntry
import HttpWorkbench.Proofs.History.LoadedLimit
import HttpWorkbench.Proofs.History.Operations
import HttpWorkbench.Proofs.History.Run
import HttpWorkbench.Proofs.History.Saved
import HttpWorkbench.Proofs.History.Search
import HttpWorkbench.Proofs.Registry.KeptNames
import HttpWorkbench.Proofs.Registry.Names
import HttpWorkbench.Proofs.Registry.Registration
import HttpWorkbench.Proofs.Registry.Removal
import HttpWorkbench.Proofs.Request.Decoded
import HttpWorkbench.Proofs.Request.HeaderArguments
import HttpWorkbench.Proofs.Request.Saved
import HttpWorkbench.Proofs.Sending.DocumentType
import HttpWorkbench.Proofs.Sending.RecordedOutcome
import HttpWorkbench.Proofs.Settings.Manager
import HttpWorkbench.Proofs.Settings.Saved
import HttpWorkbench.Proofs.Settings.Validated
import HttpWorkbench.Proofs.Shell.Words
import HttpWorkbench.Proofs.Storage.FailedSave
import HttpWorkbench.Proofs.Text.LowerCase
import HttpWorkbench.Settings.Validation
