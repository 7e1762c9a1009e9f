import QueueScript.CommandLine.Folder
import QueueScript.CommandLine.Run
import QueueScript.Lint.Check
import QueueScript.Main
import QueueScript.Outline
import QueueScript.Proofs.Command.Data
import QueueScript.Proofs.Decimal.Shortest
import QueueScript.Proofs.Decimal.Text
import QueueScript.Proofs.Json.Braces
import QueueScript.Proofs.Json.Canonical
import QueueScript.Proofs.Json.Compact
import QueueScript.Proofs.Json.Layout
import QueueScript.Proofs.Json.Nesting
import QueueScript.Proofs.Json.Record
import QueueScript.Proofs.Json.Skip
import QueueScript.Proofs.Json.Typed
import QueueScript.Proofs.Lint.Agreement
import QueueScript.Proofs.Lint.Composition
import QueueScript.Proofs.Lint.Disabling
import QueueScript.Proofs.Outline
import QueueScript.Proofs.Runner.Clock
import QueueScript.Proofs.Runner.Outcome
import QueueScript.Proofs.Runner.Registry
import QueueScript.Proofs.Runner.Resolution
import QueueScript.Proofs.Runner.Serial
import QueueScript.Proofs.Runner.Withdrawal
import QueueScript.Proofs.Script.Blocks
import QueueScript.Proofs.Script.Body
import QueueScript.Proofs.Script.BodyRange
import QueueScript.Proofs.Script.Composition
import QueueScript.Proofs.Script.Defaults
import QueueScript.Proofs.Script.Delimiter
import QueueScript.Proofs.Script.Extent
import QueueScript.Proofs.Script.Insertion
import QueueScript.Proofs.Script.Line
import QueueScript.Proofs.Script.Moved
import QueueScript.Proofs.Script.Padding
import QueueScript.Proofs.Script.Parameters
import QueueScript.Proofs.Script.Places
import QueueScript.Proofs.Script.Rendering
import QueueScript.Proofs.Script.Reread
import QueueScript.Proofs.Script.Run
import QueueScript.Proofs.Script.Setting
import QueueScript.Proofs.Script.Spacing
import QueueScript.Proofs.Script.WellFormed
import QueueScript.Proofs.Settings.File
import QueueScript.Proofs.Settings.Layers
import QueueScript.Proofs.Store.Contents
import QueueScript.Proofs.Store.Delivery
import QueueScript.Proofs.Store.Execute
import QueueScript.Proofs.Store.Identity
import QueueScript.Proofs.Store.Isolation
import QueueScript.Proofs.Store.Session
import QueueScript.Proofs.Text.Lines
import QueueScript.Runner
import QueueScript.Script.Scan
import QueueScript.Settings
