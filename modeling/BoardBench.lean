import BoardBench.Console.Line
import BoardBench.Console.Window
import BoardBench.Results.Report
import BoardBench.Config.Reading
import BoardBench.CommandLine.Program
import BoardBench.CommandLine.Survey
import BoardBench.Main
import BoardBench.Proofs.Text.Blank
import BoardBench.Proofs.Text.Search
import BoardBench.Proofs.Text.Sorted
import BoardBench.Proofs.Console.Line
import BoardBench.Proofs.Console.Window
import BoardBench.Proofs.Console.Scanning
import BoardBench.Proofs.Telemetry.Table
import BoardBench.Proofs.Telemetry.Row
import BoardBench.Proofs.Telemetry.Tabulation
import BoardBench.Proofs.Text.Lossy
import BoardBench.Proofs.Console.Dressing
import BoardBench.Proofs.Console.Decoding
import BoardBench.Proofs.Supervision.Classification
import BoardBench.Proofs.Supervision.Delivery
import BoardBench.Proofs.Results.CsvReading
import BoardBench.Proofs.Results.Grouping
import BoardBench.Proofs.Files.Joining
import BoardBench.Proofs.Console.Normal
import BoardBench.Proofs.Console.Extraction
import BoardBench.Proofs.Supervision.Reading
import BoardBench.Proofs.Supervision.Telemetry
import BoardBench.Proofs.Supervision.Replay
import BoardBench.Proofs.Retry.Loop
import BoardBench.Proofs.Retry.Course
import BoardBench.Proofs.Retry.Dialogue
import BoardBench.Proofs.Retry.Shutdown
import BoardBench.Proofs.Sweep.Simulation
import BoardBench.Proofs.Sweep.Accounting
import BoardBench.Proofs.Sweep.Walk
import BoardBench.Proofs.Sweep.Events
import BoardBench.Proofs.Sweep.Invariant
import BoardBench.Proofs.Sweep.Confinement
import BoardBench.Proofs.Sweep.Isolation
import BoardBench.Proofs.Sweep.Phases
import BoardBench.Proofs.Sweep.Conduct
import BoardBench.Proofs.Sweep.Lockstep
import BoardBench.Proofs.Sweep.Truncation
import BoardBench.Proofs.Retry.Prompt
import BoardBench.Proofs.Sweep.Interrupt
import BoardBench.Proofs.Preflight.Listing
import BoardBench.Proofs.Preflight.Tools
import BoardBench.Proofs.Supervision.Teardown
import BoardBench.Proofs.Config.Expansion
import BoardBench.Proofs.Config.Pruning
import BoardBench.Proofs.Config.WellFormed
import BoardBench.Proofs.Config.Writing
import BoardBench.Proofs.Sweep.Commands
import BoardBench.Proofs.Sweep.Enrichment
import BoardBench.Proofs.Host.Bindings
import BoardBench.Proofs.Sweep.Variables
import BoardBench.Proofs.Config.Validation
import BoardBench.Proofs.Config.Evaluation
import BoardBench.Proofs.Config.Shorthands
import BoardBench.Proofs.Config.Rewriting
import BoardBench.Proofs.Config.Loading
import BoardBench.Proofs.Yaml.Flow
import BoardBench.Proofs.Yaml.Lexing
import BoardBench.Proofs.Telemetry.Insertion
import BoardBench.Proofs.Text.Digit
import BoardBench.Proofs.Telemetry.Iteration
import BoardBench.Proofs.Retry.Counter
