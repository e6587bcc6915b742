import LockDiscipline.Config.Draft
import LockDiscipline.Config.Environment
import LockDiscipline.Config.Export
import LockDiscipline.Config.Fault
import LockDiscipline.Config.Preset
import LockDiscipline.Config.Settings
import LockDiscipline.Config.Steps
import LockDiscipline.Decimal.Binary64
import LockDiscipline.Decimal.Shortest
import LockDiscipline.Document.Datum
import LockDiscipline.Document.Mismatch
import LockDiscipline.Document.Reader
import LockDiscipline.Document.Shape
import LockDiscipline.Exclusion.Fault
import LockDiscipline.Exclusion.Guard
import LockDiscipline.Exclusion.Overlap
import LockDiscipline.Fault
import LockDiscipline.Json.Scalar
import LockDiscipline.Json.Text
import LockDiscipline.Json.Value
import LockDiscipline.Log
import LockDiscipline.Monitor.Monitors
import LockDiscipline.Monitor.Runtime
import LockDiscipline.Order.Classifier
import LockDiscipline.Order.Closure
import LockDiscipline.Order.Cycles
import LockDiscipline.Order.Detector
import LockDiscipline.Order.Evidence
import LockDiscipline.Order.Export
import LockDiscipline.Order.Graph
import LockDiscipline.Order.Probe
import LockDiscipline.Order.Sink
import LockDiscipline.Order.Stack
import LockDiscipline.Proofs.Order.Distinct
import LockDiscipline.Sampling.Export
import LockDiscipline.Sampling.Fault
import LockDiscipline.Sampling.Report
import LockDiscipline.Sampling.SampleSet
import LockDiscipline.Sampling.Session
import LockDiscipline.Scenario.Classifiers
import LockDiscipline.Scenario.Graphs
import LockDiscipline.Scenario.Guards
import LockDiscipline.Scenario.State
import LockDiscipline.Scenario.ValueType
import LockDiscipline.Scenario.Watches
import LockDiscipline.Table
import LockDiscipline.Text.Blank
import LockDiscipline.Text.Digit
import LockDiscipline.Text.Duration
import LockDiscipline.Text.Printable
import LockDiscipline.Text.Quoted
import LockDiscipline.Yaml.Block
import LockDiscipline.Yaml.Character
import LockDiscipline.Yaml.Node
import LockDiscipline.Yaml.Plain
import LockDiscipline.Yaml.Property
import LockDiscipline.Yaml.Quoted
import LockDiscipline.Yaml.Scalar
import LockDiscipline.Yaml.Text
import LockDiscipline.Yaml.Token
import LockDiscipline.Yaml.Tokens
import LockDiscipline.Yaml.Written
import LockDiscipline.Proofs.Order.Recording
import LockDiscipline.Proofs.Order.Intact
import LockDiscipline.Proofs.Order.World
import LockDiscipline.Proofs.Order.Exactness
import LockDiscipline.Proofs.Order.Transparency
import LockDiscipline.Proofs.Order.Acts
import LockDiscipline.Proofs.Order.Consistency
import LockDiscipline.Proofs.Monitor.Balance
import LockDiscipline.Proofs.Watch.Mirror
import LockDiscipline.Proofs.Watch.Watched
import LockDiscipline.Proofs.Watch.Entering
import LockDiscipline.Proofs.Watch.Scenes
import LockDiscipline.Proofs.Order.Learning
import LockDiscipline.Proofs.Order.Realm
import LockDiscipline.Proofs.Order.Histories
import LockDiscipline.Proofs.Order.Reports
import LockDiscipline.Proofs.Order.Custody
import LockDiscipline.Proofs.Order.Pruning
import LockDiscipline.Proofs.Watch.Paired
import LockDiscipline.Proofs.Order.Representation
import LockDiscipline.Proofs.Order.FirstEvidence
import LockDiscipline.Proofs.Order.Sections
import LockDiscipline.Proofs.Monitor.Snapshots
import LockDiscipline.Proofs.Sampling.Nesting
import LockDiscipline.Proofs.Watch.Lined
import LockDiscipline.Proofs.Order.Lone
import LockDiscipline.Proofs.Watch.Sampled
import LockDiscipline.Proofs.Watch.Agreement
import LockDiscipline.Proofs.Exclusion.Memory
import LockDiscipline.Proofs.Exclusion.Crowd
import LockDiscipline.Proofs.Exclusion.Windows
import LockDiscipline.Proofs.Exclusion.Isolation
import LockDiscipline.Proofs.Exclusion.Verdicts
import LockDiscipline.Proofs.Exclusion.OptIn
import LockDiscipline.Proofs.Monitor.Solo
import LockDiscipline.Proofs.Monitor.Registry
import LockDiscipline.Proofs.Monitor.Tenure
import LockDiscipline.Proofs.Sampling.Samples
import LockDiscipline.Proofs.Sampling.Worker
import LockDiscipline.Proofs.Yaml.Characters
import LockDiscipline.Proofs.Yaml.PlainText
import LockDiscipline.Proofs.Text.Numerals
import LockDiscipline.Proofs.Yaml.QuotedText
import LockDiscipline.Proofs.Yaml.LiteralText
import LockDiscipline.Proofs.Yaml.Fetching
import LockDiscipline.Proofs.Yaml.Lines
import LockDiscipline.Proofs.Yaml.Shown
import LockDiscipline.Proofs.Document.Entries
import LockDiscipline.Proofs.Yaml.Gathering
import LockDiscipline.Proofs.Yaml.Words
import LockDiscipline.Proofs.Config.Components
import LockDiscipline.Proofs.Config.Outlines
import LockDiscipline.Proofs.Config.Reload
import LockDiscipline.Proofs.Config.Layering
import LockDiscipline.Proofs.Config.Approval
import LockDiscipline.Proofs.Order.Groups
import LockDiscipline.Proofs.Order.Cycles
import LockDiscipline.Proofs.Json.Scalars
import LockDiscipline.Proofs.Json.Holding
import LockDiscipline.Proofs.Json.Documents
import LockDiscipline.Proofs.Exclusion.Counting
import LockDiscipline.Proofs.Exclusion.Skipping
import LockDiscipline.Proofs.Order.Sweeping
import LockDiscipline.Proofs.Sampling.Conflicts
import LockDiscipline.Proofs.Order.Stacks
import LockDiscipline.Proofs.Order.Beginning
import LockDiscipline.Proofs.Order.Growth
import LockDiscipline.Proofs.Text.Lowering
import LockDiscipline.Proofs.Config.Values
import LockDiscipline.Proofs.Config.Variables
