import Bombay.Machine.Run
import Bombay.Entity.Lifecycle
import Bombay.Entity.Decides
import Bombay.Entity.Fence
import Bombay.Engine.Driver
import Bombay.Entity.Custody
import Bombay.Entity.Erasure
import Bombay.Engine.Moves
import Bombay.Engine.Shape
import Bombay.Engine.Retirement
import Bombay.Engine.Disposition
import Bombay.Engine.Protocol
import Bombay.Engine.Source
import Bombay.Engine.Settlement
import Bombay.Entity.Directory
import Bombay.Entity.TaskGroup
import Bombay.Machine.Pool
import Bombay.Machine.Performance
import Bombay.Entity.Runtime
import Bombay.Entity.Acts
import Bombay.Entity.Admission
import Bombay.Entity.Names
import Bombay.Entity.Ledger
import Bombay.Entity.Incarnation
import Bombay.Entity.Dispatch
import Bombay.Entity.Guards
import Bombay.Entity.Claimant
import Bombay.Entity.Records
import Bombay.Entity.Shutdown
import Bombay.Entity.Commands
import Bombay.Entity.Tickets
import Bombay.Entity.Answers
import Bombay.Entity.Quiescence
import Bombay.Entity.Outcome
import Bombay.Observe.Completion
import Bombay.Observe.Isolation
import Bombay.Observe.KeyTable
import Bombay.Observe.WaiterStore
import Bombay.Observe.Ownership
import Bombay.Export.Declaration
import Bombay.Export.Serving
import Bombay.Export.Acts
import Bombay.Export.Keys
import Bombay.Export.Replay
import Bombay.Local.ExactObservation
import Bombay.Local.Relationship
import Bombay.Local.ObservationProtocol
import Bombay.Local.Ingress
import Bombay.Local.Processing
import Bombay.Local.ProcessingFence
import Bombay.Engine.Causal
import Bombay.Engine.DepthFirst
import Bombay.Local.Outcome
import Bombay.Local.Children
import Bombay.Local.ChildRegistry
import Bombay.Local.ChildRows
import Bombay.Local.ChildOrder
import Bombay.Local.ChildSound
import Bombay.Local.ChildRetirement
import Bombay.Local.Termination
import Bombay.Local.Environment
import Bombay.Local.Execution
import Bombay.Local.EnvironmentRetirement
import Bombay.Local.Orderly
import Bombay.Local.ReportTree
import Bombay.Machine.Fairness
import Bombay.Local.Acquisition
import Bombay.Local.ShutdownRequests
import Bombay.Local.TerminalReports
import Bombay.Local.Turns
import Bombay.Local.TerminalOutcome
import Bombay.Machine.Linear
import Bombay.Machine.Log
import Bombay.Observe.Cell
import Bombay.Observe.Linearity
import Bombay.Entity.Capacity
import Bombay.Machine.Loop
import Bombay.Gate.Verdict
import Bombay.Gate.Seed
import Bombay.Application.Staging
import Bombay.Remote.Json
