import SimLn.Lib.Binary64
import SimLn.Lib.Bytes
import SimLn.Lib.Heap
import SimLn.Lib.Interleaving
import SimLn.Lib.Lists
import SimLn.Lib.Loop
import SimLn.Lib.Steps
import SimLn.Lib.Table
import SimLn.Types
import SimLn.Features
import SimLn.Channel
import SimLn.Channel.Sides
import SimLn.Channel.Balance
import SimLn.Graph
import SimLn.Channel.Operations
import SimLn.Gossip
import SimLn.Payment
import SimLn.Payment.Transition
import SimLn.Payment.Answers
import SimLn.Payment.Store
import SimLn.Payment.Funds
import SimLn.Payment.Control
import SimLn.Payment.FailureIndex
import SimLn.Payment.Fees
import SimLn.Payment.Admissible
import SimLn.Node
import SimLn.Network
import SimLn.Graph.Index
import SimLn.Node.Calls
import SimLn.Payment.Ownership
import SimLn.Payment.Holding
import SimLn.Payment.Interception
import SimLn.Payment.Resolutions
import SimLn.Payment.Requests
import SimLn.Payment.References
import SimLn.Payment.Ledger
import SimLn.Payment.Outcome
import SimLn.Payment.Progress
import SimLn.Payment.Safety
import SimLn.Payment.Earnings
import SimLn.LatencyInterceptor
import SimLn.Node.Tasks
import SimLn.Node.Custody
import SimLn.Node.Tracked
import SimLn.Node.Returns
import SimLn.Clock
import SimLn.Activity
import SimLn.Directory
import SimLn.Directory.Duplicates
import SimLn.Directory.Resolution
import SimLn.Directory.Simulated
import SimLn.Scheduler
import SimLn.Scheduler.Round
import SimLn.Scheduler.Trackers
import SimLn.Scheduler.Schedules
import SimLn.Scheduler.Defined
import SimLn.Scheduler.Refinement
import SimLn.Scheduler.Activities
import SimLn.Scheduler.Clocked
import SimLn.Scheduler.Skips
import SimLn.Scheduler.Drawn
import SimLn.Scheduler.Amounts
import SimLn.Results
import SimLn.Pipeline
import SimLn.Pipeline.Conservation
import SimLn.Pipeline.Records
import SimLn.Pipeline.Delivery
import SimLn.Pipeline.Shutdown
import SimLn.Pipeline.Batches
import SimLn.RandomActivity
import SimLn.RandomActivity.Order
import SimLn.RandomActivity.Capacity
import SimLn.RandomActivity.Exclusion
import SimLn.Pipeline.Producer
import SimLn.Pipeline.Run
import SimLn.RandomActivity.Determinism
import SimLn.Scheduler.Lateness
import SimLn.Scheduler.Lockstep
import SimLn.RandomActivity.Jitter
import SimLn.Simulated
import SimLn.Simulated.Network
import SimLn.Simulated.Calls
import SimLn.Simulated.Records
import SimLn.Simulated.Shutdown
import SimLn.Backends
