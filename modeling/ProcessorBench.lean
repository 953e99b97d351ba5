import ProcessorBench.Text
import ProcessorBench.Table
import ProcessorBench.Lifecycle.Phase
import ProcessorBench.Property.Verdict
import ProcessorBench.Error.Kind
import ProcessorBench.Error.Fault
import ProcessorBench.Error.Basic
import ProcessorBench.Log
import ProcessorBench.World
import ProcessorBench.FlowFile.Basic
import ProcessorBench.FlowFile.Check
import ProcessorBench.FlowFile.Queue
import ProcessorBench.FlowFile.Provenance
import ProcessorBench.FlowFile.Supply
import ProcessorBench.Session.Pool
import ProcessorBench.Session.Basic
import ProcessorBench.Session.Edit
import ProcessorBench.Session.Settle
import ProcessorBench.Session.Operation
import ProcessorBench.Session.Workspace
import ProcessorBench.Property.Validator
import ProcessorBench.Property.Descriptor
import ProcessorBench.Property.Settings
import ProcessorBench.Property.Configurable
import ProcessorBench.Lifecycle.Arguments
import ProcessorBench.Lifecycle.Hook
import ProcessorBench.Lifecycle.Target
import ProcessorBench.Service.Basic
import ProcessorBench.Service.Registry
import ProcessorBench.Processor.Context
import ProcessorBench.Processor.Program
import ProcessorBench.Processor.Script
import ProcessorBench.Engine.Procedure
import ProcessorBench.Processor.Stage
import ProcessorBench.Processor.Basic
import ProcessorBench.Engine.Crew
import ProcessorBench.Engine
import ProcessorBench.Bench.Basic
import ProcessorBench.Bench.Input
import ProcessorBench.Bench.Result
import ProcessorBench.Bench.Check
import ProcessorBench.Proofs.Table
import ProcessorBench.Proofs.FlowFile.Supply
import ProcessorBench.Proofs.Session.Effect
import ProcessorBench.Proofs.Session.Holdings
import ProcessorBench.Proofs.Session.Settle
import ProcessorBench.Proofs.Bench.Input
import ProcessorBench.Proofs.Session.Workspace
import ProcessorBench.Proofs.Session.Place
import ProcessorBench.Proofs.Session.Custody
import ProcessorBench.Proofs.Lifecycle.Target
import ProcessorBench.Proofs.Engine.Simulation
import ProcessorBench.Proofs.Engine.Run
import ProcessorBench.Proofs.Engine.Crew
import ProcessorBench.Proofs.Property.Integer
import ProcessorBench.Proofs.Engine.Notes
import ProcessorBench.Proofs.Session.Pending
import ProcessorBench.Proofs.Session.Register
import ProcessorBench.Proofs.Session.Commit
import ProcessorBench.Proofs.Processor.Managed
import ProcessorBench.Proofs.Session.InHand
import ProcessorBench.Proofs.Service.Request
import ProcessorBench.Proofs.Service.Dependence
import ProcessorBench.Proofs.Service.Lifecycle
import ProcessorBench.Proofs.Service.Locality
import ProcessorBench.Proofs.Service.Frozen
import ProcessorBench.Proofs.Engine.Deeds
import ProcessorBench.Proofs.Session.Calls
import ProcessorBench.Proofs.Session.Unit
import ProcessorBench.Proofs.Session.Counters
import ProcessorBench.Proofs.Session.Distinct
import ProcessorBench.Proofs.Session.Provenance
import ProcessorBench.Proofs.Session.Handle
import ProcessorBench.Proofs.Session.Develop
import ProcessorBench.Proofs.Session.Release
import ProcessorBench.Proofs.Session.Version
import ProcessorBench.Proofs.Session.Outcome
import ProcessorBench.Proofs.Session.Committed
import ProcessorBench.Proofs.Session.Identifier
import ProcessorBench.Proofs.Session.History
import ProcessorBench.Proofs.Bench.Run
import ProcessorBench.Proofs.Session.Balance
import ProcessorBench.Proofs.Bench.Crew
import ProcessorBench.Proofs.Bench.Reconcile
import ProcessorBench.Proofs.Session.Commute
import ProcessorBench.Proofs.Session.Account
import ProcessorBench.Proofs.Lifecycle.Dispatch
import ProcessorBench.Proofs.Service.Setup
import ProcessorBench.Proofs.Property.Judgement
import ProcessorBench.Proofs.Property.Effective
import ProcessorBench.Proofs.Service.Addition
import ProcessorBench.Proofs.Session.Refusal
import ProcessorBench.Proofs.Session.Amend
import ProcessorBench.Proofs.Session.Fresh
import ProcessorBench.Proofs.Session.Undo
import ProcessorBench.Proofs.Lifecycle.Frame
import ProcessorBench.Proofs.Session.Transfer
import ProcessorBench.Proofs.Session.Released
import ProcessorBench.Proofs.Bench.Use
import ProcessorBench.Proofs.Bench.Transfer
import ProcessorBench.Proofs.Bench.Enqueue
import ProcessorBench.Proofs.FlowFile.Check
import ProcessorBench.Proofs.Property.Change
import ProcessorBench.Proofs.Session.Polling
import ProcessorBench.Proofs.Bench.Outcome
import ProcessorBench.Proofs.Bench.Log
