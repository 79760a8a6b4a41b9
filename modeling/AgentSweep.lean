import AgentSweep.Form.AgentForm
import AgentSweep.Form.JobForm
import AgentSweep.Form.ValueForm
import AgentSweep.Main
import AgentSweep.Proofs.Job.Trails
import AgentSweep.Proofs.Job.UnseenSlots
import AgentSweep.Proofs.Machine.Simulation
import AgentSweep.Proofs.Machine.StepBounds
import AgentSweep.Proofs.Machine.RandomNumbers
import AgentSweep.Proofs.World.Rounds
import AgentSweep.Proofs.Machine.Faults
import AgentSweep.Proofs.Job.Failures
import AgentSweep.Proofs.Job.Footprint
import AgentSweep.Proofs.Job.Numbering
import AgentSweep.Proofs.Machine.Lineage
import AgentSweep.Proofs.Job.Callers
import AgentSweep.Proofs.Job.Kinds
import AgentSweep.Proofs.Machine.LocalCode
import AgentSweep.Proofs.Job.VisitOrder
import AgentSweep.Proofs.Job.Log
import AgentSweep.Proofs.Json.Literals
import AgentSweep.Proofs.Json.Grammar
import AgentSweep.Proofs.Json.RoundTrip
import AgentSweep.Proofs.Json.Doubles
import AgentSweep.Proofs.Form.Shapes
import AgentSweep.Proofs.Form.Configurations
import AgentSweep.Proofs.Form.PartialConfigurations
import AgentSweep.Proofs.Form.Values
import AgentSweep.Proofs.Form.Numbers
import AgentSweep.Proofs.Json.Significands
import AgentSweep.Proofs.Json.Scaling
import AgentSweep.Proofs.Json.Rereading
import AgentSweep.Proofs.Decimal.Doubles
import AgentSweep.Proofs.Decimal.Intervals
import AgentSweep.Proofs.Decimal.ShortestDigits
import AgentSweep.Proofs.Decimal.Rounding
import AgentSweep.Proofs.Decimal.RelativeErrors
import AgentSweep.Proofs.Decimal.WholeNumbers
import AgentSweep.Proofs.World.Rolls
import AgentSweep.Proofs.CommandLine.Visits
import AgentSweep.Proofs.Machine.Addresses
import AgentSweep.Proofs.Job.Addresses
import AgentSweep.Proofs.Machine.ExplicitReturns
import AgentSweep.Proofs.Job.ExplicitReturns
import AgentSweep.Proofs.Job.Reports
import AgentSweep.Proofs.Job.ReportFailures
import AgentSweep.Proofs.Job.Repetitions
import AgentSweep.Proofs.World.Edits
import AgentSweep.Proofs.Job.StaleMembers
