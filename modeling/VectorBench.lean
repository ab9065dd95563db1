import VectorBench.Main
import VectorBench.Proofs.Record.Language
import VectorBench.Proofs.Record.Violations
import VectorBench.Proofs.Registry.History
import VectorBench.Proofs.VectorSet.Reached
import VectorBench.Proofs.VectorSet.Requests
import VectorBench.Proofs.Store.Atomic
import VectorBench.Proofs.Dataset.Blocks
import VectorBench.Proofs.Engine.GraphSearch
import VectorBench.Proofs.Engine.Sessions
import VectorBench.Proofs.CommandLine.Gate
import VectorBench.Proofs.CommandLine.Outputs
import VectorBench.Proofs.CommandLine.Workflow
import VectorBench.Proofs.Binary.Value
import VectorBench.Proofs.Verdict.Boundary
import VectorBench.Proofs.Record.Format
import VectorBench.Proofs.Json.WellFormed
import VectorBench.Proofs.Record.Accepted
import VectorBench.Proofs.Record.Cut
import VectorBench.Proofs.Record.Documented
import VectorBench.Proofs.Verdict.Easing
import VectorBench.Proofs.Report.Cut
import VectorBench.Proofs.Report.Numbers
import VectorBench.Proofs.Engine.Budget
import VectorBench.Proofs.Dataset.UnitNorm
import VectorBench.Proofs.Chart.Scale
import VectorBench.Proofs.Engine.Distance
import VectorBench.Proofs.Engine.TotalOrder
import VectorBench.Proofs.CommandLine.Acceptance
