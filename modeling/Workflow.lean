import Workflow.Main
import Workflow.Worker
import Workflow.Proofs.Engine.Arming
import Workflow.Proofs.Engine.Boundary
import Workflow.Proofs.Engine.Commute
import Workflow.Proofs.Engine.Declined
import Workflow.Proofs.Engine.Default
import Workflow.Proofs.Engine.Failure
import Workflow.Proofs.Engine.Finish
import Workflow.Proofs.Engine.ForkJoin
import Workflow.Proofs.Engine.Gated
import Workflow.Proofs.Engine.Log
import Workflow.Proofs.Engine.Rebuild
import Workflow.Proofs.Engine.Redirection
import Workflow.Proofs.Engine.Refusal
import Workflow.Proofs.Engine.Selection
import Workflow.Proofs.Engine.Sequential
import Workflow.Proofs.Engine.Termination
import Workflow.Proofs.Engine.Waiting
import Workflow.Proofs.Datum.Payload
import Workflow.Proofs.Document.Assembly
import Workflow.Proofs.Document.Codec
import Workflow.Proofs.Snapshot.Codec
import Workflow.Proofs.Snapshot.Restore
import Workflow.Proofs.Document.Compile
import Workflow.Proofs.Document.Routing
import Workflow.Proofs.Graph.Arena
import Workflow.Proofs.HandlerTable.Requests
