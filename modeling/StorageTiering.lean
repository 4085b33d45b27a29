import StorageTiering.Cluster.Listing
import StorageTiering.CommandLine.Outcome
import StorageTiering.Dispatch.Timeline
import StorageTiering.Document.Json
import StorageTiering.Document.Toml
import StorageTiering.Federation
import StorageTiering.Main
import StorageTiering.Pass
import StorageTiering.Proofs.Cluster.Directories
import StorageTiering.Proofs.Cluster.Pieces
import StorageTiering.Proofs.Cluster.Space
import StorageTiering.Proofs.Cluster.Spread
import StorageTiering.Proofs.Cluster.Tenure
import StorageTiering.Proofs.Cluster.Validity
import StorageTiering.Proofs.Difference.Remainder
import StorageTiering.Proofs.Dispatch.InTime
import StorageTiering.Proofs.Dispatch.Permits
import StorageTiering.Proofs.Dispatch.Retries
import StorageTiering.Proofs.Federation.Turns
import StorageTiering.Proofs.Ledger.Clients
import StorageTiering.Proofs.Ledger.Roster
import StorageTiering.Proofs.NamespacePaths.Gathered
import StorageTiering.Proofs.NamespacePaths.Qualified
import StorageTiering.Proofs.Pass.Again
import StorageTiering.Proofs.Pass.Limit
import StorageTiering.Proofs.Pass.Once
import StorageTiering.Proofs.Pass.Preference
import StorageTiering.Proofs.Pass.Progress
import StorageTiering.Proofs.Pass.Rearranged
import StorageTiering.Proofs.Pass.Room
import StorageTiering.Proofs.Pass.Verdict
import StorageTiering.Proofs.Policy
import StorageTiering.Proofs.Run.Bookkeeping
import StorageTiering.Proofs.Run.Conservation
import StorageTiering.Proofs.Run.Convergence
import StorageTiering.Proofs.Run.Delivery
import StorageTiering.Proofs.Run.Lease
import StorageTiering.Proofs.Run.NoMoveBlock
import StorageTiering.Proofs.Run.Stranded
import StorageTiering.Proofs.Run.Success
import StorageTiering.Run.Iterate
