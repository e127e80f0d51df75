import NomosNode.Lib.Outcome
import NomosNode.Lib.IterOrder
import NomosNode.Lib.RunningMax
import NomosNode.Lib.Bytes
import NomosNode.Lib.Fresh
import NomosNode.Lib.Dft
import NomosNode.Lib.Slices
import NomosNode.Lib.StateTriple
import NomosNode.Lib.LinkedMap
import NomosNode.Lib.Mealy
import NomosNode.Cl.Merkle
import NomosNode.Cl.Balance
import NomosNode.Cl.PartialTx
import NomosNode.ProofStatements.Leadership
import NomosNode.Engine.Branches
import NomosNode.Engine.Cryptarchia
import NomosNode.Engine.Time
import NomosNode.Engine.WellFormed
import NomosNode.Engine.Reachable
import NomosNode.Engine.Ancestry
import NomosNode.Engine.ForkChoice
import NomosNode.Ledger.Config
import NomosNode.Ledger.NoteTree
import NomosNode.Ledger.LedgerState
import NomosNode.Ledger.Epochs
import NomosNode.Ledger.Ledger
import NomosNode.Ledger.Chains
import NomosNode.Core.Header
import NomosNode.Core.Block
import NomosNode.CryptarchiaConsensus.Service
import NomosNode.CryptarchiaConsensus.Blocks
import NomosNode.CryptarchiaConsensus.Recovery
import NomosNode.DaMessages.Packing
import NomosNode.Blend.Sphinx
import NomosNode.Blend.LayeredCipher
import NomosNode.Da.Kzgrs
import NomosNode.Da.Bls12381
import NomosNode.Da.Encoder
import NomosNode.Da.Verifier
import NomosNode.DaSampling.Backend
import NomosNode.DaDispersal.Backend
import NomosNode.Sdp.State
import NomosNode.Sdp.Ledger
import NomosNode.Sdp.Atomicity
import NomosNode.Sdp.Runs
import NomosNode.Mempool.MockPool
import NomosNode.TimeService.SystemTime
import NomosNode.DaIndexer.RangeQuery
import NomosNode.DaNetwork.Assignations
import NomosNode.DaNetwork.Replication
import NomosNode.DaNetwork.Balancer
import NomosNode.DaNetwork.DispersalExecutor
import NomosNode.DaNetwork.Sampling
import NomosNode.Da.Reconstruction
import NomosNode.Da.Fk20
import NomosNode.DaNetwork.Monitor
import NomosNode.Blend.Streams
import NomosNode.Blend.Service
import NomosNode.Lib.TimedCache
import NomosNode.BlendNetwork.Behaviour
import NomosNode.Lib.Fixed
import NomosNode.Blend.ConnMaintenance
import NomosNode.BlendNetwork.Handler
import NomosNode.BlendNetwork.Substream
import NomosNode.DaNetwork.FailureRates
import NomosNode.DaNetwork.ReplicationBehaviour
