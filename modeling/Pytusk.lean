import Pytusk.Certification
import Pytusk.Certification.AggregateFirst
import Pytusk.Certification.SignersBitmap
import Pytusk.Certification.Soundness
import Pytusk.Chain.BlobFields
import Pytusk.Chain.BlobMetadata
import Pytusk.Chain.Committee
import Pytusk.Chain.CommitteeReads
import Pytusk.Chain.Effects
import Pytusk.Chain.EventDecoding
import Pytusk.Chain.EventObjectId
import Pytusk.Chain.Events
import Pytusk.Chain.ShardAssignment
import Pytusk.Chain.Staking
import Pytusk.Chain.Transaction
import Pytusk.Client
import Pytusk.Commands.ReadBlobStatus
import Pytusk.CommitteeFanout
import Pytusk.CommitteeFanout.Choreography
import Pytusk.CommitteeFanout.Reluctant
import Pytusk.CommitteeFanout.Schedules
import Pytusk.Config.Invariant
import Pytusk.Config.Preservation
import Pytusk.Config.PytuskConfiguration
import Pytusk.Config.Runs
import Pytusk.Config.TuskConfig
import Pytusk.Encoding.EncodedLength
import Pytusk.Encoding.ObjectIds
import Pytusk.Encoding.Quilt
import Pytusk.Encoding.QuiltErrors
import Pytusk.Encoding.QuiltLayout
import Pytusk.Encoding.QuiltOrder
import Pytusk.Encoding.QuiltReader
import Pytusk.Encoding.QuiltRoundTrip
import Pytusk.Encoding.QuiltStages
import Pytusk.Encoding.QuiltTiling
import Pytusk.Encoding.Redstuff
import Pytusk.Encoding.Rotation
import Pytusk.Encoding.SymbolSize
import Pytusk.Lib.AtomicReplace
import Pytusk.Lib.Base64
import Pytusk.Lib.Binary64
import Pytusk.Lib.CoinFrame
import Pytusk.Lib.CoinLedger
import Pytusk.Lib.ColumnMajor
import Pytusk.Lib.Dict
import Pytusk.Lib.FirstWins
import Pytusk.Lib.GraphSearch
import Pytusk.Lib.Greedy
import Pytusk.Lib.LittleEndian
import Pytusk.Lib.Logged
import Pytusk.Lib.Lts
import Pytusk.Lib.Newest
import Pytusk.Lib.PosixPath
import Pytusk.Lib.PySeq
import Pytusk.Lib.PyStr
import Pytusk.Lib.Script
import Pytusk.Lib.Semaphores
import Pytusk.Lib.Slabs
import Pytusk.Lib.WaitQueue
import Pytusk.Lib.Wire
import Pytusk.NativeRead.Fetch
import Pytusk.NativeRead.FetchRuns
import Pytusk.NativeRead.Metadata
import Pytusk.NativeRead.Permits
import Pytusk.NativeRead.Reconstruct
import Pytusk.NativeRead.Recovery
import Pytusk.NativeRead.ShardRouting
import Pytusk.NativeRead.Tolerance
import Pytusk.NativeUpload.Certify
import Pytusk.NativeUpload.Confirm
import Pytusk.NativeUpload.ConfirmTolerance
import Pytusk.NativeUpload.Fanout
import Pytusk.NativeUpload.FanoutAccounting
import Pytusk.NativeUpload.NodeUpload
import Pytusk.NativeUpload.Throttle
import Pytusk.NativeUpload.Untimed
import Pytusk.Ops.BlobCompose
import Pytusk.Ops.BlobExecute
import Pytusk.Ops.BlobMetadata
import Pytusk.Ops.BlobMetadataStore
import Pytusk.Ops.BlobObjects
import Pytusk.Ops.BlobStatus
import Pytusk.Ops.BlobStatusAccounting
import Pytusk.Ops.BlobStatusDissent
import Pytusk.Ops.BlobStatusOrder
import Pytusk.Ops.BlobStatusSession
import Pytusk.Ops.ExactCoin
import Pytusk.Ops.Executing
import Pytusk.Ops.QuorumArithmetic
import Pytusk.Ops.SharedBlob
import Pytusk.Ops.SharedBlobBooks
import Pytusk.Ops.SharedBlobChain
import Pytusk.Ops.StorageChain
import Pytusk.Ops.StorageCompose
import Pytusk.Ops.StorageExecute
import Pytusk.Ops.StorageLedger
import Pytusk.Ops.StorageReads
import Pytusk.Pipelines.CertificateSoundness
import Pytusk.Pipelines.Delivery
import Pytusk.Pipelines.Durability
import Pytusk.Pipelines.EpochSafety
import Pytusk.Pipelines.NamesBlob
import Pytusk.Pipelines.Origins
import Pytusk.Pipelines.OwnerSigns
import Pytusk.Pipelines.PostSpend
import Pytusk.Pipelines.Read
import Pytusk.Pipelines.ReceiptCoherence
import Pytusk.Pipelines.ReceiptStages
import Pytusk.Pipelines.Registration
import Pytusk.Pipelines.TipSafety
import Pytusk.Pipelines.Traces
import Pytusk.Pipelines.Write
import Pytusk.RelayUpload.RelayCertify
import Pytusk.RelayUpload.Tip
import Pytusk.RelayUpload.TipGrammar
import Pytusk.RelayUpload.Upload
import Pytusk.RelayUpload.UploadRuns
import Pytusk.Tusky.Batches
import Pytusk.Tusky.BlobMetadata
import Pytusk.Tusky.DeleteBlob
import Pytusk.Tusky.ExchangeForSui
import Pytusk.Tusky.ExtendBlob
import Pytusk.Tusky.ExtendExpiration
import Pytusk.Tusky.Files
import Pytusk.Tusky.FuseClusters
import Pytusk.Tusky.FusePeriods
import Pytusk.Tusky.FuseStorage
import Pytusk.Tusky.ListStorage
import Pytusk.Tusky.QuiltSelection
import Pytusk.Tusky.ReadQuilt
import Pytusk.Tusky.ReclaimBurn
import Pytusk.Tusky.RelaySimulate
import Pytusk.Tusky.Sending
import Pytusk.Tusky.SharedBlobs
import Pytusk.Tusky.SimulateParity
import Pytusk.Tusky.SplitStorage
import Pytusk.Tusky.StorageCommands
import Pytusk.Types.Errors
import Pytusk.Types.Json
import Pytusk.Types.Quilts
import Pytusk.Types.Receipts
import Pytusk.Types.Tips
