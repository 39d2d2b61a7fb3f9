import Semp.TransparencyLog
import Semp.Envelope
import Semp.ServerIdentity
import Semp.ServerDriver
import Semp.FederationInitiator
import Semp.FederationResponder
import Semp.SchedulerDeadline
import Semp.StagedRunnerRelease
import Semp.PipelineSafety
import Semp.RekeyAgreement
import Semp.RekeyChain
import Semp.KeyStore
import Semp.DirectoryRun
import Semp.Shamir
import Semp.SigningKinds
import Semp.ResponderRun
import Semp.MigrationAccept
import Semp.ClosureTerms
import Semp.ForwarderExchange
import Semp.Sse
import Semp.PolicyEntries
import Semp.RotationCompletion
import Semp.RotationMix
import Semp.Forwarding
import Semp.LargeAttachment
import Semp.PaddingFrame
import Semp.BlocklistMatch
import Semp.OpenVerified
import Semp.Dispatcher
import Semp.StagePartition
import Semp.PipelineReport
import Semp.StagedRunnerVotes
import Semp.MerkleNumbers
import Semp.SchedulerCancel
import Semp.SchedulerPace
import Semp.FederationRefusal
import Semp.SessionSecret
import Semp.ChallengeLedger
import Semp.CertificateStore
import Semp.BundleStore
import Semp.AttachmentBinding
import Semp.GossipHash
import Semp.GossipFetch
import Semp.ObservationStore
import Semp.FieldBinding
import Semp.ChallengeResponse
import Semp.ResumeAgreement
import Semp.LeadingZeros
import Semp.Ulid
import Semp.CiphertextHash
import Semp.Partition
import Semp.Extensions
import Semp.PublicationStore
import Semp.KeyArrays
import Semp.ForwarderShutdown
import Semp.FederationAgreement
import Semp.WsTransport
import Semp.EventStream
import Semp.InboxRun
import Semp.TransparencyAudit
import Semp.PartitionRouting
import Semp.PersistentSilent
import Semp.ReceiptStore
import Semp.DiscoveryCache
import Semp.AttachmentDelivery
import Semp.BriefAddress
import Semp.DiscoveryResolver
import Semp.AccountRecovery
