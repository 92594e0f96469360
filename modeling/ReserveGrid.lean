import ReserveGrid.ApiGateway.Auth
import ReserveGrid.Auth.Accounts
import ReserveGrid.Auth.EndpointLimits
import ReserveGrid.Common.PerIp
import ReserveGrid.Common.RateLimiter
import ReserveGrid.Consensus.AssembledBlock
import ReserveGrid.Consensus.RawFacade
import ReserveGrid.Dashboard.ClientAddr
import ReserveGrid.Gateway.AccountingDrain
import ReserveGrid.Gateway.ChannelLimit
import ReserveGrid.Gateway.ChannelRegistry
import ReserveGrid.Gateway.ExtranonceSpace
import ReserveGrid.Gateway.FrameDelivery
import ReserveGrid.Gateway.JobOrder
import ReserveGrid.Gateway.JobsOnChannel
import ReserveGrid.Gateway.LineReader
import ReserveGrid.Gateway.MinerPrevhash
import ReserveGrid.Gateway.NtimeBounds
import ReserveGrid.Gateway.PendingStore
import ReserveGrid.Gateway.ReplaySet
import ReserveGrid.Gateway.ShareAnswers
import ReserveGrid.Gateway.ShareCoinbase
import ReserveGrid.Gateway.ShareDifficulty
import ReserveGrid.Gateway.ShareSignature
import ReserveGrid.Gateway.StaleHold
import ReserveGrid.Gateway.Staleness
import ReserveGrid.Gateway.Starvation
import ReserveGrid.Gateway.SubmitPipelines
import ReserveGrid.Gateway.Sv2RoundTrip
import ReserveGrid.Gateway.UnenforcedJobs
import ReserveGrid.Gateway.Verdicts
import ReserveGrid.Gateway.WalRetry
import ReserveGrid.Gateway.WalTail
import ReserveGrid.HonestProducer
import ReserveGrid.License.Verifiers
import ReserveGrid.MerklePath
import ReserveGrid.TemplateManager.CoinbaseValidity
import ReserveGrid.TemplateManager.Polls
import ReserveGrid.TemplateManager.Settings
import ReserveGrid.Verifier.BatchAnswers
import ReserveGrid.Verifier.BlockWalk
import ReserveGrid.Verifier.Cadence
import ReserveGrid.Verifier.FeePolicy
import ReserveGrid.Verifier.IdleStream
import ReserveGrid.Verifier.LogIds
import ReserveGrid.Verifier.LogRotation
import ReserveGrid.Verifier.LookupRace
import ReserveGrid.Verifier.PolicyUpdates
import ReserveGrid.Verifier.PolicyUpload
import ReserveGrid.Gateway.EventIds
import ReserveGrid.LogText
import ReserveGrid.Gateway.JobWindow
import ReserveGrid.Common.Admission
import ReserveGrid.Gateway.ShareRelay
import ReserveGrid.Verifier.AcceptLoop
import ReserveGrid.Gateway.AcceptLoop
import ReserveGrid.Support.CompactJson
import ReserveGrid.Verifier.Connection
import ReserveGrid.Gateway.VerifierIo
import ReserveGrid.Gateway.VerifierSilence
import ReserveGrid.Support.Pipe
import ReserveGrid.VerifierLink
