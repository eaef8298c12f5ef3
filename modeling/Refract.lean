import Refract.Consensus.SeparatedSources
import Refract.Consensus.Fingerprint
import Refract.Consensus.EngineRobustness
import Refract.Services.ReviewQueue
import Refract.Services.StakingSafety
import Refract.Claim.BreakerSafety
import Refract.Claim.SettlementGuards
import Refract.Claim.TriggerConfirmation
import Refract.Claim.FlapDamping
import Refract.Claim.ApplyProgress
import Refract.Claim.ReevaluationSoundness
import Refract.Oracle.PayloadBinding
import Refract.Oracle.ChainDiff
import Refract.Oracle.PublishOrder
import Refract.Oracle.PublishedFinal
import Refract.Oracle.FinalitySafety
import Refract.Oracle.CredentialSafety
import Refract.Oracle.ReplaySafety
import Refract.Oracle.FeedControl
import Refract.Oracle.QuorumSafety
import Refract.Oracle.PublisherMemory
import Refract.Oracle.EvidenceAccounting
import Refract.Oracle.SpoolDurability
import Refract.Oracle.IngestionSafety
import Refract.Oracle.PauseCoherence
import Refract.Oracle.WindowReplay
import Refract.Leader.LeaderSafety
import Refract.Events.PoolEventSafety
import Refract.Common.IdempotencySafety
import Refract.Stellar.RelayerSequence
import Refract.Stellar.IndexerCompleteness
import Refract.Tx.TxService
import Refract.Services.SlashableConditions
import Refract.Services.AccrualKeys
import Refract.Services.OperatorRegistry
import Refract.Oracle.Calendar
import Refract.Oracle.Retention
import Refract.Oracle.EvidenceStore
import Refract.Consensus.PurgePlans
import Refract.Claim.DisputeWindow
