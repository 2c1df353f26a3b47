import AiQuant.CopyTrading.ClosedVolume
import AiQuant.CopyTrading.TrackerParity
import AiQuant.CopyTrading.CatchUp
import AiQuant.CopyTrading.PollSplit
import AiQuant.CopyTrading.BaselineRun
import AiQuant.CopyTrading.HistoryRun
import AiQuant.CopyTrading.ClaimRoundTrip
import AiQuant.CopyTrading.LedgerRun
import AiQuant.CopyTrading.BlockedEntries
import AiQuant.CopyTrading.DroppedExits
import AiQuant.CopyTrading.AutoResume
import AiQuant.CopyTrading.EntryRun
import AiQuant.CopyTrading.Reconciliation
import AiQuant.CopyTrading.SafetyControls
import AiQuant.CopyTrading.StopCooldown
import AiQuant.RateControl.Lease
import AiQuant.RateControl.PermitModel
import AiQuant.RateControl.AuthorityBlocks
import AiQuant.RateControl.GatewayJournal
import AiQuant.OrderBook.Replay
import AiQuant.Execution.AlgoLifecycle
import AiQuant.Execution.OrderStreams
import AiQuant.Gateway.Outcomes
import AiQuant.Gateway.WireBytes
import AiQuant.Archive.RetentionPlan
import AiQuant.CopyTrading.ChallengeRun
import AiQuant.CopyTrading.ExitDenominator
import AiQuant.CopyTrading.SlotCoherence
import AiQuant.CopyTrading.NotificationOutbox
import AiQuant.RateControl.AdmissionLayers
import AiQuant.UserStream.EvidenceChain
import AiQuant.UserStream.FrameSync
import AiQuant.Telegram.UpdateLoop
import AiQuant.Telegram.ButtonRoundTrip
import AiQuant.CopyTrading.DirectorySearch
import AiQuant.CopyTrading.ProfileStorage
import AiQuant.Orchestration.Authority
import AiQuant.OrderBook.SequenceIds
import AiQuant.Risk.Sizing
import AiQuant.Universe.Confirmations
import AiQuant.Execution.Simulator
import AiQuant.Features.SwingStability
import AiQuant.Iteration.QueueRun
import AiQuant.Automation.EngineRun
import AiQuant.OrderBook.Warmup
import AiQuant.Control.Api
import AiQuant.Services.Uds
import AiQuant.CopyTrading.StableSlots
import AiQuant.CopyTrading.ProtectedPrice
import AiQuant.Notifications.Outbound
