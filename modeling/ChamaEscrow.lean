import ChamaEscrow.Bond.CommitmentStore
import ChamaEscrow.Bond.FaultPairs
import ChamaEscrow.Bond.Lineage
import ChamaEscrow.Client.AutoSteps
import ChamaEscrow.Client.DurableClaims
import ChamaEscrow.Client.EventCache
import ChamaEscrow.Client.ExportRaces
import ChamaEscrow.Client.GuidedMatch
import ChamaEscrow.Client.Lnurl
import ChamaEscrow.Client.LockedNotes
import ChamaEscrow.Client.MintMutex
import ChamaEscrow.Client.NoteLedger
import ChamaEscrow.Client.PayReconcile
import ChamaEscrow.Client.PayoutGate
import ChamaEscrow.Client.PayoutSats
import ChamaEscrow.Client.PegOut
import ChamaEscrow.Client.PreparedBudget
import ChamaEscrow.Client.ReabsorbNotes
import ChamaEscrow.Client.RedemptionClasses
import ChamaEscrow.Client.RelayFetch
import ChamaEscrow.Client.Reload
import ChamaEscrow.Client.SavedKey
import ChamaEscrow.Client.SeedBackup
import ChamaEscrow.Client.SeedCreation
import ChamaEscrow.Client.SeedRestore
import ChamaEscrow.Client.SharedGuard
import ChamaEscrow.Client.SliceFunding
import ChamaEscrow.Client.StashedNotes
import ChamaEscrow.Client.TakeBack
import ChamaEscrow.Client.TradeIndex
import ChamaEscrow.Client.VoteGate
import ChamaEscrow.Client.WalletFile
import ChamaEscrow.Replay.ChainOrder
import ChamaEscrow.Trade.Baskets
import ChamaEscrow.Trade.ChildOrders
import ChamaEscrow.Trade.Conduct
import ChamaEscrow.Trade.DisputeClock
import ChamaEscrow.Trade.PayoutChoice
import ChamaEscrow.Trade.Periods
import ChamaEscrow.Trade.Recipients
import ChamaEscrow.Trade.SlicePlan
import ChamaEscrow.Trade.TrancheGate
import ChamaEscrow.Trade.Turns
