import AdvanceTrading.RiskEngine.Hierarchy
import AdvanceTrading.Execution.OrderSweeper
import AdvanceTrading.Execution.Core.IntentLifecycle
import AdvanceTrading.Execution.Core.SingleEffect
import AdvanceTrading.Execution.RestingEntry
import AdvanceTrading.Screener.Ranking
import AdvanceTrading.MarketLake.CandleBuilder
import AdvanceTrading.MarketData.FeedVolumes
import AdvanceTrading.StrategyEngine.HigherTimeframe
import AdvanceTrading.StrategyEngine.LiveSeries
import AdvanceTrading.Screener.LateBars
import AdvanceTrading.Trading.CloseGroup
import AdvanceTrading.PriceAction.WeakFloor
import AdvanceTrading.PriceAction.StructureSymmetry
import AdvanceTrading.Trading.StopStanding
import AdvanceTrading.Execution.EntryApproval
import AdvanceTrading.PriceAction.BreakTruncation
import AdvanceTrading.PriceAction.ZoneCoherence
import AdvanceTrading.PriceAction.CountMirror
import AdvanceTrading.RiskEngine.OwnLimitsKept
import AdvanceTrading.RiskEngine.EntrySlots
import AdvanceTrading.MarketData.ApiBudget
import AdvanceTrading.Alerts.OutboxSafety
import AdvanceTrading.MarketLake.TenantCandles
import AdvanceTrading.Reconciliation.Engine
import AdvanceTrading.MarketData.SharedSymbols
import AdvanceTrading.Trading.ExitPart
import AdvanceTrading.Trading.Reverse
import AdvanceTrading.Execution.TriggerPlansKept
import AdvanceTrading.Instruments.StructureResolve
import AdvanceTrading.Alerts.BarTiling
import AdvanceTrading.Audit.NeverForks
import AdvanceTrading.Audit.Tamper
import AdvanceTrading.Billing.Charges
import AdvanceTrading.Billing.Entitlement
import AdvanceTrading.Marketplace.Payouts
import AdvanceTrading.ContractNotes.ActualCharges
import AdvanceTrading.Execution.Core.AutoPaperLimits
import AdvanceTrading.Auth.NeverWidens
import AdvanceTrading.Auth.Mfa
import AdvanceTrading.RiskEngine.RiskManager
import AdvanceTrading.Instruments.SoundPayoff
import AdvanceTrading.Execution.OneWayStops
import AdvanceTrading.Execution.RouterAccounts
import AdvanceTrading.Execution.PlanWindows
import AdvanceTrading.Execution.OpsThrottle
import AdvanceTrading.Screener.MissingValues
import AdvanceTrading.Screener.OnePerLeg
import AdvanceTrading.Screener.Lookback
import AdvanceTrading.Screener.Suffixes
import AdvanceTrading.Screener.VcpZigzag
import AdvanceTrading.OptionChain.Hysteresis
import AdvanceTrading.PriceAction.ReversalMirror
import AdvanceTrading.PriceAction.ReversalTail
import AdvanceTrading.Backtest.OptionRun
import AdvanceTrading.MarketLake.FlaggedReads
import AdvanceTrading.Screener.LinesCausal
import AdvanceTrading.Trading.StopGuard
import AdvanceTrading.Workers.ReplicaLock
import AdvanceTrading.Instruments.CounteredPayoff
