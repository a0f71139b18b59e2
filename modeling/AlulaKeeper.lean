import AlulaKeeper.Lib.I128
import AlulaKeeper.Lib.Search
import AlulaKeeper.Lib.Fold
import AlulaKeeper.Lib.Downward
import AlulaKeeper.Lib.Loop
import AlulaKeeper.Lib.Steps
import AlulaKeeper.Lib.Delivery
import AlulaKeeper.Lib.Broadcast
import AlulaKeeper.Lib.Text
import AlulaKeeper.Lib.Fields
import AlulaKeeper.Lib.Traverse
import AlulaKeeper.Lib.Transfers
import AlulaKeeper.Lib.Writes
import AlulaKeeper.Lib.Replica
import AlulaKeeper.Lib.Hex
import AlulaKeeper.Lib.Base32
import AlulaKeeper.Lib.Compounding
import AlulaKeeper.Lending.Pool
import AlulaKeeper.Lending.SafeWithdrawal
import AlulaKeeper.Lending.Shares
import AlulaKeeper.Lending.Health
import AlulaKeeper.Lending.Profitability
import AlulaKeeper.Lending.Pair
import AlulaKeeper.Lending.Accrual
import AlulaKeeper.Lending.Cover
import AlulaKeeper.Verdict.SweepCover
import AlulaKeeper.Verdict.DegradedCover
import AlulaKeeper.Verdict.Locality
import AlulaKeeper.Verdict.Insolvency
import AlulaKeeper.Sizing.Buys
import AlulaKeeper.Sizing.SeizureCaps
import AlulaKeeper.Sizing.Headroom
import AlulaKeeper.Sizing.Clears
import AlulaKeeper.Sizing.Fitting
import AlulaKeeper.Sizing.Partial
import AlulaKeeper.Sizing.FitGrowth
import AlulaKeeper.Sizing.ClearingOffers
import AlulaKeeper.Sizing.Reach
import AlulaKeeper.Sizing.QuoteBounds
import AlulaKeeper.Sizing.Aborts
import AlulaKeeper.Verdict.NeverAborts
import AlulaKeeper.Keeper.Plan
import AlulaKeeper.Keeper.PlanModes
import AlulaKeeper.Keeper.PlanSpec
import AlulaKeeper.Keeper.PreswapAssets
import AlulaKeeper.Keeper.SweepCap
import AlulaKeeper.Keeper.Funding
import AlulaKeeper.Keeper.FlashWithdrawal
import AlulaKeeper.Keeper.Forecast
import AlulaKeeper.Keeper.Cadence
import AlulaKeeper.Keeper.Obligations
import AlulaKeeper.Keeper.Mirror
import AlulaKeeper.Keeper.Replay
import AlulaKeeper.Keeper.CoverDispatch
import AlulaKeeper.Keeper.Freshness
import AlulaKeeper.Keeper.Withdrawer
import AlulaKeeper.Keeper.WithdrawerDeposits
import AlulaKeeper.Keeper.Cursor
import AlulaKeeper.Keeper.Capital
import AlulaKeeper.Keeper.Reservations
import AlulaKeeper.Keeper.Wallet
import AlulaKeeper.Keeper.Balancer
import AlulaKeeper.Keeper.BalancerAborts
import AlulaKeeper.Keeper.PriceImpact
import AlulaKeeper.Stellar.KeyCodec
import AlulaKeeper.Stellar.Errors
import AlulaKeeper.Stellar.Values
import AlulaKeeper.Stellar.Snapshot
import AlulaKeeper.Stellar.MarketReads
import AlulaKeeper.Stellar.Requests
import AlulaKeeper.Stellar.Events
import AlulaKeeper.Keeper.Executor
import AlulaKeeper.Keeper.Batch
import AlulaKeeper.Keeper.TaskLedger
import AlulaKeeper.Keeper.Scan
import AlulaKeeper.Keeper.Dispatch
import AlulaKeeper.Keeper.Follow
import AlulaKeeper.Keeper.Rebalance
import AlulaKeeper.Keeper.InFlight
import AlulaKeeper.Engine.Reactor
import AlulaKeeper.Engine.Delivery
