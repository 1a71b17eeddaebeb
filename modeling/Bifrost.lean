import Bifrost.LendMarket.SupplyRewards
import Bifrost.StableAsset.PoolValue
import Bifrost.StablePool.TokenRate
import Bifrost.Farming.Votes
import Bifrost.Farming.Promises
import Bifrost.Farming.Principal
import Bifrost.BbBnc.Settlement
import Bifrost.BbBnc.CurveRuns
import Bifrost.VtokenMinting.MultiMap
import Bifrost.Slp.SubstrateLedgers
import Bifrost.Slp.Confinement
import Bifrost.VtokenMinting.IncentiveLocks
import Bifrost.VtokenVoting.Locks
import Bifrost.VtokenVoting.Tallies
import Bifrost.VtokenVoting.Responses
import Bifrost.FeeShare.Standard
import Bifrost.BuyBack.Schedules
import Bifrost.Vesting.PerBlock
import Bifrost.Slp.StakingPaths
import Bifrost.SlpV2.AstarResponses
import Bifrost.TokenGateway.Refunds
import Bifrost.SystemStaking.Conservation
import Bifrost.ChannelCommission.Shares
import Bifrost.Salp.Funds
import Bifrost.VstokenConversion.Conservation
import Bifrost.LeverageStaking.Target
import Bifrost.LendMarket.AcceptedModels
import Bifrost.LendMarket.Liquidation
import Bifrost.VtokenMinting.RebondPaths
import Bifrost.VtokenMinting.Redemption
import Bifrost.NoInterestLoans.Split
import Bifrost.NoInterestLoans.Valuation
import Bifrost.Primitives.AssetId
import Bifrost.Prices.Limits
import Bifrost.FlexibleFee.Selection
import Bifrost.BbBnc.History
import Bifrost.Farming.GaugeShares
import Bifrost.Farming.BoostShares
import Bifrost.ChannelCommission.HostingFees
import Bifrost.VtokenVoting.Allocation
