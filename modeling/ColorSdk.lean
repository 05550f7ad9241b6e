import ColorSdk.Lib.SortedKV
import ColorSdk.Lib.Lex
import ColorSdk.Lib.Cursor
import ColorSdk.Lib.Overlay
import ColorSdk.Store.Types
import ColorSdk.Store.Prefix
import ColorSdk.Store.CacheKV
import ColorSdk.Store.CacheKVMerge
import ColorSdk.Store.CacheKVRefinement
import ColorSdk.Lib.ExceptSpec
import ColorSdk.Gov.Keeper
import ColorSdk.Gov.EndBlocker
import ColorSdk.Gov.Queues
import ColorSdk.Gov.Escrow
import ColorSdk.Lib.FixedPoint
import ColorSdk.Types.Decimal
import ColorSdk.Staking.Types
import ColorSdk.Staking.Keeper
import ColorSdk.Staking.Handler
import ColorSdk.Staking.Council
import ColorSdk.Distribution.Keeper
import ColorSdk.Distribution.ReferenceCount
import ColorSdk.Staking.Genesis
import ColorSdk.Gov.Genesis
import ColorSdk.Staking.ExchangeRate
import ColorSdk.Auth.Vesting
import ColorSdk.Lib.Window
import ColorSdk.Slashing.Keeper
import ColorSdk.Slashing.MissedBlocks
import ColorSdk.Slashing.Tombstone
import ColorSdk.Staking.SlashBound
import ColorSdk.BaseApp.RunTx
import ColorSdk.Staking.Frame
import ColorSdk.Staking.PowerIndex
import ColorSdk.Gov.Funding
import ColorSdk.Lib.SortedMerge
import ColorSdk.Types.Coin
import ColorSdk.Types.DecCoin
import ColorSdk.Gov.Tally
import ColorSdk.Lib.BigEndian
import ColorSdk.Staking.PowerKey
import ColorSdk.Types.CoinString
import ColorSdk.Bank.Keeper
import ColorSdk.Mint.Minter
import ColorSdk.Distribution.Allocation
import ColorSdk.Gov.Treasury
import ColorSdk.Lib.GoText
import ColorSdk.Types.DecimalString
import ColorSdk.Lib.RemoveLoop
import ColorSdk.Staking.Completion
import ColorSdk.Store.RootMulti
import ColorSdk.Crypto.HdPath
import ColorSdk.App.Genesis
import ColorSdk.App.Export
import ColorSdk.App.Vesting
import ColorSdk.Distribution.Conservation
import ColorSdk.Store.GasKV
import ColorSdk.Lib.LoggedRun
import ColorSdk.Ibc.Handler
import ColorSdk.Ibc.Channel
import ColorSdk.Ibc.Protocol
import ColorSdk.Lib.ZeroPad
import ColorSdk.Store.List
import ColorSdk.Auth.Ante
import ColorSdk.Auth.AntePass
import ColorSdk.Auth.Replay
import ColorSdk.BaseApp.ABCI
