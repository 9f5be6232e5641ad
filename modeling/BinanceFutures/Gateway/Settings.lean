import BinanceFutures.Basics

/-! # Settings and configuration

    The flags the modelled functions read, each group under the flags' own name and with the default
    of its flag. The groups `Download`, `TimeSeries` and `Experimental` belong to the server library:
    their defaults here are value initialisation. -/

namespace BinanceFutures

structure Misc where
  pollBalanceFreq : Nanos := 0
  subscribeAssetIndex : Bool := false
  subscribeForceOrder : Bool := false
  testForceClientOrderId : Bool := false
  testCancelBugTimeout : Nanos := milliseconds 10

structure REST where
  listenKeyRefresh : Nanos := seconds 1800
  orderRecvWindow : Nanos := milliseconds 5000
  cancelOnDisconnect : Bool := false
  orderCountdown : Nanos := seconds 30
  terminateOn403 : Bool := false
  backOffDelay : Nanos := seconds 300
  dropOrderUpdate : Bool := false

structure WS where
  maxSubscriptionsPerStream : ℕ := 40
  subscribeDepthLevels : ℕ := 1000
  subscribeDepthFreq : Nanos := milliseconds 100
  subscribeTradeDetails : Bool := false
  mbpRequestMaxRetries : ℕ := 0
  enableSecondary : Bool := false
  tradeLite : Bool := false
  markPriceFreq : Nanos := 0

structure WSAPI where
  allowOrderUpdate : Bool := false

structure Download where
  symbols : List String := []
  timeSeriesLookback : Nanos := 0
  tradesLookback : Nanos := 0
  tradesLookbackOnRestart : Nanos := 0
  tradesLimit : ℕ := 0

structure TimeSeries where
  realtime : Bool := false
  interval : Nanos := 0

structure Experimental where
  disableFastOrderAck : Bool := false
  checkStaleOrderFreq : Nanos := 0

structure Settings where
  exchange : String := "binance-futures"
  api : String := "fapi"
  wsApi : Bool := true
  misc : Misc := {}
  rest : REST := {}
  ws : WS := {}
  wsApi2 : WSAPI := {}
  download : Download := {}
  timeSeries : TimeSeries := {}
  experimental : Experimental := {}

/-- `config::Account` -/
structure ConfigAccount where
  marginMode : MarginMode
  login : String
  secret : String
  login2 : String := ""
  secret2 : String := ""

/-- `Config::accounts`; a name that is read twice keeps its first entry. -/
structure Config where
  accounts : List (String × ConfigAccount)

end BinanceFutures
