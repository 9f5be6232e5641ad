import BinanceFutures.Basics

/-! # Messages of the exchange

    The enumerations and the messages of `protocol/json` that the gateway's handlers read, and the maps
    to the client library's enumerations. Every exchange enumeration has two members of its own:
    `undefinedInternal` (the field is missing) and `unknownInternal` (its text is not in the list). -/

namespace BinanceFutures.Json

inductive OrderStatus where
  | undefinedInternal | unknownInternal | new | partiallyFilled | filled | canceled | expired
  | newInsurance | newAdl | expiredInMatch
  deriving DecidableEq

inductive Side where | undefinedInternal | unknownInternal | buy | sell
  deriving DecidableEq

inductive OrderType where
  | undefinedInternal | unknownInternal | market | limit | stop | takeProfit | liquidation
  deriving DecidableEq

inductive TimeInForce where
  | undefinedInternal | unknownInternal | gtc | ioc | fok | gtx | otc | rpi
  deriving DecidableEq

inductive SelfTradePrevention where
  | undefinedInternal | unknownInternal | none | expireMaker | expireTaker | expireBoth
  deriving DecidableEq

inductive ExecutionType where
  | undefinedInternal | unknownInternal | new | calculated | canceled | expired | trade | amendment
  deriving DecidableEq

/-! ### `map` -/

def OrderStatus.map : OrderStatus → BinanceFutures.OrderStatus
  | .undefinedInternal => .undefined
  | .unknownInternal => .undefined
  | .new => .working
  | .partiallyFilled => .working
  | .filled => .completed
  | .canceled => .canceled
  | .expired => .expired
  | .newInsurance => .undefined
  | .newAdl => .undefined
  | .expiredInMatch => .expired

def OrderStatus.mapRequestStatus : OrderStatus → RequestStatus
  | .undefinedInternal => .undefined
  | .unknownInternal => .undefined
  | .new => .accepted
  | .partiallyFilled => .accepted
  | .filled => .rejected
  | .canceled => .rejected
  | .expired => .rejected
  | .newInsurance => .rejected
  | .newAdl => .rejected
  | .expiredInMatch => .rejected

def Side.map : Side → BinanceFutures.Side
  | .undefinedInternal => .undefined
  | .unknownInternal => .undefined
  | .buy => .buy
  | .sell => .sell

def OrderType.map : OrderType → BinanceFutures.OrderType
  | .undefinedInternal => .undefined
  | .unknownInternal => .undefined
  | .market => .market
  | .limit => .limit
  | .stop => .undefined
  | .takeProfit => .undefined
  | .liquidation => .undefined

def TimeInForce.map : TimeInForce → BinanceFutures.TimeInForce
  | .undefinedInternal => .undefined
  | .unknownInternal => .undefined
  | .gtc => .gtc
  | .ioc => .ioc
  | .fok => .fok
  | .gtx => .gtx
  | .otc => .undefined
  | .rpi => .gtc

/-! The way out. -/

/-- `map`, outbound. -/
def mapSide : BinanceFutures.Side → Side
  | .undefined => .undefinedInternal
  | .buy => .buy
  | .sell => .sell

/-- `map`, outbound. -/
def mapOrderType : BinanceFutures.OrderType → OrderType
  | .undefined => .undefinedInternal
  | .market => .market
  | .limit => .limit

/-- `map`, outbound. -/
def mapTimeInForce (timeInForce : BinanceFutures.TimeInForce)
    (executionInstructions : List ExecutionInstruction) (executionDestination : String) : TimeInForce :=
  if executionDestination = "RPI" then .rpi
  else match timeInForce with
    | .undefined => .undefinedInternal
    | .gfd => .undefinedInternal
    | .gtc => if .participateDoNotInitiate ∈ executionInstructions then .gtx else .gtc
    | .opg => .undefinedInternal
    | .ioc => .ioc
    | .fok => .fok
    | .gtx => .gtx
    | .gtd => .undefinedInternal
    | .atTheClose => .undefinedInternal
    | .goodThroughCrossing => .undefinedInternal
    | .atCrossing => .undefinedInternal
    | .goodForTime => .undefinedInternal
    | .gfa => .undefinedInternal
    | .gfm => .undefinedInternal

theorem mapTimeInForce_ne_unknown (timeInForce : BinanceFutures.TimeInForce)
    (executionInstructions : List ExecutionInstruction) (executionDestination : String) :
    mapTimeInForce timeInForce executionInstructions executionDestination ≠ .unknownInternal := by
  unfold mapTimeInForce
  split
  · nofun
  · cases timeInForce with
    | gtc =>
      dsimp only
      split
      · nofun
      · nofun
    | _ => nofun

/-! ### User stream -/

/-- `ExecutionReport`, inside an `ORDER_TRADE_UPDATE`. -/
structure ExecutionReport where
  symbol : String
  clientOrderId : String
  side : Side
  orderType : OrderType
  timeInForce : TimeInForce
  originalQuantity : Double
  originalPrice : Double
  averagePrice : Double
  stopPrice : Double
  executionType : ExecutionType
  orderStatus : OrderStatus
  orderId : ℤ
  lastFilledQuantity : Double
  orderFilledAccumulatedQuantity : Double
  lastFilledPrice : Double
  commission : Double
  commissionAsset : String
  orderTradeTime : Nanos
  tradeId : ℤ
  isTradeMaker : Bool

structure OrderTradeUpdate where
  eventTime : Nanos
  transactionTime : Nanos
  executionReport : ExecutionReport

structure TradeLite where
  eventTime : Nanos
  transactionTime : Nanos
  symbol : String
  maker : Bool
  clientOrderId : String
  side : Side
  lastFilledPrice : Double
  lastFilledQuantity : Double
  tradeId : ℤ
  orderId : ℤ

/-- `executionReport`, the order events of a portfolio account's margin trading. -/
structure ExecutionReport2 where
  eventTime : Nanos
  symbol : String
  clientOrderId : String
  side : Side
  orderType : OrderType
  timeInForce : TimeInForce
  originalQuantity : Double
  originalPrice : Double
  stopPrice : Double
  executionType : ExecutionType
  orderStatus : OrderStatus
  orderId : ℤ
  lastFilledQuantity : Double
  orderFilledAccumulatedQuantity : Double
  lastFilledPrice : Double
  commission : Double
  commissionAsset : String
  transactionTime : Nanos
  tradeId : ℤ
  isTradeMaker : Bool
  orderCreationTime : Nanos

/-- The events that `UserStreamParser` hands to a drop copy. The events whose handlers publish no trade
    and no order (account, margin, strategy, grid, configuration, balance and liability updates) are
    one member. -/
inductive UserStreamEvent where
  | listenKeyExpired
  | orderTradeUpdate (m : OrderTradeUpdate)
  | tradeLite (m : TradeLite)
  | executionReport2 (m : ExecutionReport2)
  | other

/-! ### Orders, trades and errors -/

/-- `Order`; the answers to `order.place`, `order.modify` and `order.cancel` have the same fields but
    `time`. -/
structure Order where
  orderId : ℤ
  symbol : String
  status : OrderStatus
  clientOrderId : String
  price : Double := nan
  avgPrice : Double := nan
  origQty : Double := nan
  executedQty : Double := nan
  timeInForce : TimeInForce := .undefinedInternal
  type : OrderType := .undefinedInternal
  side : Side := .undefinedInternal
  stopPrice : Double := nan
  time : Nanos := 0
  updateTime : Nanos := 0
  deriving DecidableEq

structure Trade where
  commission : Double
  commissionAsset : String
  id : ℤ
  maker : Bool
  orderId : ℤ
  price : Double
  qty : Double
  side : Side
  symbol : String
  time : Nanos

/-- `Error` and `OpenOrdersCancelAllAck`: a code and its text. -/
structure CodeMsg where
  code : ℤ
  msg : String
  deriving DecidableEq

def guessError (code : ℤ) : Error :=
  if code = -2011 then .tooLateToModifyOrCancel       -- CANCEL_REJECTED
  else if code = -2013 then .tooLateToModifyOrCancel  -- NO_SUCH_ORDER
  else if code = -4197 then .modifyHasNoEffect        -- SAME_ORDER
  else .unknown

theorem guessError_eq_unknown_iff {code : ℤ} :
    guessError code = .unknown ↔ code ≠ -2011 ∧ code ≠ -2013 ∧ code ≠ -4197 := by
  unfold guessError
  split
  · simp_all
  · split
    · simp_all
    · split <;> simp_all

theorem guessError_eq_tooLate_iff {code : ℤ} :
    guessError code = .tooLateToModifyOrCancel ↔ code = -2011 ∨ code = -2013 := by
  unfold guessError
  split
  · simp_all
  · split
    · simp_all
    · split <;> simp_all

theorem guessError_ne_undefined (code : ℤ) : guessError code ≠ .undefined := by
  unfold guessError
  split
  · simp
  · split
    · simp
    · split <;> simp

end BinanceFutures.Json
