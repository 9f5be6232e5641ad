import BinanceFutures.Basics
import Std.Data.String.ToInt

/-! # Order management

    What the gateway and the client library's order management say to each other: requests come in,
    responses, order updates and trade updates go out, and the `Dispatcher` answers the questions the
    gateway asks about orders and instruments. Fields that no handler sets to anything but their default
    are left out. -/

namespace BinanceFutures

/-- `MessageInfo::source`, the client. -/
abbrev UserId := UInt8

abbrev OrderId := UInt64

/-- The version of a request about an order. -/
abbrev Version := UInt32

/-- `server::oms::Order`, as the order management shows it to a handler. -/
structure Order where
  userId : UserId
  orderId : OrderId
  strategyId : ℕ := 0
  account : String := ""
  symbol : String
  side : Side := .undefined
  clientOrderId : String
  externalOrderId : String := ""
  quantity : Double := nan
  price : Double := nan
  createTimeUtc : Nanos := 0

/-- `roq::Precision`: a number of decimals, or `none` where it is undefined. -/
abbrev Precision := Option ℕ

/-- `server::oms::RefData` -/
structure RefData where
  multiplier : Double := nan
  quantityPrecision : Precision := none
  pricePrecision : Precision := none

/-! ### Requests -/

structure CreateOrder where
  account : String
  orderId : OrderId
  symbol : String
  side : Side := .undefined
  orderType : OrderType := .undefined
  timeInForce : TimeInForce := .undefined
  /-- A set. -/
  executionInstructions : List ExecutionInstruction := []
  executionDestination : String := ""
  quantity : Double := nan
  price : Double := nan
  stopPrice : Double := nan

structure ModifyOrder where
  account : String
  orderId : OrderId
  version : Version
  quantity : Double := nan
  price : Double := nan

structure CancelOrder where
  account : String
  orderId : OrderId
  version : Version

structure CancelAllOrders where
  account : String
  exchange : String := ""
  symbol : String := ""
  side : Side := .undefined

/-- The filter that the streams apply: no symbol, or the symbol itself. -/
def CancelAllOrders.selects (m : CancelAllOrders) (symbol : String) : Bool :=
  m.symbol = "" || symbol = m.symbol

/-! ### Published -/

/-- `server::oms::Response`, with the user and the order it is dispatched to. -/
structure Response where
  requestType : RequestType
  origin : Origin
  requestStatus : RequestStatus
  error : Error := .undefined
  text : String := ""
  version : Version
  externalOrderId : String := ""
  quantity : Double := nan
  price : Double := nan
  userId : UserId
  orderId : OrderId
  deriving DecidableEq

structure CancelAllOrdersAck where
  account : String
  exchange : String := ""
  symbol : String := ""
  side : Side := .undefined
  origin : Origin
  requestStatus : RequestStatus
  error : Error := .undefined
  text : String := ""
  requestId : String
  deriving DecidableEq

structure OrderUpdate where
  account : String
  exchange : String
  symbol : String
  side : Side
  marginMode : MarginMode := .undefined
  orderType : OrderType
  timeInForce : TimeInForce
  createTimeUtc : Nanos := 0
  updateTimeUtc : Nanos := 0
  externalOrderId : String
  clientOrderId : String
  orderStatus : OrderStatus
  error : Error := .undefined
  text : String := ""
  quantity : Double
  price : Double
  stopPrice : Double
  remainingQuantity : Double := nan
  tradedQuantity : Double
  averageTradedPrice : Double := nan
  lastTradedQuantity : Double := nan
  lastTradedPrice : Double := nan
  lastLiquidity : Liquidity := .undefined
  updateType : UpdateType
  sendingTimeUtc : Nanos := 0
  deriving DecidableEq

structure Fill where
  exchangeTimeUtc : Nanos
  externalTradeId : String
  quantity : Double
  price : Double
  liquidity : Liquidity
  commissionAmount : Double
  commissionCurrency : String
  profitLossAmount : Double
  deriving DecidableEq

/-- A `TradeUpdate`, with the user it is dispatched to. -/
structure TradeUpdate where
  account : String
  orderId : OrderId
  exchange : String
  symbol : String
  side : Side
  marginMode : MarginMode
  createTimeUtc : Nanos
  updateTimeUtc : Nanos
  externalOrderId : String
  clientOrderId : String
  fills : List Fill
  updateType : UpdateType
  sendingTimeUtc : Nanos
  strategyId : ℕ
  userId : UserId
  deriving DecidableEq

/-! ### Asked -/

/-- `SOURCE_NONE` -/
def sourceNone : UserId := 255

/-- `ORDER_ID_NONE` -/
def orderIdNone : OrderId := 0

/-- `STRATEGY_ID_NONE` -/
def strategyIdNone : ℕ := 0

/-- What `shared_.dispatcher` answers while one event is handled. -/
structure Dispatcher where
  /-- `find_order`, by client order id. -/
  findOrder : String → Option Order
  /-- `find_order`, by user and order id. -/
  findOrderById : UserId → OrderId → Option Order
  /-- The order that the dispatch of an `OrderUpdate` shows to its callback. -/
  matchOrder : OrderUpdate → Option Order
  /-- `get_ref_data`, by exchange and symbol. -/
  getRefData : String → String → RefData
  /-- `get_all_stale_orders`, by account. -/
  getAllStaleOrders : String → List Order
  /-- `utils::compute_profit_loss_amount` -/
  computeProfitLossAmount : Side → Double → Double → Double → Double

/-- An order management that knows one order by its client order id, or none. -/
def Dispatcher.knowing (order : Option Order) : Dispatcher where
  findOrder clientOrderId := order.filter fun o => o.clientOrderId = clientOrderId
  findOrderById userId orderId := order.filter fun o => o.userId = userId && o.orderId = orderId
  matchOrder m := order.filter fun o => o.clientOrderId = m.clientOrderId
  getRefData _ _ := {}
  getAllStaleOrders _ := []
  computeProfitLossAmount _ _ _ _ := nan

/-- `Utils::create_external_order_id` -/
def createExternalOrderId (symbol : String) (orderId : ℤ) : String :=
  symbol ++ "#" ++ toString orderId

/-- The decimal text of a number has no separator. -/
theorem separator_notMem_toString (i : ℤ) : '#' ∉ (toString i).toList := by
  have hdigits : ∀ n : ℕ, '#' ∉ n.repr.toList := by
    intro n hmem
    have hdigit : ('#' : Char).isDigit :=
      Nat.isDigit_of_mem_toDigits (b := 10) (n := n) (by decide) (by decide) (by simpa using hmem)
    exact absurd hdigit (by decide)
  cases i with
  | ofNat n => exact hdigits n
  | negSucc n =>
    intro hmem
    have hlist : (toString (Int.negSucc n)).toList = '-' :: (n + 1).repr.toList := by
      show ("-" ++ Nat.repr (n + 1)).toList = _
      simp
    rw [hlist, List.mem_cons] at hmem
    exact hmem.elim (by decide) (hdigits _)

theorem toList_createExternalOrderId (symbol : String) (orderId : ℤ) :
    (createExternalOrderId symbol orderId).toList
      = symbol.toList ++ '#' :: (toString orderId).toList := by
  simp [createExternalOrderId]

/-- The first separator splits a text in one way. -/
theorem split_at_separator {α : Type*} {a : α} : ∀ {xs xs' ys ys' : List α}, a ∉ xs → a ∉ xs' →
    xs ++ a :: ys = xs' ++ a :: ys' → xs = xs' ∧ ys = ys'
  | [], [], _, _, _, _, h => ⟨rfl, (List.cons.inj h).2⟩
  | [], x :: _, _, _, _, h', h => by
      obtain rfl : a = x := (List.cons.inj h).1
      exact absurd (List.mem_cons_self ..) h'
  | x :: _, [], _, _, hx, _, h => by
      obtain rfl : x = a := (List.cons.inj h).1
      exact absurd (List.mem_cons_self ..) hx
  | x :: xs, x' :: xs', _, _, hx, hx', h => by
      obtain ⟨rfl, htail⟩ := List.cons.inj h
      obtain ⟨rfl, rfl⟩ := split_at_separator (fun hmem => hx (List.mem_cons_of_mem _ hmem))
        (fun hmem => hx' (List.mem_cons_of_mem _ hmem)) htail
      exact ⟨rfl, rfl⟩

/-- The last separator of a composite id is the one that was put in. -/
theorem createExternalOrderId_eq_iff {symbol symbol' : String} {i j : ℤ} :
    createExternalOrderId symbol i = createExternalOrderId symbol' j ↔ symbol = symbol' ∧ i = j := by
  constructor
  · intro h
    have hlist := congrArg (List.reverse ∘ String.toList) h
    simp only [Function.comp_apply, toList_createExternalOrderId, List.reverse_append,
      List.reverse_cons, List.append_assoc, List.singleton_append] at hlist
    have hi : '#' ∉ (toString i).toList.reverse := by
      rw [List.mem_reverse]
      exact separator_notMem_toString i
    have hj : '#' ∉ (toString j).toList.reverse := by
      rw [List.mem_reverse]
      exact separator_notMem_toString j
    obtain ⟨hdigits, hsymbol⟩ := split_at_separator hi hj hlist
    refine ⟨String.toList_inj.mp (List.reverse_inj.mp hsymbol), ?_⟩
    exact Int.repr_inj.mp (String.toList_inj.mp (List.reverse_inj.mp hdigits))
  · rintro ⟨rfl, rfl⟩
    rfl

end BinanceFutures
