import BinanceFutures.Gateway.Oms
import BinanceFutures.Gateway.Settings
import BinanceFutures.Protocol.Json

/-! # User stream

    The order and fill handlers of the two drop copy classes. Each fill of an order is reported by two
    messages, a `TRADE_LITE` and an `ORDER_TRADE_UPDATE`, and the flag `trade_lite` says which one of
    them is published.

        TRADE_LITE          ── trade_lite, order found ──▶ TradeUpdate
        ORDER_TRADE_UPDATE  ── always ──▶ OrderUpdate
                            ── TRADE, not trade_lite ──▶ TradeUpdate     (classic)
                            ── TRADE ──▶ TradeUpdate                     (portfolio) -/

namespace BinanceFutures

/-- What the user stream's handlers dispatch. -/
inductive Published where
  | orderUpdate (m : OrderUpdate)
  | tradeUpdate (m : TradeUpdate)
  deriving DecidableEq

namespace UserStream
open Json

def liquidity (isMaker : Bool) : Liquidity := if isMaker then .maker else .taker

/-- `operator()(OrderTradeUpdate)`, for the margin mode that the class publishes; `dropTrade` is its
    test before the trade is published. -/
def orderTradeUpdate (settings : Settings) (account : String) (marginMode : MarginMode)
    (dropTrade : Bool) (d : Dispatcher) (m : OrderTradeUpdate) : List Published :=
  let executionReport := m.executionReport
  let externalOrderId := createExternalOrderId executionReport.symbol executionReport.orderId
  let orderUpdate : OrderUpdate := {
    account, exchange := settings.exchange, symbol := executionReport.symbol,
    side := executionReport.side.map, marginMode, orderType := executionReport.orderType.map,
    timeInForce := executionReport.timeInForce.map, updateTimeUtc := m.transactionTime,
    externalOrderId, clientOrderId := executionReport.clientOrderId,
    orderStatus := executionReport.orderStatus.map, quantity := executionReport.originalQuantity,
    price := executionReport.originalPrice, stopPrice := executionReport.stopPrice,
    tradedQuantity := executionReport.orderFilledAccumulatedQuantity,
    averageTradedPrice := executionReport.averagePrice,
    lastTradedQuantity := executionReport.lastFilledQuantity,
    lastTradedPrice := executionReport.lastFilledPrice,
    lastLiquidity := liquidity executionReport.isTradeMaker, updateType := .incremental,
    sendingTimeUtc := m.eventTime }
  let order := d.matchOrder orderUpdate
  if executionReport.executionType ≠ .trade then [.orderUpdate orderUpdate]
  else if dropTrade then [.orderUpdate orderUpdate]
  else
    let side := executionReport.side.map
    let refData := d.getRefData settings.exchange executionReport.symbol
    let fill : Fill := {
      exchangeTimeUtc := executionReport.orderTradeTime,
      externalTradeId := toString executionReport.tradeId,
      quantity := executionReport.lastFilledQuantity, price := executionReport.lastFilledPrice,
      liquidity := liquidity executionReport.isTradeMaker,
      commissionAmount := executionReport.commission,
      commissionCurrency := executionReport.commissionAsset,
      profitLossAmount := d.computeProfitLossAmount side executionReport.lastFilledQuantity
        executionReport.lastFilledPrice refData.multiplier }
    [.orderUpdate orderUpdate, .tradeUpdate {
      account, orderId := order.elim orderIdNone (·.orderId), exchange := settings.exchange,
      symbol := executionReport.symbol, side, marginMode,
      createTimeUtc := executionReport.orderTradeTime,
      updateTimeUtc := executionReport.orderTradeTime, externalOrderId,
      clientOrderId := executionReport.clientOrderId, fills := [fill], updateType := .incremental,
      sendingTimeUtc := m.eventTime, strategyId := order.elim strategyIdNone (·.strategyId),
      userId := order.elim sourceNone (·.userId) }]

/-- `operator()(TradeLite)`, the same in both classes. -/
def tradeLite (settings : Settings) (account : String) (d : Dispatcher) (m : TradeLite) :
    List Published :=
  if settings.ws.tradeLite = false then []
  else match d.findOrder m.clientOrderId with
    | none => []
    | some order =>
      let side := m.side.map
      let refData := d.getRefData settings.exchange m.symbol
      let fill : Fill := {
        exchangeTimeUtc := m.transactionTime, externalTradeId := toString m.tradeId,
        quantity := m.lastFilledQuantity, price := m.lastFilledPrice,
        liquidity := liquidity m.maker, commissionAmount := nan, commissionCurrency := "",
        profitLossAmount := d.computeProfitLossAmount side m.lastFilledQuantity m.lastFilledPrice
          refData.multiplier }
      [.tradeUpdate {
        account, orderId := order.orderId, exchange := settings.exchange, symbol := m.symbol, side,
        marginMode := .portfolio, createTimeUtc := m.transactionTime,
        updateTimeUtc := m.transactionTime,
        externalOrderId := createExternalOrderId m.symbol m.orderId,
        clientOrderId := m.clientOrderId, fills := [fill], updateType := .incremental,
        sendingTimeUtc := m.eventTime, strategyId := order.strategyId, userId := order.userId }]

end UserStream

namespace DropCopyClassic
open Json

def orderTradeUpdate (settings : Settings) (account : String) :
    Dispatcher → OrderTradeUpdate → List Published :=
  UserStream.orderTradeUpdate settings account .undefined settings.ws.tradeLite

def tradeLite (settings : Settings) (account : String) : Dispatcher → TradeLite → List Published :=
  UserStream.tradeLite settings account

/-- note! this is only expected with PAPI -/
def executionReport2 (_ : Dispatcher) (_ : ExecutionReport2) : List Published := []

end DropCopyClassic

namespace DropCopyPortfolio
open Json

-- this class does not look at `trade_lite` before it publishes the trade
def orderTradeUpdate (settings : Settings) (account : String) :
    Dispatcher → OrderTradeUpdate → List Published :=
  UserStream.orderTradeUpdate settings account .portfolio false

def tradeLite (settings : Settings) (account : String) : Dispatcher → TradeLite → List Published :=
  UserStream.tradeLite settings account

def executionReport2 (settings : Settings) (account : String) (d : Dispatcher)
    (m : ExecutionReport2) : List Published :=
  let externalOrderId := createExternalOrderId m.symbol m.orderId
  let orderUpdate : OrderUpdate := {
    account, exchange := settings.exchange, symbol := m.symbol, side := m.side.map,
    marginMode := .portfolio, orderType := m.orderType.map, timeInForce := m.timeInForce.map,
    createTimeUtc := m.orderCreationTime, updateTimeUtc := m.transactionTime, externalOrderId,
    clientOrderId := m.clientOrderId, orderStatus := m.orderStatus.map,
    quantity := m.originalQuantity, price := m.originalPrice, stopPrice := m.stopPrice,
    tradedQuantity := m.orderFilledAccumulatedQuantity, lastTradedQuantity := m.lastFilledQuantity,
    lastTradedPrice := m.lastFilledPrice, lastLiquidity := UserStream.liquidity m.isTradeMaker,
    updateType := .incremental, sendingTimeUtc := m.eventTime }
  let order := d.matchOrder orderUpdate
  if m.executionType ≠ .trade then [.orderUpdate orderUpdate]
  else if settings.ws.tradeLite then [.orderUpdate orderUpdate]
  else
    let side := m.side.map
    let refData := d.getRefData settings.exchange m.symbol
    let fill : Fill := {
      exchangeTimeUtc := m.transactionTime, externalTradeId := toString m.tradeId,
      quantity := m.lastFilledQuantity, price := m.lastFilledPrice,
      liquidity := UserStream.liquidity m.isTradeMaker, commissionAmount := m.commission,
      commissionCurrency := m.commissionAsset,
      profitLossAmount := d.computeProfitLossAmount side m.lastFilledQuantity m.lastFilledPrice
        refData.multiplier }
    [.orderUpdate orderUpdate, .tradeUpdate {
      account, orderId := order.elim orderIdNone (·.orderId), exchange := settings.exchange,
      symbol := m.symbol, side, marginMode := .portfolio, createTimeUtc := m.transactionTime,
      updateTimeUtc := m.transactionTime, externalOrderId, clientOrderId := m.clientOrderId,
      fills := [fill], updateType := .incremental, sendingTimeUtc := m.eventTime,
      strategyId := order.elim strategyIdNone (·.strategyId),
      userId := order.elim sourceNone (·.userId) }]

end DropCopyPortfolio

/-! ### Fills -/

/-- What the exchange identifies a fill by. -/
structure FillKey where
  symbol : String
  orderId : ℤ
  tradeId : ℤ

/-- The trade update is about the fill. -/
def TradeUpdate.reports (m : TradeUpdate) (k : FillKey) : Bool :=
  m.symbol = k.symbol && m.externalOrderId = createExternalOrderId k.symbol k.orderId &&
    m.fills.any fun fill => fill.externalTradeId = toString k.tradeId

def Published.reports (k : FillKey) : Published → Bool
  | .orderUpdate _ => false
  | .tradeUpdate m => m.reports k

namespace Json

def OrderTradeUpdate.reports (m : OrderTradeUpdate) (k : FillKey) : Bool :=
  m.executionReport.executionType = .trade && m.executionReport.symbol = k.symbol &&
    m.executionReport.orderId = k.orderId && m.executionReport.tradeId = k.tradeId

def TradeLite.reports (m : TradeLite) (k : FillKey) : Bool :=
  m.symbol = k.symbol && m.orderId = k.orderId && m.tradeId = k.tradeId

def ExecutionReport2.reports (m : ExecutionReport2) (k : FillKey) : Bool :=
  m.executionType = .trade && m.symbol = k.symbol && m.orderId = k.orderId && m.tradeId = k.tradeId

end Json

/-- For one symbol, different exchange ids are different external ids. -/
theorem createExternalOrderId_inj {symbol : String} {i j : ℤ} :
    createExternalOrderId symbol i = createExternalOrderId symbol j ↔ i = j := by
  rw [createExternalOrderId_eq_iff]
  simp

/-- A trade update of one fill is about exactly the fill it was made from. -/
theorem reports_iff {m : TradeUpdate} {k : FillKey} {fill : Fill} {symbol : String}
    {orderId tradeId : ℤ} (hsymbol : m.symbol = symbol)
    (hid : m.externalOrderId = createExternalOrderId symbol orderId) (hfills : m.fills = [fill])
    (htrade : fill.externalTradeId = toString tradeId) :
    m.reports k = (decide (symbol = k.symbol) && decide (orderId = k.orderId) &&
      decide (tradeId = k.tradeId)) := by
  by_cases h : symbol = k.symbol
  · subst h
    simp [TradeUpdate.reports, hsymbol, hid, hfills, htrade, createExternalOrderId_inj]
  · simp [TradeUpdate.reports, hsymbol, h]

/-- Whether a fill's `ORDER_TRADE_UPDATE` is published as a trade. -/
theorem count_orderTradeUpdate (settings : Settings) (account : String) (marginMode : MarginMode)
    (dropTrade : Bool) (d : Dispatcher) (m : Json.OrderTradeUpdate) (k : FillKey) :
    (UserStream.orderTradeUpdate settings account marginMode dropTrade d m).countP (·.reports k)
      = if m.reports k = true ∧ dropTrade = false then 1 else 0 := by
  unfold UserStream.orderTradeUpdate
  by_cases htrade : m.executionReport.executionType = .trade
  · cases dropTrade with
    | true => simp [htrade, Published.reports]
    | false =>
      simp only [htrade, ne_eq, not_true_eq_false, if_false, Bool.false_eq_true, and_true]
      rw [List.countP_cons, List.countP_cons, List.countP_nil, Published.reports, Published.reports,
        reports_iff rfl rfl rfl rfl]
      simp [Json.OrderTradeUpdate.reports, htrade]
  · simp [htrade, Published.reports, Json.OrderTradeUpdate.reports]

/-- Whether a fill's `TRADE_LITE` is published as a trade. -/
theorem count_tradeLite (settings : Settings) (account : String) (d : Dispatcher)
    (m : Json.TradeLite) (k : FillKey) :
    (UserStream.tradeLite settings account d m).countP (·.reports k)
      = if m.reports k = true ∧ settings.ws.tradeLite = true ∧
          (d.findOrder m.clientOrderId).isSome = true then 1 else 0 := by
  unfold UserStream.tradeLite
  cases hflag : settings.ws.tradeLite with
  | false => simp
  | true =>
    cases horder : d.findOrder m.clientOrderId with
    | none => simp
    | some order =>
      simp only [Bool.true_eq_false, if_false, Option.isSome_some, and_true]
      rw [List.countP_cons, List.countP_nil, Published.reports, reports_iff rfl rfl rfl rfl]
      simp [Json.TradeLite.reports]

/-- Whether a margin fill's `executionReport` is published as a trade. -/
theorem count_executionReport2 (settings : Settings) (account : String) (d : Dispatcher)
    (m : Json.ExecutionReport2) (k : FillKey) :
    (DropCopyPortfolio.executionReport2 settings account d m).countP (·.reports k)
      = if m.reports k = true ∧ settings.ws.tradeLite = false then 1 else 0 := by
  unfold DropCopyPortfolio.executionReport2
  by_cases htrade : m.executionType = .trade
  · cases hflag : settings.ws.tradeLite with
    | true => simp [htrade, Published.reports]
    | false =>
      simp only [htrade, ne_eq, not_true_eq_false, if_false, Bool.false_eq_true, and_true]
      rw [List.countP_cons, List.countP_cons, List.countP_nil, Published.reports, Published.reports,
        reports_iff rfl rfl rfl rfl]
      simp [Json.ExecutionReport2.reports, htrade]
  · simp [htrade, Published.reports, Json.ExecutionReport2.reports]

end BinanceFutures
