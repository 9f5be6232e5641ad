import BinanceFutures.Gateway.Oms
import BinanceFutures.Gateway.Request
import BinanceFutures.Gateway.Settings
import BinanceFutures.Protocol.Json
import BinanceFutures.Schemes.Ledger
import BinanceFutures.Schemes.Machine

/-! # REST streams

    `OrderEntryClassic`, `OrderEntryPortfolio` and `RestTrade`: the account's connections over HTTP.
    They are three copies of one design, modelled as one state with the class as a field; where the
    copies differ, a definition branches on the class.

        timer ── refresh_listen_key ─▶ POST listenKey
              ── check_request_queue ─▶ GET … for every slot that is pending
        client ── create, modify, cancel, cancel all ─▶ POST, PUT, DELETE
        answer ── process_response ─▶ the acknowledgement's handler, commit of the slot

    The HTTP client calls back for every request it was given, in any order: `calls` holds the requests
    that have not been answered, each with what its callback has captured. -/

namespace BinanceFutures
open Machine

/-- What an exception carries that `process_response` catches. -/
inductive Raised where
  | oms (origin : Origin) (status : RequestStatus) (error : Error) (what : String)
  | network (status : RequestStatus) (error : Error) (what : String)
  | other (what : String)
  deriving DecidableEq

/-- `web::rest::Response`, by its category. A body that has to be parsed is there, or its parser throws;
    `text` is the formatted status. -/
inductive RestResponse (α : Type) where
  /-- `UNKNOWN` and `INFORMATIONAL_RESPONSE`: `expect` throws. -/
  | unexpected (e : Raised)
  | success (body : Except Raised α)
  | redirection
  | clientError (status : ℕ) (text : String) (retryAfter : Nanos) (body : Except Raised Json.CodeMsg)
  | serverError (text : String)
  /-- `result` throws. -/
  | raised (e : Raised)

namespace RestStream

/-- The class. -/
inductive Kind where | orderEntryClassic | orderEntryPortfolio | restTrade
  deriving DecidableEq

/-- A request to the exchange, with what its callback captures. -/
inductive Call where
  | listenKey
  | accountBalance (polling : Bool)
  | accountStatus
  | position
  | openOrders
  | order (clientOrderId : String)
  | userTrades (symbol : String)
  | orderPlace (symbol body : String) (userId : UserId) (orderId : OrderId) (version : Version)
  | orderModify (body : String) (userId : UserId) (orderId : OrderId) (version : Version)
  | orderCancel (body : String) (userId : UserId) (orderId : OrderId) (version : Version)
  | allOpenOrders (symbol requestId : String)
  | countdownCancelAll (symbol : String)
  deriving DecidableEq

/-- What a successful answer's body is parsed into. The items of a balance or a position are not read
    here. -/
def Call.Ack : Call → Type
  | .listenKey => String
  | .openOrders => List Json.Order
  | .order _ => Json.Order
  | .userTrades _ => List Json.Trade
  | .orderPlace .. => Json.Order
  | .orderModify .. => Json.Order
  | .orderCancel .. => Json.Order
  | .allOpenOrders .. => Json.CodeMsg
  | .accountBalance _ | .accountStatus | .position | .countdownCancelAll _ => Unit

/-- The slot whose callback issues the request. -/
def Call.slot : Call → Option Slot
  | .accountBalance false => some .balances
  | .accountStatus => some .positions
  | .position => some .positionsPm
  | .openOrders => some .openOrders
  | .order _ => some .staleOrders
  | .userTrades _ => some .trades
  | _ => none

/-- The slots of `check_request_queue`, in its order. -/
def Kind.slots : Kind → List Slot
  | .orderEntryClassic => [.balances, .positions, .openOrders, .staleOrders, .trades]
  | .orderEntryPortfolio => [.balances, .positions, .positionsPm, .openOrders, .staleOrders, .trades]
  | .restTrade => [.openOrders, .staleOrders, .trades]

/-- `State` of the download; `RestTrade` has none. -/
inductive State where | undefined | listenKey | done
  deriving DecidableEq

end RestStream

/-- The members of a REST stream. -/
structure RestStream where
  kind : RestStream.Kind
  account : String
  connectionStatus : ConnectionStatus := .undefined
  listenKey : String := ""
  listenKeyRefresh : Nanos := 0
  balanceRefresh : Nanos := 0
  nextAutoCancel : Nanos := 0
  /-- A set. -/
  openOrdersSymbols : List String := []
  downloadTradesIsFirst : Bool := true
  downloadStaleOrdersCounter : ℕ := 0
  calls : Ledger RestStream.Call := .empty

namespace RestStream

/-- A stream and the account's slots, which it shares with the drop copy. -/
structure World (R : LimitRequest) where
  stream : RestStream
  request : Request R

inductive Output where
  | fatal
  | throws (e : Exn)
  | connectionStart | connectionStop
  | suspendFor (t : Nanos)
  | streamStatus (status : ConnectionStatus) (reason : String)
  | downloadBegin | downloadReset
  | downloadRetry (state : State)
  | downloadCheckRelaxed (state : State)
  /-- A request goes out, under its number. -/
  | request (n : ℕ) (call : Call)
  /-- The callback of `check_pending` has run and has issued the requests of these numbers. -/
  | callback (c : Slot) (ns : List ℕ)
  /-- An answer to the call commits the slot. -/
  | commit (c : Slot) (call : Call)
  | listenKeyAck (listenKey : String)
  | listenKeyUpdate (listenKey : String)
  /-- An order in a download of the open orders. -/
  | openOrder (symbol clientOrderId : String)
  | orderUpdate (m : OrderUpdate)
  | tradeUpdate (m : TradeUpdate)
  | response (m : Response)
  | cancelAllOrdersAck (m : CancelAllOrdersAck)
  /-- An order on the symbol that the encoder refuses. -/
  | refused (symbol : String) (e : Exn)
  /-- `force_listen_key_refresh` finds nothing to force. -/
  | noListenKeyRefresh
  deriving DecidableEq

/-- What the environment answers while a response is handled. -/
structure Answers where
  now : Nanos
  /-- `download_.downloading()` -/
  downloading : Bool
  /-- The states for which the download runs its callback. -/
  visits : List State

inductive Event where
  | start
  | stop
  | timer (now : Nanos) (refresh : Bool) (gate : Slot → Bool) (d : Dispatcher)
  | connected (visits : List State)
  | disconnected
  | latency
  | answer (n : ℕ) (call : Call) (response : RestResponse call.Ack) (env : Answers) (d : Dispatcher)
  /-- The last argument of the order requests is what the encoder makes of them. -/
  | createOrder (m : CreateOrder) (userId : UserId) (body : Except Exn String)
  | modifyOrder (m : ModifyOrder) (userId : UserId) (body : Except Exn String)
  | cancelOrder (m : CancelOrder) (userId : UserId) (body : Except Exn String)
  | cancelAllOrders (m : CancelAllOrders) (requestId : String)
  | forceListenKeyRefresh (now : Nanos)

/-- note! this is arbitrary and only to avoid spamming -/
def defaultListenKeyRefreshDelay : Nanos := seconds 10

section
variable {R : LimitRequest} (settings : Settings)

/-- An action of a stream. -/
abbrev Act (R : LimitRequest) := Action (World R) Output

def setStatus (status : ConnectionStatus) (reason : String) : Act R := fun w =>
  ({ w with stream.connectionStatus := status }, [.streamStatus status reason])

def isReady (w : World R) : Bool := w.stream.connectionStatus = .ready

/-- `(*connection_)(request, callback, …)` -/
def send (call : Call) : Act R := fun w =>
  ({ w with stream.calls := w.stream.calls.enter call }, [.request w.stream.calls.next call])

def commit (c : Slot) (call : Call) (now : Nanos) : Act R := fun w =>
  ({ w with request := w.request.commit c now }, [.commit c call])

/-! ### `process_response` -/

/-- The error handler that a caller passes in. -/
abbrev OnError (R : LimitRequest) := Origin → RequestStatus → Error → String → Act R

/-- The `catch` clauses; `RestTrade` has none for the order management's exceptions. -/
def caught (kind : Kind) (onError : OnError R) : Raised → Act R
  | .oms origin status error what =>
    if kind = .restTrade then onError .exchange .error .unknown what
    else onError origin status error what
  | .network status error what => onError .gateway status error what
  | .other what => onError .exchange .error .unknown what

/-- What becomes of a response, or `none` where the process ends. -/
def processResponse {α : Type} (kind : Kind) (r : RestResponse α) (onError : OnError R)
    (onSuccess : α → Act R) : Option (Act R) :=
  let rateLimit (text : String) (retryAfter : Nanos) : Act R :=
    seq (emit (if retryAfter ≠ 0 then [.suspendFor retryAfter] else []))
      (onError .exchange .rejected .requestRateLimitReached text)
  match r with
  | .unexpected e => some (caught kind onError e)
  | .success (.ok body) => some (onSuccess body)
  | .success (.error e) => some (caught kind onError e)
  | .redirection => none
  | .clientError status text retryAfter body =>
    if status = forbidden then
      -- note! this is *very* serious
      if settings.rest.terminateOn403 then none
      else some (seq (emit [.suspendFor settings.rest.backOffDelay]) (rateLimit text retryAfter))
    else if status = iAmATeapot ∨ status = tooManyRequests then some (rateLimit text retryAfter)
    else match body with
      | .ok error => some (onError .exchange .rejected (Json.guessError error.code) error.msg)
      | .error e => some (caught kind onError e)
  | .serverError text => some (onError .exchange .rejected .unknown text)
  | .raised e => some (caught kind onError e)

/-- What follows `process_response` in the caller. -/
def andThen (reply : Option (Act R)) (after : Act R) : Act R :=
  match reply with
  | none => emit [.fatal]
  | some f => seq f after

/-- The error handler of the downloads, which only logs. -/
def logError : OnError R := fun _ _ _ _ => skip

/-! ### Listen key -/

def getListenKey : Act R := send .listenKey

/-- `download` -/
def download : State → Act R
  | .undefined => skip
  | .listenKey => seq (setStatus .downloading "LISTEN_KEY") getListenKey
  | .done => setStatus .ready ""

/-- The callbacks of one call of the download. -/
def visit (visits : List State) : Act R := seqAll (visits.map download)

/-- `operator()(ListenKeyAck)` -/
def listenKeyAck (now : Nanos) (listenKey : String) : Act R := fun w =>
  let initial := w.stream.listenKey = ""
  let updated := listenKey ≠ w.stream.listenKey
  ({ w with
      stream.listenKey := listenKey
      stream.listenKeyRefresh := now + settings.rest.listenKeyRefresh },
    .listenKeyAck listenKey :: if updated ∧ initial then [.listenKeyUpdate listenKey] else [])

/-- `get_listen_key_ack` -/
def getListenKeyAck (kind : Kind) (r : RestResponse String) (env : Answers) : Act R :=
  let retry : Act R := if env.downloading then seq (emit [.downloadRetry .listenKey]) (visit env.visits)
    else skip
  andThen
    (processResponse settings kind r (fun _ _ _ _ => retry) fun listenKey =>
      seqAll [listenKeyAck settings env.now listenKey, emit [.downloadCheckRelaxed .listenKey],
        visit env.visits])
    skip

/-- `refresh_listen_key` -/
def refreshListenKey (now : Nanos) : Act R := fun w =>
  if w.stream.listenKeyRefresh = 0 ∨ now < w.stream.listenKeyRefresh then (w, [])
  else getListenKey { w with stream.listenKeyRefresh := now + settings.rest.listenKeyRefresh }

/-- `force_listen_key_refresh` -/
def forceListenKeyRefresh (now : Nanos) : Act R := fun w =>
  if w.stream.listenKeyRefresh ≠ 0 then
    ({ w with stream.listenKeyRefresh := now + defaultListenKeyRefreshDelay }, [])
  else (w, [.noListenKeyRefresh])

/-- `OrderEntryPortfolio::refresh_balance` -/
def refreshBalance (now : Nanos) : Act R := fun w =>
  if settings.misc.pollBalanceFreq = 0 then (w, [])
  else if now < w.stream.balanceRefresh then (w, [])
  else send (.accountBalance true)
    { w with stream.balanceRefresh := now + settings.misc.pollBalanceFreq }

/-! ### Open orders -/

/-- The margin mode in what the class publishes about orders. -/
def marginMode : Kind → MarginMode
  | .orderEntryPortfolio => .portfolio
  | _ => .undefined

/-- What a downloaded order is published as. -/
def orderSnapshot (kind : Kind) (account : String) (item : Json.Order) : OrderUpdate where
  account := account
  exchange := settings.exchange
  symbol := item.symbol
  side := item.side.map
  marginMode := marginMode kind
  orderType := item.type.map
  timeInForce := item.timeInForce.map
  createTimeUtc := item.time
  updateTimeUtc := item.updateTime
  externalOrderId := createExternalOrderId item.symbol item.orderId
  clientOrderId := item.clientOrderId
  orderStatus := item.status.map
  quantity := item.origQty
  price := item.price
  stopPrice := item.stopPrice
  remainingQuantity := match kind with
    | .orderEntryPortfolio => Double.sub item.origQty item.executedQty
    | _ => nan
  tradedQuantity := item.executedQty
  averageTradedPrice := match kind with
    | .orderEntryPortfolio => if item.executedQty = some 0 then nan else item.avgPrice
    | _ => item.avgPrice
  lastTradedQuantity := some 0
  lastTradedPrice := some 0
  updateType := .snapshot

/-- One item of `operator()(OpenOrdersAck)`. -/
def openOrder (item : Json.Order) : Act R := fun w =>
  if item.clientOrderId = "" then (w, [.openOrder item.symbol item.clientOrderId])
  else
    ({ w with stream.openOrdersSymbols := emplace w.stream.openOrdersSymbols item.symbol },
      [.openOrder item.symbol item.clientOrderId,
        .orderUpdate (orderSnapshot settings w.stream.kind w.stream.account item)])

/-- `operator()(OpenOrdersAck)` -/
def openOrdersAck (items : List Json.Order) : Act R := seqAll (items.map (openOrder settings))

/-! ### Stale orders -/

/-- The update that `get_order_ack` publishes for an error. -/
def rejectedOrder (account clientOrderId : String) (error : Error) (text : String) : OrderUpdate where
  account := account
  exchange := ""
  symbol := ""
  side := .undefined
  orderType := .undefined
  timeInForce := .undefined
  externalOrderId := ""
  clientOrderId := clientOrderId
  orderStatus := .rejected
  error := error
  text := text
  quantity := nan
  price := nan
  stopPrice := nan
  tradedQuantity := nan
  lastTradedQuantity := some 0
  lastTradedPrice := some 0
  updateType := .snapshot

/-- The end of `get_order_ack`. -/
def orderAnswered (call : Call) (now : Nanos) : Act R := fun w =>
  let w₁ := { w with
    stream.downloadStaleOrdersCounter := w.stream.downloadStaleOrdersCounter - 1 }
  if w₁.stream.downloadStaleOrdersCounter = 0 then commit .staleOrders call now w₁ else (w₁, [])

/-- `get_order_ack` -/
def getOrderAck (kind : Kind) (clientOrderId : String) (r : RestResponse Json.Order)
    (now : Nanos) : Act R :=
  andThen
    (processResponse settings kind r
      (fun _ _ error text w =>
        (w, [.orderUpdate (rejectedOrder w.stream.account clientOrderId error text)]))
      fun item w => (w, [.orderUpdate (orderSnapshot settings kind w.stream.account item)]))
    (orderAnswered (.order clientOrderId) now)

/-- `get_order`, of the order that goes by the key -/
def getOrder (d : Dispatcher) (key : UserId × OrderId) : Act R := fun w =>
  match d.findOrderById key.1 key.2 with
  | none => (w, [])
  | some order => send (.order order.clientOrderId)
      { w with stream.downloadStaleOrdersCounter := w.stream.downloadStaleOrdersCounter + 1 }

/-- The callback of `stale_orders`. -/
def getStaleOrders (d : Dispatcher) : Act R := fun w =>
  seq (seqAll (w.request.detailsStaleOrders.map (getOrder d)))
    (modify fun w => { w with request.detailsStaleOrders := [] }) w

/-! ### Trades -/

/-- What a downloaded trade is published as. -/
def tradeSnapshot (kind : Kind) (account : String) (d : Dispatcher) (item : Json.Trade) :
    TradeUpdate where
  account := account
  orderId := orderIdNone
  exchange := settings.exchange
  symbol := item.symbol
  side := item.side.map
  marginMode := marginMode kind
  createTimeUtc := item.time
  updateTimeUtc := item.time
  externalOrderId := createExternalOrderId item.symbol item.orderId
  clientOrderId := ""
  fills := [{
    exchangeTimeUtc := item.time, externalTradeId := toString item.id, quantity := item.qty,
    price := item.price, liquidity := if item.maker then .maker else .taker,
    commissionAmount := item.commission, commissionCurrency := item.commissionAsset,
    profitLossAmount := d.computeProfitLossAmount item.side.map item.qty item.price
      (d.getRefData settings.exchange item.symbol).multiplier }]
  updateType := .snapshot
  sendingTimeUtc := 0
  strategyId := strategyIdNone
  userId := sourceNone

/-- `get_trades`; `RestTrade` returns before it asks for anything. -/
def getTrades : Kind → Act R
  | .restTrade => modify fun w => { w with stream.downloadTradesIsFirst := false }
  | _ => seqAll (settings.download.symbols.map fun symbol => send (.userTrades symbol))

/-- The slot that `get_trades_ack` commits. -/
def tradesSlot : Kind → Slot
  | .restTrade => .openOrders
  | _ => .trades

/-- `get_trades_ack` -/
def getTradesAck (kind : Kind) (symbol : String) (r : RestResponse (List Json.Trade))
    (now : Nanos) (d : Dispatcher) : Act R :=
  andThen
    (processResponse settings kind r logError fun items w =>
      ({ w with stream.downloadTradesIsFirst :=
          if kind = .restTrade then w.stream.downloadTradesIsFirst else false },
        items.map fun item => .tradeUpdate (tradeSnapshot settings kind w.stream.account d item)))
    (commit (tradesSlot kind) (.userTrades symbol) now)

/-! ### Orders -/

/-- What the answer to an order request is published as. -/
def orderAckUpdate (account : String) (kind : Kind) (ack : Json.Order) : OrderUpdate where
  account := account
  exchange := settings.exchange
  symbol := ack.symbol
  side := ack.side.map
  marginMode := marginMode kind
  orderType := ack.type.map
  timeInForce := ack.timeInForce.map
  updateTimeUtc := ack.updateTime
  externalOrderId := createExternalOrderId ack.symbol ack.orderId
  clientOrderId := ""
  orderStatus := ack.status.map
  quantity := ack.origQty
  price := ack.price
  stopPrice := ack.stopPrice
  tradedQuantity := ack.executedQty
  averageTradedPrice := ack.avgPrice
  updateType := .incremental

/-- The request that an answer is about. -/
structure Target where
  requestType : RequestType
  userId : UserId
  orderId : OrderId
  version : Version

/-- The error handler of the order requests. -/
def orderError (t : Target) : OnError R := fun origin status error text w =>
  (w, [.response {
    requestType := t.requestType, origin, requestStatus := status, error, text,
    version := t.version, userId := t.userId, orderId := t.orderId }])

/-- The response to a successful order request, with an order update unless it is dropped. -/
def orderAck (kind : Kind) (t : Target) (status : RequestStatus) (ack : Json.Order) : Act R := fun w =>
  let response : Response := {
    requestType := t.requestType, origin := .exchange, requestStatus := status,
    version := t.version, externalOrderId := createExternalOrderId ack.symbol ack.orderId,
    quantity := ack.origQty, price := ack.price, userId := t.userId, orderId := t.orderId }
  if status ≠ .accepted ∨ settings.rest.dropOrderUpdate then (w, [.response response])
  else (w, [.response response, .orderUpdate (orderAckUpdate settings w.stream.account kind ack)])

/-- `order_place_ack` -/
def orderPlaceAck (kind : Kind) (t : Target) (r : RestResponse Json.Order) : Act R :=
  andThen (processResponse settings kind r (orderError t) (orderAck settings kind t .accepted)) skip

def tooLate (onError : OnError R) : Act R :=
  onError .exchange .rejected .tooLateToModifyOrCancel "TOO_LATE_TO_MODIFY_OR_CANCEL"

/-- `order_modify_ack` -/
def orderModifyAck (kind : Kind) (t : Target) (r : RestResponse Json.Order) : Act R :=
  andThen
    (processResponse settings kind r (orderError t) fun ack =>
      match ack.status with
      | .undefinedInternal | .unknownInternal | .new | .partiallyFilled =>
        if settings.experimental.disableFastOrderAck then skip  -- note!
        else orderAck settings kind t ack.status.mapRequestStatus ack
      | .filled | .canceled | .expired | .newInsurance | .newAdl | .expiredInMatch =>
        tooLate (orderError t))
    skip

/-- `order_cancel_ack` -/
def orderCancelAck (kind : Kind) (t : Target) (r : RestResponse Json.Order) : Act R :=
  andThen
    (processResponse settings kind r (orderError t) fun ack =>
      if ack.status = .filled then tooLate (orderError t)
      else if settings.experimental.disableFastOrderAck then skip  -- note!
      else orderAck settings kind t .accepted ack)
    skip

/-- What a modify or a cancel does with what the encoder makes of it. -/
def sendEncoded (body : Except Exn String) (call : String → Call) : Act R :=
  match body with
  | .ok body => send (call body)
  | .error e => emit [.throws e]

/-- `order_place` -/
def orderPlace (m : CreateOrder) (userId : UserId) (body : Except Exn String) : Act R := fun w =>
  if isReady w then
    let w₁ := { w with stream.openOrdersSymbols := emplace w.stream.openOrdersSymbols m.symbol }
    match body with
    | .ok body => send (.orderPlace m.symbol body userId m.orderId 1) w₁
    | .error e => (w₁, [.refused m.symbol e])
  else (w, [.throws (.notReady "not ready")])

/-- `order_modify` -/
def orderModify (m : ModifyOrder) (userId : UserId) (body : Except Exn String) : Act R := fun w =>
  if isReady w then sendEncoded body (fun body => .orderModify body userId m.orderId m.version) w
  else (w, [.throws (.notReady "not ready")])

/-- `order_cancel` -/
def orderCancel (m : CancelOrder) (userId : UserId) (body : Except Exn String) : Act R := fun w =>
  if isReady w then sendEncoded body (fun body => .orderCancel body userId m.orderId m.version) w
  else (w, [.throws (.notReady "not ready")])

/-! ### Cancel all -/

/-- `open_orders_cancel_all`, for one symbol of the set. -/
def cancelSymbol (m : CancelAllOrders) (requestId symbol : String) : Act R := fun w =>
  if m.selects symbol then
    seq (send (.allOpenOrders symbol requestId))
      (emit [.cancelAllOrdersAck {
        account := w.stream.account, exchange := m.exchange, symbol := m.symbol, side := m.side,
        origin := .gateway, requestStatus := .forwarded, requestId }]) w
  else (w, [])

/-- `open_orders_cancel_all` -/
def openOrdersCancelAll (m : CancelAllOrders) (requestId : String) : Act R := fun w =>
  seqAll (w.stream.openOrdersSymbols.map (cancelSymbol m requestId)) w

/-- `open_orders_cancel_all_ack` -/
def openOrdersCancelAllAck (kind : Kind) (requestId : String) (r : RestResponse Json.CodeMsg) :
    Act R :=
  andThen
    (processResponse settings kind r logError fun ack w =>
      (w, [.cancelAllOrdersAck {
        account := w.stream.account, origin := .exchange,
        requestStatus := if ack.code = 200 then .accepted else .rejected,
        error := Json.guessError ack.code, text := ack.msg, requestId }]))
    skip

/-- `OrderEntryClassic::countdown_cancel_all` -/
def countdownCancelAll : Act R := fun w =>
  seqAll (w.stream.openOrdersSymbols.map fun symbol => send (.countdownCancelAll symbol)) w

/-! ### `check_request_queue` -/

/-- The callback of a slot. -/
def serve (kind : Kind) (d : Dispatcher) : Slot → Act R
  | .balances => send (.accountBalance false)
  | .positions => send .accountStatus
  | .positionsPm => send .position
  | .openOrders => send .openOrders
  | .staleOrders => getStaleOrders d
  | .trades => getTrades settings kind

/-- The numbers of the calls that were made on the way from one ledger to another. -/
def issued (before after : Ledger Call) : List ℕ :=
  List.range' before.next (after.next - before.next)

/-- `check_pending` of a slot. -/
def checkPending (kind : Kind) (now : Nanos) (gate : Slot → Bool) (d : Dispatcher) (c : Slot) :
    Act R := fun w =>
  let w₁ := { w with request := w.request.checkPending c now (gate c) }
  if w.request.served c now (gate c) then
    let served := serve settings kind d c w₁
    (served.1, served.2 ++ [.callback c (issued w₁.stream.calls served.1.stream.calls)])
  else (w₁, [])

/-- `check_request_queue` -/
def checkRequestQueue (kind : Kind) (now : Nanos) (gate : Slot → Bool) (d : Dispatcher) : Act R :=
  seqAll (kind.slots.map (checkPending settings kind now gate d))

/-! ### Events -/

/-- The test before `countdown_cancel_all`. -/
def autoCancel (now : Nanos) : Act R := fun w =>
  if settings.rest.cancelOnDisconnect ∧ settings.rest.orderCountdown ≠ 0 ∧
      w.stream.nextAutoCancel < now then
    countdownCancelAll { w with stream.nextAutoCancel := now + settings.rest.orderCountdown / 4 }
  else (w, [])

/-- `operator()(Event<Timer>)` of a connection that refreshes and is ready. -/
def timer (now : Nanos) (gate : Slot → Bool) (d : Dispatcher) : Kind → Act R
  | .orderEntryClassic =>
    seqAll [refreshListenKey settings now, autoCancel settings now,
      checkRequestQueue settings .orderEntryClassic now gate d]
  | .orderEntryPortfolio =>
    seqAll [refreshListenKey settings now, refreshBalance settings now,
      checkRequestQueue settings .orderEntryPortfolio now gate d]
  | .restTrade => checkRequestQueue settings .restTrade now gate d

/-- `operator()(Connected)` -/
def connected (visits : List State) : Kind → Act R
  | .restTrade => setStatus .ready ""
  | _ => seq (emit [.downloadBegin]) (visit visits)

/-- `operator()(Disconnected)` -/
def disconnected : Kind → Act R
  | .restTrade => setStatus .disconnected ""
  | _ => seq (setStatus .disconnected "") (emit [.downloadReset])

/-- The callback of a call. -/
def acknowledge (kind : Kind) (env : Answers) (d : Dispatcher) :
    (call : Call) → RestResponse call.Ack → Act R
  | .listenKey, r => getListenKeyAck settings kind r env
  | .accountBalance polling, r =>
    andThen (processResponse settings kind r logError fun _ => skip)
      (if polling then skip else commit .balances (.accountBalance polling) env.now)
  | .accountStatus, r =>
    andThen (processResponse settings kind r logError fun _ => skip)
      (commit .positions .accountStatus env.now)
  | .position, r =>
    andThen (processResponse settings kind r logError fun _ => skip)
      (commit .positionsPm .position env.now)
  | .openOrders, r =>
    andThen (processResponse settings kind r logError (openOrdersAck settings))
      (commit .openOrders .openOrders env.now)
  | .order clientOrderId, r => getOrderAck settings kind clientOrderId r env.now
  | .userTrades symbol, r => getTradesAck settings kind symbol r env.now d
  | .orderPlace _ _ userId orderId version, r =>
    orderPlaceAck settings kind ⟨.createOrder, userId, orderId, version⟩ r
  | .orderModify _ userId orderId version, r =>
    orderModifyAck settings kind ⟨.modifyOrder, userId, orderId, version⟩ r
  | .orderCancel _ userId orderId version, r =>
    orderCancelAck settings kind ⟨.cancelOrder, userId, orderId, version⟩ r
  | .allOpenOrders _ requestId, r => openOrdersCancelAllAck settings kind requestId r
  | .countdownCancelAll _, r => andThen (processResponse settings kind r logError fun _ => skip) skip

/-- An answer to an outstanding request; there are no others. -/
def answer (n : ℕ) (call : Call) (r : RestResponse call.Ack) (env : Answers) (d : Dispatcher) :
    Act R := fun w =>
  if (n, call) ∈ w.stream.calls.entries then
    acknowledge settings w.stream.kind env d call r
      { w with stream.calls := w.stream.calls.settle n }
  else (w, [])

/-- `RestTrade` answers the order requests itself. -/
def orderAction (f : Act R) : Act R := fun w =>
  if w.stream.kind = .restTrade then (w, [.throws (.notSupported "not supported")]) else f w

def step : Event → Act R
  | .start => emit [.connectionStart]
  | .stop => emit [.connectionStop]
  | .timer now refresh gate d => guarded (fun w => refresh && isReady w) fun w =>
    timer settings now gate d w.stream.kind w
  | .connected visits => fun w => connected visits w.stream.kind w
  | .disconnected => fun w => disconnected w.stream.kind w
  | .latency => skip
  | .answer n call r env d => answer settings n call r env d
  | .createOrder m userId body => orderAction (orderPlace m userId body)
  | .modifyOrder m userId body => orderAction (orderModify m userId body)
  | .cancelOrder m userId body => orderAction (orderCancel m userId body)
  | .cancelAllOrders m requestId => openOrdersCancelAll m requestId
  | .forceListenKeyRefresh now => forceListenKeyRefresh now

/-- The listen key that an event acknowledges: a successful answer to an outstanding request. -/
def acknowledged (stream : RestStream) : Event → Option String
  | .answer n .listenKey (.success (.ok listenKey)) _ _ =>
    if (n, .listenKey) ∈ stream.calls.entries then some listenKey else none
  | _ => none

/-- A stream as the controller creates it. -/
def create (kind : Kind) (account : String) (request : Request R) : World R :=
  { stream := { kind, account }, request }

/-! ### Rules -/

/-- What becomes of a response keeps an invariant that both handlers keep. -/
theorem keeps_processResponse {I : List Output → World R → Prop} {α : Type} {kind : Kind}
    {r : RestResponse α} {onError : OnError R} {onSuccess : α → Act R}
    (hsuspend : ∀ t, Keeps I (emit [.suspendFor t]))
    (herror : ∀ origin status error text, Keeps I (onError origin status error text))
    (hsuccess : ∀ body, Keeps I (onSuccess body)) {f : Act R}
    (hf : processResponse settings kind r onError onSuccess = some f) : Keeps I f := by
  have hcaught : ∀ e, Keeps I (caught kind onError e) := by
    intro e
    unfold caught
    split
    · split <;> exact herror _ _ _ _
    · exact herror _ _ _ _
    · exact herror _ _ _ _
  have hlimit : ∀ text retryAfter, Keeps I
      (seq (emit (if retryAfter ≠ 0 then [.suspendFor retryAfter] else []))
        (onError .exchange .rejected .requestRateLimitReached text)) := by
    intro text retryAfter
    refine triple_seq ?_ (herror _ _ _ _)
    split
    · exact hsuspend _
    · exact keeps_skip I
  cases r with
  | unexpected e => cases hf; exact hcaught e
  | success body =>
    cases body with
    | ok body => cases hf; exact hsuccess body
    | error e => cases hf; exact hcaught e
  | redirection => cases hf
  | clientError status text retryAfter body =>
    simp only [processResponse] at hf
    split at hf
    · split at hf
      · cases hf
      · cases hf; exact triple_seq (hsuspend _) (hlimit text retryAfter)
    · split at hf
      · cases hf; exact hlimit text retryAfter
      · cases body with
        | ok error => cases hf; exact herror _ _ _ _
        | error e => cases hf; exact hcaught e
  | serverError text => cases hf; exact herror _ _ _ _
  | raised e => cases hf; exact hcaught e

/-- From `I` the action leads to `J`, unless the process ends. -/
def Survives (I : List Output → World R → Prop) (f : Act R) (J : List Output → World R → Prop) :
    Prop :=
  ∀ out w, I out w → Output.fatal ∈ (f w).2 ∨ J (out ++ (f w).2) (f w).1

/-- Where the process does not end, the caller of `process_response` goes on. -/
theorem survives_andThen {I J : List Output → World R → Prop} {reply : Option (Act R)}
    {after : Act R} (hreply : ∀ f, reply = some f → Keeps I f) (hafter : Triple I after J) :
    Survives I (andThen reply after) J := by
  intro out w hI
  cases reply with
  | none => exact Or.inl (List.mem_singleton_self _)
  | some f => exact Or.inr (triple_seq (hreply f rfl) hafter out w hI)

end

end RestStream
end BinanceFutures
