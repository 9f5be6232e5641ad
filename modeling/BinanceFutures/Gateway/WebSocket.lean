import BinanceFutures.Gateway.Request
import BinanceFutures.Gateway.Settings
import BinanceFutures.Protocol.WsapiParser
import BinanceFutures.Schemes.Ledger
import BinanceFutures.Schemes.Machine

/-! # WebSocket API

    `WebSocket` is the order-entry stream of an account over the WebSocket API. It sends requests on one
    socket, and the exchange answers them on the same socket in any order, echoing their ids; the stream
    keeps no table of what it has sent.

        client ── create, modify, cancel ─▶ order.place, order.modify, order.cancel
        timer  ── user_data_stream_ping, check_request_queue ─▶ userDataStream.ping, account.…
        text   ── WSAPIParser ─▶ the handler of the request that the id stands for

    `calls` is what the exchange holds: the requests sent in this session that it has not answered. -/

namespace BinanceFutures
open Machine

namespace WebSocket

/-- A request to the exchange. -/
inductive Call where
  | sessionLogon
  | userDataStreamStart
  | userDataStreamPing
  | accountBalance
  | accountStatus
  | accountPosition
  | orderPlace (symbol : String) (userId : UserId) (orderId : OrderId) (version : Version)
  | orderModify (userId : UserId) (orderId : OrderId) (version : Version)
  | orderCancel (userId : UserId) (orderId : OrderId) (version : Version)
  deriving DecidableEq

/-- The `WSAPIRequest` of a request, but for its sequence number. -/
def Call.request : Call → Json.WSAPIRequest
  | .sessionLogon => { type := .sessionLogon }
  | .userDataStreamStart => { type := .userDataStreamStart }
  | .userDataStreamPing => { type := .userDataStreamPing }
  | .accountBalance => { type := .accountBalance }
  | .accountStatus => { type := .accountStatus }
  | .accountPosition => { type := .accountPosition }
  | .orderPlace _ userId orderId version => { type := .orderPlace, userId, orderId, version }
  | .orderModify userId orderId version => { type := .orderModify, userId, orderId, version }
  | .orderCancel userId orderId version => { type := .orderCancel, userId, orderId, version }

/-- A request as it went out, under its id. -/
structure Sent where
  call : Call
  id : Json.Id
  deriving DecidableEq

/-- `State` of the download. -/
inductive State where | undefined | sessionLogon | userDataStreamStart | accountPosition | done
  deriving DecidableEq

end WebSocket

/-- The members of a `WebSocket`. -/
structure WebSocket where
  account : String
  connectionStatus : ConnectionStatus := .undefined
  requestId : UInt32
  listenKey : String := ""
  listenKeyRefresh : Nanos := 0
  /-- A set. -/
  openOrdersSymbols : List String := []
  calls : Ledger WebSocket.Sent := .empty

namespace WebSocket

/-- A stream and the account's slots, which it shares with the drop copy. -/
structure World (R : LimitRequest) where
  socket : WebSocket
  request : Request R

inductive Output where
  | fatal
  | throws (e : Exn)
  | connectionStart | connectionStop
  | streamStatus (status : ConnectionStatus) (reason : String)
  | downloadBegin | downloadReset
  | downloadRetry (state : State)
  | downloadCheckRelaxed (state : State)
  /-- A request goes out, under its number. -/
  | sendText (n : ℕ) (call : Call)
  /-- The exchange has answered a request. -/
  | answered (n : ℕ) (reply : Json.Reply)
  /-- The session is over; nothing sent in it will be answered. -/
  | sessionEnd
  | commit (c : Slot)
  | listenKeyAck (listenKey : String)
  | listenKeyUpdate (listenKey : String)
  | orderUpdate (m : OrderUpdate)
  | response (m : Response)
  /-- `force_listen_key_refresh` finds nothing to force. -/
  | noListenKeyRefresh
  deriving DecidableEq

/-- What the environment answers while a message is handled. -/
structure Answers where
  now : Nanos
  nowUtc : Nanos
  /-- `download_.downloading()` -/
  downloading : Bool
  /-- The states for which the download runs its callback. -/
  visits : List State
  /-- `shared_.allow_unknown_event_types` -/
  allowUnknownEventTypes : Bool

inductive Event where
  | start
  | stop
  | timer (now : Nanos) (refresh : Bool) (gate : Slot → Bool)
  | connected
  | disconnected
  | ready (visits : List State)
  | close
  | latency
  /-- The exchange answers a request. -/
  | answer (n : ℕ) (reply : Json.Reply) (arrangement : Json.Arrangement) (env : Answers)
      (d : Dispatcher)
  | binary
  /-- The last argument of the order requests is what the encoder makes of them. -/
  | createOrder (m : CreateOrder) (userId : UserId) (body : Except Exn String)
  | modifyOrder (m : ModifyOrder) (userId : UserId) (body : Except Exn String)
  | cancelOrder (m : CancelOrder) (userId : UserId) (body : Except Exn String)
  | cancelAllOrders (m : CancelAllOrders)
  | forceListenKeyRefresh (now : Nanos)

/-- note! this is arbitrary and only to avoid spamming -/
def defaultListenKeyRefreshDelay : Nanos := seconds 10

/-- `REQUEST_ID` -/
def requestIdBase : UInt32 := 1000000

section
variable {R : LimitRequest} (scanner : Json.Scanner) (settings : Settings)

/-- An action of a stream. -/
abbrev Act (R : LimitRequest) := Action (World R) Output

def setStatus (status : ConnectionStatus) (reason : String) : Act R := fun w =>
  ({ w with socket.connectionStatus := status }, [.streamStatus status reason])

def isReady (w : World R) : Bool := w.socket.connectionStatus = .ready

/-- `++request_id_`, `WSAPIRequest::encode` and `send_text`. -/
def send (call : Call) : Act R := fun w =>
  let sequence := w.socket.requestId + 1
  let id := Json.WSAPIRequest.encode scanner.toCodec { call.request with sequence }
  ({ w with
      socket.requestId := sequence
      socket.calls := w.socket.calls.enter ⟨call, id⟩ },
    [.sendText w.socket.calls.next call])

def commit (c : Slot) (now : Nanos) : Act R := fun w =>
  ({ w with request := w.request.commit c now }, [.commit c])

/-! ### Download -/

/-- `download` -/
def download : State → Act R
  | .undefined => skip
  | .sessionLogon =>
    seqAll [setStatus .downloading "session-logon", send scanner .sessionLogon,
      setStatus .loginSent ""]
  | .userDataStreamStart =>
    seq (setStatus .downloading "user-data-stream-start") (send scanner .userDataStreamStart)
  | .accountPosition =>
    seq (setStatus .downloading "account-position") (send scanner .accountPosition)
  | .done => setStatus .ready ""

/-- The callbacks of one call of the download. -/
def visit (visits : List State) : Act R := seqAll (visits.map (download scanner))

/-- What an error does to a download that waits in the state. -/
def retry (state : State) (env : Answers) : Act R :=
  if env.downloading then seq (emit [.downloadRetry state]) (visit scanner env.visits) else skip

/-! ### `WSAPIParser::Handler` -/

/-- `operator()(WSAPISessionLogon)` -/
def wsapiSessionLogon (m : Json.WSAPIMessage) (env : Answers) : Act R :=
  if m.status = ok then
    seq (emit [.downloadCheckRelaxed .sessionLogon]) (visit scanner env.visits)
  else retry scanner .sessionLogon env

/-- `operator()(WSAPIListenKey)` -/
def wsapiListenKey (m : Json.WSAPIMessage) (env : Answers) : Act R :=
  if m.status = ok then
    seqAll [
      fun w => ({ w with socket.listenKey := m.result.listenKey },
        [.listenKeyAck m.result.listenKey, .listenKeyUpdate m.result.listenKey]),
      emit [.downloadCheckRelaxed .userDataStreamStart],
      visit scanner env.visits,
      modify fun w =>
        { w with socket.listenKeyRefresh := env.now + settings.rest.listenKeyRefresh }]
  else retry scanner .userDataStreamStart env

/-- `operator()(WSAPIAccountBalance)` and `operator()(WSAPIAccountStatus)`: whatever the answer, the
    slot is committed. -/
def wsapiAccount (c : Slot) (env : Answers) : Act R := commit c env.now

/-- `operator()(WSAPIOpenOrdersCancelAll)` -/
def wsapiOpenOrdersCancelAll (m : Json.WSAPIMessage) : Act R := fun w =>
  let update (item : Json.Order) : Output := .orderUpdate {
    account := w.socket.account, exchange := settings.exchange, symbol := item.symbol,
    side := item.side.map, orderType := item.type.map, timeInForce := item.timeInForce.map,
    createTimeUtc := item.time, updateTimeUtc := item.updateTime,
    externalOrderId := createExternalOrderId item.symbol item.orderId,
    clientOrderId := item.clientOrderId, orderStatus := item.status.map, quantity := item.origQty,
    price := item.price, stopPrice := item.stopPrice, tradedQuantity := item.executedQty,
    averageTradedPrice := some 0, lastTradedQuantity := some 0, lastTradedPrice := some 0,
    updateType := .incremental }
  if m.status = ok then
    (w, (m.result.orders.filter fun item => item.clientOrderId ≠ "").map update)
  else (w, [])

/-- The error handler of the order requests. -/
def orderError (requestType : RequestType) (request : Json.WSAPIRequest) (status : RequestStatus)
    (error : Error) (text : String) : Act R :=
  emit [.response {
    requestType, origin := .exchange, requestStatus := status, error, text,
    version := request.version, userId := request.userId, orderId := request.orderId }]

/-- The response to a successful order request. -/
def orderResponse (requestType : RequestType) (request : Json.WSAPIRequest) (status : RequestStatus)
    (result : Json.Order) : Response where
  requestType := requestType
  origin := .exchange
  requestStatus := status
  version := request.version
  externalOrderId := createExternalOrderId result.symbol result.orderId
  userId := request.userId
  orderId := request.orderId

/-- The update that goes with the response to a modify or a cancel. -/
def orderAckUpdate (account : String) (result : Json.Order) : OrderUpdate where
  account := account
  exchange := settings.exchange
  symbol := result.symbol
  side := result.side.map
  orderType := result.type.map
  timeInForce := result.timeInForce.map
  externalOrderId := createExternalOrderId result.symbol result.orderId
  clientOrderId := ""
  orderStatus := result.status.map
  quantity := result.origQty
  price := result.price
  stopPrice := nan
  tradedQuantity := result.executedQty
  updateType := .incremental

/-- The update that goes with the response to a placed order. -/
def orderPlaceUpdate (account : String) (nowUtc : Nanos) (result : Json.Order) : OrderUpdate :=
  { orderAckUpdate settings account result with
    createTimeUtc := nowUtc  -- note! we need this to check the -2011 cancel error
    orderStatus := if result.status.map = .undefined then .working else result.status.map
    remainingQuantity := Double.sub result.origQty result.executedQty
    lastTradedQuantity := some 0 }

/-- `operator()(WSAPIOrderPlace)` -/
def wsapiOrderPlace (m : Json.WSAPIMessage) (request : Json.WSAPIRequest) (env : Answers) : Act R :=
  fun w =>
    if m.status = ok then
      (w, [.response (orderResponse .createOrder request .accepted m.result.order),
        .orderUpdate (orderPlaceUpdate settings w.socket.account env.nowUtc m.result.order)])
    else
      orderError .createOrder request .rejected (Json.guessError m.error.code) m.error.msg w

/-- The response to a modify or a cancel, with an order update if that is allowed. -/
def orderAck (requestType : RequestType) (request : Json.WSAPIRequest) (status : RequestStatus)
    (result : Json.Order) : Act R := fun w =>
  (w, .response (orderResponse requestType request status result) ::
    if settings.wsApi2.allowOrderUpdate then [.orderUpdate (orderAckUpdate settings w.socket.account result)]
    else [])

/-- The test of `operator()(WSAPIOrderModify)`, which compares the HTTP status with numbers of
    `OrderStatus`. -/
def working (status : ℤ) : Bool :=
  status ≠ scanner.statusCode .canceled && status ≠ scanner.statusCode .expired

/-- `operator()(WSAPIOrderModify)` -/
def wsapiOrderModify (m : Json.WSAPIMessage) (request : Json.WSAPIRequest) : Act R :=
  let requestStatus := m.result.order.status.mapRequestStatus
  if !working scanner m.status then  -- special case probably triggered by stp=expire-maker (#586)
    orderError .modifyOrder request .rejected .tooLateToModifyOrCancel m.error.msg
  else if m.status = ok then
    if requestStatus ≠ .accepted then
      orderError .modifyOrder request requestStatus .tooLateToModifyOrCancel
        "TOO_LATE_TO_MODIFY_OR_CANCEL"
    else if settings.experimental.disableFastOrderAck then skip  -- note!
    else orderAck settings .modifyOrder request requestStatus m.result.order
  else orderError .modifyOrder request .rejected (Json.guessError m.error.code) m.error.msg

/-- The error of a rejected cancel. There is an exchange bug where the exchange claims to not know the
    order if the cancel request was sent a few msec after the order was confirmed. -/
def cancelError (code : ℤ) (request : Json.WSAPIRequest) (nowUtc : Nanos) (d : Dispatcher) : Error :=
  let young (order : Order) : Bool :=
    order.createTimeUtc ≠ 0 && order.createTimeUtc < nowUtc &&
      nowUtc - order.createTimeUtc < settings.misc.testCancelBugTimeout
  if code = -2011 ∧ (d.findOrderById request.userId request.orderId).any young then
    .unknownExternalOrderId
  else Json.guessError code

/-- `operator()(WSAPIOrderCancel)` -/
def wsapiOrderCancel (m : Json.WSAPIMessage) (request : Json.WSAPIRequest) (env : Answers)
    (d : Dispatcher) : Act R :=
  if m.status = ok then
    if m.result.order.status = .filled then
      orderError .cancelOrder request .rejected .tooLateToModifyOrCancel
        "TOO_LATE_TO_MODIFY_OR_CANCEL"
    else if settings.experimental.disableFastOrderAck then skip  -- note!
    else orderAck settings .cancelOrder request .accepted m.result.order
  else
    orderError .cancelOrder request .rejected
      (cancelError settings m.error.code request env.nowUtc d) m.error.msg

/-- The handler of a request. -/
def handle (m : Json.WSAPIMessage) (request : Json.WSAPIRequest) (env : Answers) (d : Dispatcher) :
    Act R :=
  match request.type with
  | .undefinedInternal | .unknownInternal => skip
  | .sessionLogon => wsapiSessionLogon scanner m env
  | .userDataStreamStart | .userDataStreamPing => wsapiListenKey scanner settings m env
  | .accountBalance => wsapiAccount .balances env
  | .accountStatus => wsapiAccount .positions env
  | .accountPosition => skip
  | .ordersStatus | .myTrades => emit [.fatal]
  | .openOrdersCancelAll => wsapiOpenOrdersCancelAll settings m
  | .orderPlace => wsapiOrderPlace settings m request env
  | .orderModify => wsapiOrderModify scanner settings m request
  | .orderCancel => wsapiOrderCancel settings m request env d

/-- `operator()(Text)` -/
def text (fields : List Json.Field) (env : Answers) (d : Dispatcher) : Act R :=
  match Json.WSAPIParser.dispatch scanner env.allowUnknownEventTypes fields with
  | none => emit [.fatal]
  | some requests =>
    seqAll (requests.map fun request => handle scanner settings (Json.parse fields) request env d)

/-- The exchange answers an outstanding request; it answers no other. -/
def answer (n : ℕ) (reply : Json.Reply) (arrangement : Json.Arrangement) (env : Answers)
    (d : Dispatcher) : Act R := fun w =>
  match w.socket.calls.find n with
  | none => (w, [])
  | some sent =>
    seqAll [
      modify fun w => { w with socket.calls := w.socket.calls.settle n },
      emit [.answered n reply],
      text scanner settings (reply.message sent.id arrangement) env d] w

/-! ### Orders -/

/-- What an order request does with what the encoder makes of it; the sequence number is spent in any
    case. -/
def sendEncoded (body : Except Exn String) (call : Call) : Act R :=
  match body with
  | .ok _ => send scanner call
  | .error e => fun w => ({ w with socket.requestId := w.socket.requestId + 1 }, [.throws e])

/-- `order_place` -/
def orderPlace (m : CreateOrder) (userId : UserId) (body : Except Exn String) : Act R := fun w =>
  if isReady w then
    sendEncoded scanner body (.orderPlace m.symbol userId m.orderId 1)
      { w with socket.openOrdersSymbols := emplace w.socket.openOrdersSymbols m.symbol }
  else (w, [.throws (.notReady "not ready")])

/-- `order_modify` -/
def orderModify (m : ModifyOrder) (userId : UserId) (body : Except Exn String) : Act R := fun w =>
  if isReady w then sendEncoded scanner body (.orderModify userId m.orderId m.version) w
  else (w, [.throws (.notReady "not ready")])

/-- `order_cancel` -/
def orderCancel (m : CancelOrder) (userId : UserId) (body : Except Exn String) : Act R := fun w =>
  if isReady w then sendEncoded scanner body (.orderCancel userId m.orderId m.version) w
  else (w, [.throws (.notReady "not ready")])

/-! ### Timer -/

/-- `user_data_stream_ping` -/
def userDataStreamPing (now : Nanos) : Act R := fun w =>
  if !isReady w then (w, [])
  else if w.socket.listenKey = "" then (w, [])
  else if w.socket.listenKeyRefresh = 0 ∨ now < w.socket.listenKeyRefresh then (w, [])
  else send scanner .userDataStreamPing
    { w with socket.listenKeyRefresh := now + settings.rest.listenKeyRefresh }

/-- `force_listen_key_refresh` -/
def forceListenKeyRefresh (now : Nanos) : Act R := fun w =>
  if w.socket.listenKeyRefresh ≠ 0 then
    ({ w with socket.listenKeyRefresh := now + defaultListenKeyRefreshDelay }, [])
  else (w, [.noListenKeyRefresh])

/-- `check_pending` of a slot, with the request that its callback sends. -/
def checkPending (c : Slot) (call : Call) (now : Nanos) (gate : Slot → Bool) : Act R := fun w =>
  let w₁ := { w with request := w.request.checkPending c now (gate c) }
  if w.request.served c now (gate c) then send scanner call w₁ else (w₁, [])

/-- `check_request_queue` -/
def checkRequestQueue (now : Nanos) (gate : Slot → Bool) : Act R :=
  seq (checkPending scanner .balances .accountBalance now gate)
    (checkPending scanner .positions .accountStatus now gate)

/-- `operator()(Timer)` -/
def timer (now : Nanos) (gate : Slot → Bool) : Act R :=
  seq (userDataStreamPing scanner settings now)
    (guarded isReady (checkRequestQueue scanner now gate))

/-! ### Events -/

/-- `operator()(Disconnected)`; the exchange forgets what it was sent. -/
def disconnected : Act R :=
  seqAll [
    setStatus .disconnected "",
    emit [.downloadReset],
    fun w => ({ w with socket.calls := w.socket.calls.clear }, [.sessionEnd])]

def step : Event → Act R
  | .start => emit [.connectionStart]
  | .stop => emit [.connectionStop]
  | .timer now refresh gate => guarded (fun _ => refresh) (timer scanner settings now gate)
  | .connected => skip
  | .disconnected => disconnected
  | .ready visits => seq (emit [.downloadBegin]) (visit scanner visits)
  | .close => skip
  | .latency => skip
  | .answer n reply arrangement env d => answer scanner settings n reply arrangement env d
  | .binary => emit [.fatal]
  | .createOrder m userId body => orderPlace scanner m userId body
  | .modifyOrder m userId body => orderModify scanner m userId body
  | .cancelOrder m userId body => orderCancel scanner m userId body
  | .cancelAllOrders _ => emit [.fatal]
  | .forceListenKeyRefresh now => forceListenKeyRefresh now

/-- A stream as the controller creates it. -/
def create (account : String) (streamId : UInt16) (request : Request R) : World R :=
  { socket := { account, requestId := requestIdBase * streamId.toUInt32 }, request }

/-- The stream's process ends where it logs a fatal error. -/
def kills (o : Output) : Bool := o = .fatal

/-! ### Rules -/

/-- No order request, and nothing about a listen key. -/
def Output.ordinary : Output → Bool
  | .sendText _ (.orderPlace ..) | .sendText _ (.orderModify ..) | .sendText _ (.orderCancel ..) =>
    false
  | .listenKeyAck _ | .listenKeyUpdate _ => false
  | _ => true

/-- The action puts out nothing else. -/
abbrev Ordinary (f : Act R) : Prop := Silent (fun o => o.ordinary = false) f

theorem ordinary_of {f : Act R} (h : ∀ w, ∀ o ∈ (f w).2, o.ordinary = true) : Ordinary f := by
  intro w o ho hfalse
  rw [h w o ho] at hfalse
  cases hfalse

theorem ordinary_emit {o : Output} (h : o.ordinary = true) : Ordinary (R := R) (emit [o]) :=
  ordinary_of fun _ o' ho => by rwa [List.mem_singleton.mp ho]

/-- Neither an answer, nor a response, nor an order request, nor anything about a listen key. -/
def Output.bare : Output → Bool
  | .answered .. | .response _ => false
  | o => o.ordinary

/-- The action puts out nothing else. -/
abbrev Bare (f : Act R) : Prop := Silent (fun o => o.bare = false) f

theorem Output.ordinary_of_bare {o : Output} (h : o.ordinary = false) : o.bare = false := by
  cases o <;> first | exact h | cases h

theorem Bare.ordinary {f : Act R} (hf : Bare f) : Ordinary f :=
  silent_mono (fun _ => Output.ordinary_of_bare) hf

theorem bare_of {f : Act R} (h : ∀ w, ∀ o ∈ (f w).2, o.bare = true) : Bare f := by
  intro w o ho hfalse
  rw [h w o ho] at hfalse
  cases hfalse

theorem bare_emit {o : Output} (h : o.bare = true) : Bare (R := R) (emit [o]) :=
  bare_of fun _ o' ho => by rwa [List.mem_singleton.mp ho]

theorem bare_setStatus (status : ConnectionStatus) (reason : String) :
    Bare (R := R) (setStatus status reason) :=
  bare_of fun _ _ ho => by rw [List.mem_singleton.mp ho]; rfl

theorem bare_send {call : Call} (h : ∀ n, (Output.sendText n call).bare = true) :
    Bare (R := R) (send scanner call) :=
  bare_of fun _ _ ho => by rw [List.mem_singleton.mp ho]; exact h _

theorem bare_visit (visits : List State) : Bare (R := R) (visit scanner visits) := by
  refine silent_map fun state _ => ?_
  cases state with
  | undefined => exact silent_skip _
  | sessionLogon =>
    exact silent_seq (bare_setStatus _ _) (silent_seq (bare_send scanner fun _ => rfl)
      (silent_seq (bare_setStatus _ _) (silent_skip _)))
  | userDataStreamStart | accountPosition =>
    exact silent_seq (bare_setStatus _ _) (bare_send scanner fun _ => rfl)
  | done => exact bare_setStatus _ _

theorem bare_retry (state : State) (env : Answers) : Bare (R := R) (retry scanner state env) := by
  unfold retry
  split
  · exact silent_seq (bare_emit rfl) (bare_visit scanner _)
  · exact silent_skip _

theorem bare_timer (now : Nanos) (gate : Slot → Bool) :
    Bare (R := R) (timer scanner settings now gate) := by
  have hpending : ∀ c call, (∀ n, (Output.sendText n call).bare = true) →
      Bare (R := R) (checkPending scanner c call now gate) := by
    intro c call hcall w o ho
    unfold checkPending at ho
    dsimp only at ho
    split at ho
    · exact bare_send scanner hcall _ o ho
    · cases ho
  have hping : Bare (R := R) (send scanner .userDataStreamPing) :=
    bare_send scanner fun _ => rfl
  refine silent_seq (fun w o ho => ?_)
    (silent_guarded _ (silent_seq (hpending _ _ fun _ => rfl) (hpending _ _ fun _ => rfl)))
  unfold userDataStreamPing at ho
  split at ho
  · cases ho
  · split at ho
    · cases ho
    · split at ho
      · cases ho
      · exact hping _ o ho

/-- An event that is neither an answer nor an order request. -/
def Event.ordinary : Event → Bool
  | .answer .. | .createOrder .. | .modifyOrder .. | .cancelOrder .. => false
  | _ => true

theorem bare_step {e : Event} (he : e.ordinary = true) :
    Bare (R := R) (step scanner settings e) := by
  cases e with
  | start | stop | binary | cancelAllOrders m => exact bare_emit rfl
  | connected | close | latency => exact silent_skip _
  | disconnected =>
    exact silent_seq (bare_setStatus _ _) (silent_seq (bare_emit rfl)
      (silent_seq (bare_of fun _ _ ho => by rw [List.mem_singleton.mp ho]; rfl) (silent_skip _)))
  | ready visits => exact silent_seq (bare_emit rfl) (bare_visit scanner visits)
  | timer now refresh gate => exact silent_guarded _ (bare_timer scanner settings now gate)
  | forceListenKeyRefresh now =>
    refine bare_of fun w o ho => ?_
    simp only [step, forceListenKeyRefresh] at ho
    split at ho
    · cases ho
    · rw [List.mem_singleton.mp ho]
      rfl
  | answer | createOrder | modifyOrder | cancelOrder => cases he

/-! ### What an answer makes the stream put out -/

/-- Accepted without an error, or not accepted, with one. -/
def Conclusive (m : Response) : Prop :=
  m.requestStatus = .accepted ∧ m.error = .undefined ∨
    m.requestStatus ≠ .accepted ∧ m.error ≠ .undefined

theorem cancelError_ne_undefined (code : ℤ) (request : Json.WSAPIRequest) (nowUtc : Nanos)
    (d : Dispatcher) : cancelError settings code request nowUtc d ≠ .undefined := by
  unfold cancelError
  dsimp only
  split
  · simp
  · exact Json.guessError_ne_undefined code

/-- The handlers of listen keys. -/
theorem silent_wsapiListenKey {p : Output → Prop} (hbare : ∀ o, p o → o.bare = false)
    (hkeys : ∀ listenKey, ¬ p (.listenKeyAck listenKey) ∧ ¬ p (.listenKeyUpdate listenKey))
    (m : Json.WSAPIMessage) (env : Answers) :
    Silent p (wsapiListenKey (R := R) scanner settings m env) := by
  unfold wsapiListenKey
  split
  · refine silent_seq (fun w o ho => ?_) (silent_mono hbare (silent_seq (bare_emit rfl)
      (silent_seq (bare_visit scanner _) (silent_seq (bare_of fun _ _ ho => by cases ho)
        (silent_skip _)))))
    rcases List.mem_cons.mp ho with rfl | ho
    · exact (hkeys _).1
    · rw [List.mem_singleton.mp ho]
      exact (hkeys _).2
  · exact silent_mono hbare (bare_retry scanner _ _)

/-- The handlers of answers: apart from what is bare there are listen keys, and responses that are
    conclusive. -/
theorem silent_handle {p : Output → Prop} (hbare : ∀ o, p o → o.bare = false)
    (hresponse : ∀ m, Conclusive m → ¬ p (.response m)) {request : Json.WSAPIRequest}
    (hkeys : request.type = .userDataStreamStart ∨ request.type = .userDataStreamPing →
      ∀ listenKey, ¬ p (.listenKeyAck listenKey) ∧ ¬ p (.listenKeyUpdate listenKey))
    (m : Json.WSAPIMessage) (env : Answers) (d : Dispatcher) :
    Silent p (handle (R := R) scanner settings m request env d) := by
  have herror : ∀ requestType status error text, status ≠ .accepted → error ≠ .undefined →
      Silent p (orderError (R := R) requestType request status error text) := by
    intro requestType status error text hstatus herror w o ho
    rw [List.mem_singleton.mp ho]
    exact hresponse _ (.inr ⟨hstatus, herror⟩)
  have hack : ∀ requestType result,
      Silent p (orderAck (R := R) settings requestType request .accepted result) := by
    intro requestType result w o ho
    rcases List.mem_cons.mp ho with rfl | hupdate
    · exact hresponse _ (.inl ⟨rfl, rfl⟩)
    · split at hupdate
      · rw [List.mem_singleton.mp hupdate]
        exact fun hp => by cases hbare _ hp
      · cases hupdate
  unfold handle
  cases htype : request.type with
  | undefinedInternal | unknownInternal | accountPosition => exact silent_skip _
  | ordersStatus | myTrades => exact silent_mono hbare (bare_emit rfl)
  | userDataStreamStart =>
    exact silent_wsapiListenKey scanner settings hbare (hkeys (.inl htype)) m env
  | userDataStreamPing =>
    exact silent_wsapiListenKey scanner settings hbare (hkeys (.inr htype)) m env
  | accountBalance | accountStatus =>
    exact silent_mono hbare (bare_of fun w o ho => by rw [List.mem_singleton.mp ho]; rfl)
  | sessionLogon =>
    dsimp only
    unfold wsapiSessionLogon
    split
    · exact silent_mono hbare (silent_seq (bare_emit rfl) (bare_visit scanner _))
    · exact silent_mono hbare (bare_retry scanner _ _)
  | openOrdersCancelAll =>
    refine silent_mono hbare (bare_of fun w o ho => ?_)
    dsimp only [wsapiOpenOrdersCancelAll] at ho
    split at ho
    · obtain ⟨item, _, rfl⟩ := List.mem_map.mp ho
      rfl
    · cases ho
  | orderPlace =>
    intro w
    dsimp only [wsapiOrderPlace]
    split
    · intro o ho
      rcases List.mem_cons.mp ho with rfl | hupdate
      · exact hresponse _ (.inl ⟨rfl, rfl⟩)
      · rw [List.mem_singleton.mp hupdate]
        exact fun hp => by cases hbare _ hp
    · exact herror _ _ _ _ (by simp) (Json.guessError_ne_undefined _) w
  | orderModify =>
    dsimp only
    unfold wsapiOrderModify
    dsimp only
    split
    · exact herror _ _ _ _ (by simp) (by simp)
    · split
      · split
        next hstatus => exact herror _ _ _ _ hstatus (by simp)
        next hstatus =>
          split
          · exact silent_skip _
          · rw [not_not.mp hstatus]
            exact hack _ _
      · exact herror _ _ _ _ (by simp) (Json.guessError_ne_undefined _)
  | orderCancel =>
    dsimp only
    unfold wsapiOrderCancel
    split
    · split
      · exact herror _ _ _ _ (by simp) (by simp)
      · split
        · exact silent_skip _
        · exact hack _ _
    · exact herror _ _ _ _ (by simp) (cancelError_ne_undefined settings _ _ _ _)

/-- A text goes through the handlers of the requests that it is dispatched to. -/
theorem silent_text {p : Output → Prop} (hbare : ∀ o, p o → o.bare = false)
    (hresponse : ∀ m, Conclusive m → ¬ p (.response m))
    (hkeys : ∀ listenKey, ¬ p (.listenKeyAck listenKey) ∧ ¬ p (.listenKeyUpdate listenKey))
    (fields : List Json.Field) (env : Answers) (d : Dispatcher) :
    Silent p (text (R := R) scanner settings fields env d) := by
  unfold text
  split
  · exact silent_mono hbare (bare_emit rfl)
  · refine silent_map fun request _ => ?_
    exact silent_handle scanner settings hbare hresponse (fun _ => hkeys) _ env d

theorem silent_answer {p : Output → Prop} (hbare : ∀ o, p o → o.bare = false)
    (hanswered : ∀ n reply, ¬ p (.answered n reply)) (hresponse : ∀ m, Conclusive m → ¬ p (.response m))
    (hkeys : ∀ listenKey, ¬ p (.listenKeyAck listenKey) ∧ ¬ p (.listenKeyUpdate listenKey))
    (n : ℕ) (reply : Json.Reply) (arrangement : Json.Arrangement) (env : Answers) (d : Dispatcher) :
    Silent p (answer (R := R) scanner settings n reply arrangement env d) := by
  intro w
  unfold answer
  split
  · exact silent_skip p w
  · refine silent_seq (fun _ o ho => by cases ho) (silent_seq (fun _ o ho => ?_)
      (silent_seq (silent_text scanner settings hbare hresponse hkeys _ env d) (silent_skip _))) w
    rw [List.mem_singleton.mp ho]
    exact hanswered n reply

/-- An order request is sent, or an exception is thrown. -/
theorem silent_orderRequest {p : Output → Prop} (hbare : ∀ o, p o → o.bare = false) {call : Call}
    (hsend : ∀ n, ¬ p (.sendText n call)) {ready : Bool} {body : Except Exn String} (w w' : World R) :
    ∀ o ∈ (if ready then sendEncoded scanner body call w
      else (w', [Output.throws (.notReady "not ready")])).2, ¬ p o := by
  have hthrows : ∀ e, ¬ p (.throws e) := fun e hp => by cases hbare _ hp
  intro o ho
  cases ready with
  | false =>
    rw [List.mem_singleton.mp ho]
    exact hthrows _
  | true =>
    cases body with
    | ok body =>
      rw [List.mem_singleton.mp ho]
      exact hsend _
    | error e =>
      rw [List.mem_singleton.mp ho]
      exact hthrows e

/-- The handlers of answers, but for that of listen keys. -/
theorem ordinary_handle (m : Json.WSAPIMessage) {request : Json.WSAPIRequest} (env : Answers)
    (d : Dispatcher) (hstart : request.type ≠ .userDataStreamStart)
    (hping : request.type ≠ .userDataStreamPing) :
    Ordinary (R := R) (handle scanner settings m request env d) := by
  refine silent_handle scanner settings (fun _ => Output.ordinary_of_bare)
    (fun _ _ h => by cases h) ?_ m env d
  rintro (h | h)
  · exact absurd h hstart
  · exact absurd h hping

end

end WebSocket
end BinanceFutures
