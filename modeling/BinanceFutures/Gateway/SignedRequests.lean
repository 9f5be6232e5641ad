import BinanceFutures.Gateway.Api
import BinanceFutures.Gateway.RestStream
import BinanceFutures.Schemes.Machine
import BinanceFutures.Tools.Crypto
import Mathlib.Data.List.Sort

/-! # Signed requests

    What `OrderEntryClassic`, `OrderEntryPortfolio` and `RestTrade` send under the account's key, and
    the logon of the WebSocket API. Each call site chooses a signer, and where its parameters go.

        balance, status, positions, open orders ─▶ plain  GET
        order, trades                           ─▶ query  GET ?{parameters}
        place, modify, cancel, cancel all       ─▶ body   POST, PUT, DELETE
        session logon                           ─▶ a message

    The account's keys are shared: the requests of a stream and the logons come in any order, and a
    signature finds the MAC as the one before has left it. -/

namespace BinanceFutures
open Machine

/-- The members of a stream that its requests are made from, with the account's keys. -/
structure Client (primitives : Primitives) where
  crypto : Crypto primitives
  connectionStatus : ConnectionStatus := .undefined
  /-- A set. -/
  openOrdersSymbols : List String := []
  downloadTradesIsFirst : Bool := true

namespace Client

inductive Output where
  | request (request : HttpRequest)
  | logon (message : Json.SessionLogon)
  | throws (e : Exn)
  deriving DecidableEq

/-- The calls of the class, and what else changes what they send. Times are the trace's. -/
inductive Event where
  | connectionStatus (status : ConnectionStatus)
  /-- An open order has been downloaded. -/
  | openOrder (symbol : String)
  /-- The trades have been downloaded. -/
  | tradesAck
  | getAccountBalance (now : Nanos)
  | getAccountStatus (now : Nanos)
  | getPosition (now : Nanos)
  | getOpenOrders (now : Nanos)
  | getOrder (now : Nanos) (clientOrderId symbol : String)
  | getTrades (now : Nanos)
  | orderPlace (now : Nanos) (m : CreateOrder) (refData : RefData) (requestId : String)
  | orderModify (now : Nanos) (m : ModifyOrder) (order : Order) (refData : RefData) (requestId : String)
  | orderCancel (now : Nanos) (order : Order) (requestId : String)
  | openOrdersCancelAll (now : Nanos) (m : CancelAllOrders) (requestId : String)
  | countdownCancelAll (now : Nanos)
  | sessionLogon (now : Nanos) (requestId : String)

variable {primitives : Primitives} (formats : Json.Formats) (api : API) (settings : Settings)

/-- An action of a stream. -/
abbrev Act (primitives : Primitives) := Action (Client primitives) Output

/-- `duration_cast<milliseconds>` -/
def toMilliseconds (t : Nanos) : ℕ := t / 1000000

def recvWindow : ℕ := toMilliseconds settings.rest.orderRecvWindow

/-- A signature is made, and the request goes out with it. -/
def send (sign : Crypto primitives → String × Crypto primitives) (build : String → String → HttpRequest) :
    Act primitives := fun client =>
  ({ client with crypto := (sign client.crypto).2 },
    [.request (build (sign client.crypto).1 client.crypto.getRestHeaders)])

/-- A request without parameters -/
def sendPlain (path requestId : String) (now : Nanos) : Act primitives :=
  send (fun crypto => crypto.createRestSignature (toMilliseconds now)) fun query headers =>
    { method := .get, path, query, headers, requestId }

/-- A request with its parameters in the query string -/
def sendQuery (contentType : ContentType) (path requestId : String) (now : Nanos) (fields : Json.Fields) :
    Act primitives :=
  send (fun crypto => crypto.createRestSignatureQuery (toMilliseconds now) (fields.query formats))
    fun query headers => { method := .get, path, query, contentType, headers, requestId }

/-- A request with its parameters in the body -/
def sendBody (method : Method) (path requestId : String) (now : Nanos) (fields : Json.Fields) :
    Act primitives :=
  send (fun crypto => crypto.createRestSignatureBody (toMilliseconds now) (fields.query formats))
    fun query headers =>
      { method, path, query, contentType := .applicationXWwwFormUrlencoded, headers,
        body := fields.query formats, qualityOfService := .immediate, requestId }

def whenReady (f : Act primitives) : Act primitives := fun client =>
  if client.connectionStatus = .ready then f client else (client, [.throws (.notReady "not ready")])

def remember (symbol : String) : Act primitives :=
  modify fun client => { client with openOrdersSymbols := emplace client.openOrdersSymbols symbol }

/-! ### The call sites

    The three classes have the same bodies for the orders, and differ in their paths. -/

/-- `get_order` -/
def getOrder (path : String) (now : Nanos) (clientOrderId symbol : String) : Act primitives :=
  sendQuery formats .undefined path "order" now
    (Json.Encoder.getOrderUrl symbol clientOrderId (recvWindow settings))

def downloadTradesLimit : ℕ := 1000

/-- `get_download_trades_lookback` -/
def getDownloadTradesLookback (downloadTradesIsFirst : Bool) : Nanos :=
  if downloadTradesIsFirst ∧ settings.download.tradesLookbackOnRestart ≠ 0 then
    settings.download.tradesLookbackOnRestart
  else settings.download.tradesLookback

/-- The parameters of `get_trades`, for one symbol: the start is cut towards zero, also before the epoch. -/
def tradesOf (now : Nanos) (downloadTradesIsFirst : Bool) (symbol : String) : Json.Fields :=
  let lookback := getDownloadTradesLookback settings downloadTradesIsFirst
  let endTime := toMilliseconds now
  let startTime := ((milliseconds endTime : ℤ) - lookback).tdiv 1000000
  let limit := if settings.download.tradesLimit ≠ 0 then settings.download.tradesLimit
    else downloadTradesLimit
  Json.Encoder.userTradesUrl symbol startTime endTime limit (recvWindow settings)

/-- `get_trades` -/
def getTrades (path requestId : String) (now : Nanos) : Act primitives := fun client =>
  seqAll (settings.download.symbols.map fun symbol =>
    sendQuery formats .applicationXWwwFormUrlencoded path requestId now
      (tradesOf settings now client.downloadTradesIsFirst symbol)) client

/-- `order_place` -/
def orderPlace (path : String) (now : Nanos) (m : CreateOrder) (refData : RefData) (requestId : String) :
    Act primitives :=
  whenReady (seq (remember m.symbol)
    (sendBody formats .post path requestId now
      (Json.Encoder.orderPlaceUrl formats m refData requestId (recvWindow settings)
        api.selfTradePrevention)))

/-- `order_modify` -/
def orderModify (path : String) (modifyOrderFull : Bool) (now : Nanos) (m : ModifyOrder) (order : Order)
    (refData : RefData) (requestId : String) : Act primitives :=
  whenReady
    (match Json.Encoder.orderModifyUrl formats m order refData (recvWindow settings) modifyOrderFull with
      | .ok fields => sendBody formats .put path requestId now fields
      | .error e => emit [.throws e])

/-- `order_cancel` -/
def orderCancel (path : String) (now : Nanos) (order : Order) (requestId : String) : Act primitives :=
  whenReady (sendBody formats .delete path requestId now
    (Json.Encoder.orderCancelUrl order (recvWindow settings)))

/-- `open_orders_cancel_all` -/
def openOrdersCancelAll (path : String) (now : Nanos) (m : CancelAllOrders) (requestId : String) :
    Act primitives := fun client =>
  seqAll ((client.openOrdersSymbols.filter m.selects).map fun symbol =>
    sendBody formats .delete path requestId now
      (Json.Encoder.allOpenOrdersUrl symbol (recvWindow settings))) client

end Client

namespace OrderEntryClassic
open Client
variable {primitives : Primitives} (formats : Json.Formats) (api : API) (settings : Settings)

/-- `get_account_balance` -/
def getAccountBalance : Nanos → Act primitives := sendPlain api.simple.accountBalance "account-balance"

/-- `get_account_status` -/
def getAccountStatus : Nanos → Act primitives := sendPlain api.simple.accountStatus "account-status"

/-- `get_open_orders` -/
def getOpenOrders : Nanos → Act primitives := sendPlain api.simple.openOrders "open-orders"

/-- `countdown_cancel_all` -/
def countdownCancelAll (now : Nanos) : Act primitives := fun client =>
  seqAll (client.openOrdersSymbols.map fun symbol =>
    sendBody formats .post api.simple.countdownCancelAll "auto-cancel" now
      (Json.Encoder.countdownCancelOpenOrdersUrl symbol (toMilliseconds settings.rest.orderCountdown)
        (recvWindow settings))) client

/-- The calls of the class. -/
def step : Event → Act primitives
  | .getAccountBalance now => getAccountBalance api now
  | .getAccountStatus now => getAccountStatus api now
  | .getOpenOrders now => getOpenOrders api now
  | .getOrder now clientOrderId symbol =>
    getOrder formats settings api.simple.order now clientOrderId symbol
  | .getTrades now => getTrades formats settings api.simple.userTrades "user-trades" now
  | .orderPlace now m refData requestId =>
    orderPlace formats api settings api.simple.order now m refData requestId
  | .orderModify now m order refData requestId =>
    orderModify formats settings api.simple.order api.modifyOrderFull now m order refData requestId
  | .orderCancel now order requestId => orderCancel formats settings api.simple.order now order requestId
  | .openOrdersCancelAll now m requestId =>
    openOrdersCancelAll formats settings api.simple.allOpenOrders now m requestId
  | .countdownCancelAll now => countdownCancelAll formats api settings now
  | _ => skip

end OrderEntryClassic

namespace OrderEntryPortfolio
open Client
variable {primitives : Primitives} (formats : Json.Formats) (api : API) (settings : Settings)

/-- `get_account_balance` -/
def getAccountBalance : Nanos → Act primitives := sendPlain api.papi.accountBalance "account-balance"

/-- `get_account_status` -/
def getAccountStatus : Nanos → Act primitives := sendPlain api.papi.accountStatus "account"

/-- `get_position` -/
def getPosition : Nanos → Act primitives := sendPlain api.papi.positionRisk "position"

/-- `get_open_orders` -/
def getOpenOrders : Nanos → Act primitives := sendPlain api.papi.openOrders "open-orders"

/-- The calls of the class; a modify is always full. -/
def step : Event → Act primitives
  | .getAccountBalance now => getAccountBalance api now
  | .getAccountStatus now => getAccountStatus api now
  | .getPosition now => getPosition api now
  | .getOpenOrders now => getOpenOrders api now
  | .getOrder now clientOrderId symbol => getOrder formats settings api.papi.order now clientOrderId symbol
  | .getTrades now => getTrades formats settings api.papi.userTrades "trades" now
  | .orderPlace now m refData requestId =>
    orderPlace formats api settings api.papi.order now m refData requestId
  | .orderModify now m order refData requestId =>
    orderModify formats settings api.papi.order true now m order refData requestId
  | .orderCancel now order requestId => orderCancel formats settings api.papi.order now order requestId
  | .openOrdersCancelAll now m requestId =>
    openOrdersCancelAll formats settings api.papi.allOpenOrders now m requestId
  | _ => skip

end OrderEntryPortfolio

namespace RestTrade
open Client
variable {primitives : Primitives} (formats : Json.Formats) (api : API) (settings : Settings)

/-- `get_open_orders` -/
def getOpenOrders : Nanos → Act primitives := sendPlain api.simple.openOrders "open-orders"

/-- `get_trades`: disabled for now, the first statement is a `return`. -/
def getTrades : Act primitives := modify fun client => { client with downloadTradesIsFirst := false }

/-- The calls of the class. -/
def step : Event → Act primitives
  | .getOpenOrders now => getOpenOrders api now
  | .getOrder now clientOrderId symbol =>
    getOrder formats settings api.simple.order now clientOrderId symbol
  | .getTrades _ => getTrades
  | .openOrdersCancelAll now m requestId =>
    openOrdersCancelAll formats settings api.simple.allOpenOrders now m requestId
  | _ => skip

end RestTrade

namespace WebSocket
open Client (toMilliseconds recvWindow)
variable {primitives : Primitives}

/-- `session_logon`; the number of the request is in its id. -/
def sessionLogon (settings : Settings) (now : Nanos) (requestId : String) : Client.Act primitives :=
  fun client =>
    let nowUtc := toMilliseconds now
    let signature := client.crypto.createSessionLogonSignature nowUtc (recvWindow settings)
    (client, [Client.Output.logon (Json.Encoder.sessionLogonJson client.crypto.key nowUtc
      (recvWindow settings) signature requestId)])

end WebSocket

namespace Client
variable {primitives : Primitives} (formats : Json.Formats) (api : API) (settings : Settings)

/-- What a call does to a stream of the class, or to the account's session. -/
def step (kind : RestStream.Kind) : Event → Act primitives
  | .connectionStatus status => modify fun client => { client with connectionStatus := status }
  | .openOrder symbol => remember symbol
  | .tradesAck => modify fun client => { client with downloadTradesIsFirst := false }
  | .sessionLogon now requestId => WebSocket.sessionLogon settings now requestId
  | e => match kind with
    | .orderEntryClassic => OrderEntryClassic.step formats api settings e
    | .orderEntryPortfolio => OrderEntryPortfolio.step formats api settings e
    | .restTrade => RestTrade.step formats api settings e

/-! ### What is signed -/

/-- The parameters without the signature, sorted by name and joined. -/
def payload (params : Json.Fields) : String :=
  Json.Fields.query formats ((params.filter (·.1 ≠ "signature")).insertionSort (·.1 ≤ ·.1))

/-- The signature is that of what the exchange reads. -/
def Exact (crypto : Crypto primitives) : Output → Prop
  | .request request => crypto.Signs request.query request.body
  | .logon message => ∀ v, ("signature", v) ∈ message.params ↔
      v = .text (primitives.base64 (primitives.sign crypto.pkey (payload formats message.params)))
  | .throws _ => True

/-- The keys are the account's, and so is every signature made so far. -/
def Signed (crypto : Crypto primitives) (out : List Output) (client : Client primitives) : Prop :=
  client.crypto.rest = crypto.rest ∧ ∀ o ∈ out, Exact formats crypto o

variable {formats} {crypto : Crypto primitives} {out : List Output} {client : Client primitives}

theorem exact_rest {o : Output} : Exact formats crypto.rest o ↔ Exact formats crypto o := by
  cases o with
  | request request => exact crypto.signs_rest
  | logon message => rfl
  | throws e => rfl

/-- What is exact under the keys as they are now is exact under the account's. -/
theorem Signed.concat {o : Output} {client' : Client primitives} (h : Signed formats crypto out client)
    (ho : Exact formats client.crypto o) (hrest : client'.crypto.rest = client.crypto.rest) :
    Signed formats crypto (out ++ [o]) client' := by
  refine ⟨hrest.trans h.1, List.forall_mem_append.mpr ⟨h.2, ?_⟩⟩
  rw [← exact_rest, h.1, exact_rest] at ho
  simpa using ho

/-- A request that goes out with a sealed text. -/
theorem keeps_send {sign : Crypto primitives → String × Crypto primitives}
    {build : String → String → HttpRequest} {text body : String} {more : List String}
    (hsign : ∀ crypto, sign crypto = crypto.sealed text more)
    (hquery : ∀ query headers, (build query headers).query = query)
    (hbody : ∀ query headers, (build query headers).body = body)
    (hmore : more.foldl (· ++ ·) text = text ++ body) :
    Keeps (Signed formats crypto) (send sign build) := by
  intro out client h
  have hexact : client.crypto.Signs (client.crypto.sealed text more).1 body :=
    client.crypto.sealed_signs text hmore
  refine h.concat ?_ ?_
  · rw [Exact, hquery, hbody, hsign]
    exact hexact
  · rw [send, hsign]
    exact client.crypto.rest_sealed text more

theorem keeps_sendPlain (path requestId : String) (now : Nanos) :
    Keeps (Signed formats crypto) (sendPlain path requestId now) :=
  keeps_send (fun _ => rfl) (fun _ _ => rfl) (fun _ _ => rfl) String.append_empty.symm

theorem keeps_sendQuery (contentType : ContentType) (path requestId : String) (now : Nanos)
    (fields : Json.Fields) :
    Keeps (Signed formats crypto) (sendQuery formats contentType path requestId now fields) :=
  keeps_send (fun _ => rfl) (fun _ _ => rfl) (fun _ _ => rfl) String.append_empty.symm

theorem keeps_sendBody (method : Method) (path requestId : String) (now : Nanos) (fields : Json.Fields) :
    Keeps (Signed formats crypto) (sendBody formats method path requestId now fields) :=
  keeps_send (fun _ => rfl) (fun _ _ => rfl) (fun _ _ => rfl) rfl

theorem keeps_throws (e : Exn) : Keeps (Signed formats crypto) (emit [.throws e]) :=
  fun _ _ h => h.concat trivial rfl

theorem keeps_modify {f : Client primitives → Client primitives}
    (hf : ∀ client, (f client).crypto = client.crypto) : Keeps (Signed formats crypto) (modify f) := by
  intro out client h
  refine ⟨?_, by simpa using h.2⟩
  rw [modify_apply, hf]
  exact h.1

theorem keeps_whenReady {f : Act primitives} (hf : Keeps (Signed formats crypto) f) :
    Keeps (Signed formats crypto) (whenReady f) := by
  intro out client h
  unfold whenReady
  split
  · exact hf out client h
  · exact keeps_throws _ out client h

/-- One request for each symbol of a set. -/
theorem keeps_forEach {symbols : Client primitives → List String}
    {f : Client primitives → String → Act primitives}
    (hf : ∀ client symbol, Keeps (Signed formats crypto) (f client symbol)) :
    Keeps (Signed formats crypto) fun client => seqAll ((symbols client).map (f client)) client := by
  refine keeps_choose fun client => keeps_map fun symbol _ => ?_
  exact hf client symbol

/-! ### The call sites -/

theorem keeps_getOrder (path : String) (now : Nanos) (clientOrderId symbol : String) :
    Keeps (Signed formats crypto) (getOrder formats settings path now clientOrderId symbol) :=
  keeps_sendQuery _ _ _ _ _

theorem keeps_getTrades (path requestId : String) (now : Nanos) :
    Keeps (Signed formats crypto) (getTrades formats settings path requestId now) :=
  keeps_forEach fun _ _ => keeps_sendQuery _ _ _ _ _

theorem keeps_orderPlace (path : String) (now : Nanos) (m : CreateOrder) (refData : RefData)
    (requestId : String) :
    Keeps (Signed formats crypto) (orderPlace formats api settings path now m refData requestId) :=
  keeps_whenReady (keeps_seq (keeps_modify fun _ => rfl) (keeps_sendBody _ _ _ _ _))

theorem keeps_orderModify (path : String) (modifyOrderFull : Bool) (now : Nanos) (m : ModifyOrder)
    (order : Order) (refData : RefData) (requestId : String) :
    Keeps (Signed formats crypto)
      (orderModify formats settings path modifyOrderFull now m order refData requestId) := by
  refine keeps_whenReady ?_
  split
  · exact keeps_sendBody _ _ _ _ _
  · exact keeps_throws _

theorem keeps_orderCancel (path : String) (now : Nanos) (order : Order) (requestId : String) :
    Keeps (Signed formats crypto) (orderCancel formats settings path now order requestId) :=
  keeps_whenReady (keeps_sendBody _ _ _ _ _)

theorem keeps_openOrdersCancelAll (path : String) (now : Nanos) (m : CancelAllOrders) (requestId : String) :
    Keeps (Signed formats crypto) (openOrdersCancelAll formats settings path now m requestId) :=
  keeps_forEach fun _ _ => keeps_sendBody _ _ _ _ _

theorem keeps_countdownCancelAll (now : Nanos) :
    Keeps (Signed formats crypto) (OrderEntryClassic.countdownCancelAll formats api settings now) :=
  keeps_forEach fun _ _ => keeps_sendBody _ _ _ _ _

theorem keeps_orderEntryClassic (e : Event) :
    Keeps (Signed formats crypto) (OrderEntryClassic.step formats api settings e) := by
  cases e with
  | getAccountBalance | getAccountStatus | getOpenOrders => exact keeps_sendPlain _ _ _
  | getOrder => exact keeps_getOrder settings _ _ _ _
  | getTrades => exact keeps_getTrades settings _ _ _
  | orderPlace => exact keeps_orderPlace api settings _ _ _ _ _
  | orderModify => exact keeps_orderModify settings _ _ _ _ _ _ _
  | orderCancel => exact keeps_orderCancel settings _ _ _ _
  | openOrdersCancelAll => exact keeps_openOrdersCancelAll settings _ _ _ _
  | countdownCancelAll => exact keeps_countdownCancelAll api settings _
  | _ => exact keeps_skip _

theorem keeps_orderEntryPortfolio (e : Event) :
    Keeps (Signed formats crypto) (OrderEntryPortfolio.step formats api settings e) := by
  cases e with
  | getAccountBalance | getAccountStatus | getPosition | getOpenOrders => exact keeps_sendPlain _ _ _
  | getOrder => exact keeps_getOrder settings _ _ _ _
  | getTrades => exact keeps_getTrades settings _ _ _
  | orderPlace => exact keeps_orderPlace api settings _ _ _ _ _
  | orderModify => exact keeps_orderModify settings _ _ _ _ _ _ _
  | orderCancel => exact keeps_orderCancel settings _ _ _ _
  | openOrdersCancelAll => exact keeps_openOrdersCancelAll settings _ _ _ _
  | _ => exact keeps_skip _

theorem keeps_restTrade (e : Event) :
    Keeps (Signed formats crypto) (RestTrade.step formats api settings e) := by
  cases e with
  | getOpenOrders => exact keeps_sendPlain _ _ _
  | getOrder => exact keeps_getOrder settings _ _ _ _
  | getTrades => exact keeps_modify fun _ => rfl
  | openOrdersCancelAll => exact keeps_openOrdersCancelAll settings _ _ _ _
  | _ => exact keeps_skip _

/-! ### The session logon -/

/-- The parameters of the logon, sorted and joined, are what the signer puts together. -/
theorem payload_sessionLogonJson (key signature requestId : String) (nowUtc recvWindow : ℕ) :
    payload formats (Json.Encoder.sessionLogonJson key nowUtc recvWindow signature requestId).params
      = "apiKey=" ++ key ++ "&recvWindow=" ++ toString recvWindow ++ "&timestamp=" ++ toString nowUtc := by
  have hsorted : ((Json.Encoder.sessionLogonJson key nowUtc recvWindow signature requestId).params.filter
      (·.1 ≠ "signature")).insertionSort (·.1 ≤ ·.1)
      = [("apiKey", .text key), ("recvWindow", .count recvWindow), ("timestamp", .count nowUtc)] := by
    simp [Json.Encoder.sessionLogonJson]
  rw [payload, hsorted, ← String.toList_inj]
  simp [Json.Fields.query, Json.Fields.formatted, Query.render, Query.pair, Json.Value.format]

theorem keeps_sessionLogon (now : Nanos) (requestId : String) :
    Keeps (Signed formats crypto) (WebSocket.sessionLogon settings now requestId) := by
  intro out client h
  refine h.concat (fun v => ?_) rfl
  rw [payload_sessionLogonJson]
  simp [Json.Encoder.sessionLogonJson, Crypto.createSessionLogonSignature]

theorem keeps_step (kind : RestStream.Kind) (e : Event) :
    Keeps (Signed formats crypto) (step formats api settings kind e) := by
  cases e with
  | connectionStatus | openOrder | tradesAck => exact keeps_modify fun _ => rfl
  | sessionLogon => exact keeps_sessionLogon settings _ _
  | _ =>
    cases kind with
    | orderEntryClassic => exact keeps_orderEntryClassic api settings _
    | orderEntryPortfolio => exact keeps_orderEntryPortfolio api settings _
    | restTrade => exact keeps_restTrade api settings _

variable (formats)

/-- CORRECT: in every run, of whichever class, a request carries the signature of its query string
    without the mark and the signature, followed by its body; and a logon that of its parameters without
    the signature, sorted by name and joined. -/
theorem signatures_exact (kind : RestStream.Kind) (client : Client primitives) (es : List Event) :
    (∀ request, .request request ∈ (run (step formats api settings kind) es client).2 →
      request.query = "?" ++ Crypto.unsigned request.query ++ "&signature="
        ++ client.crypto.signature (Crypto.unsigned request.query ++ request.body)) ∧
    ∀ message, .logon message ∈ (run (step formats api settings kind) es client).2 →
      ∀ v, ("signature", v) ∈ message.params ↔
        v = .text (primitives.base64
          (primitives.sign client.crypto.pkey (payload formats message.params))) := by
  have hinit : Signed formats client.crypto [] client := ⟨rfl, by simp⟩
  obtain ⟨-, hexact⟩ := keeps_run (keeps_step api settings kind) es [] client hinit
  rw [List.nil_append] at hexact
  exact ⟨fun request hrequest => hexact _ hrequest, fun message hmessage => hexact _ hmessage⟩

end Client

end BinanceFutures
