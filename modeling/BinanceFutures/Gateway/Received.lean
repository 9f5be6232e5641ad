import BinanceFutures.Gateway.SignedRequests
import BinanceFutures.Schemes.Document
import BinanceFutures.Schemes.Form

/-! # Received

    What the exchange reads of the signed requests. The gateway writes the parameters without escaping
    them, and the exchange decodes what it receives as a form.

        GET     ?{parameters}&timestamp=T&signature=S
        others  ?timestamp=T&signature=S                  body: {parameters}

    The texts in the parameters are the client's symbols, the ids of orders and what the formats make of
    prices and quantities. -/

namespace BinanceFutures

/-- Digests are written in characters that a form may contain. -/
structure Primitives.Hexadecimal (primitives : Primitives) : Prop where
  safe : ∀ digest, ∀ c ∈ (primitives.hex digest).toList, Form.isSafe c = true

theorem Primitives.hexadecimal_plain : Primitives.plain.Hexadecimal where
  safe digest c hc := by
    have hdigit : ∀ n < 16, Form.isSafe (Nat.digitChar n) = true := by decide
    have hbytes : c ∈ digest.flatMap fun byte =>
        [Nat.digitChar (byte.toNat / 16), Nat.digitChar (byte.toNat % 16)] := by
      simpa [Primitives.plain, hexEncode] using hc
    obtain ⟨byte, -, hbyte⟩ := List.mem_flatMap.mp hbytes
    have hbound : byte.toNat < 256 := byte.toNat_lt
    rcases List.mem_pair.mp hbyte with rfl | rfl
    · exact hdigit _ (by omega)
    · exact hdigit _ (by omega)

namespace Client
open Machine

section
variable {primitives : Primitives} (formats : Json.Formats) (api : API) (settings : Settings)

/-! ### What is asked -/

/-- A request as it is asked for: its parameters, and where they go. -/
inductive Asked where
  | plain (now : Nanos)
  | query (now : Nanos) (fields : Json.Fields)
  | body (now : Nanos) (fields : Json.Fields)

namespace Asked

def now : Asked → Nanos
  | plain now | query now _ | body now _ => now

def fields : Asked → Json.Fields
  | plain _ => []
  | query _ fields | body _ fields => fields

/-- What is signed before the timestamp, and behind it. -/
def signed (a : Asked) : String :=
  match a with
  | plain now => Crypto.timestamp (toMilliseconds now)
  | query now fields => fields.query formats ++ "&" ++ Crypto.timestamp (toMilliseconds now)
  | body now fields => Crypto.timestamp (toMilliseconds now) ++ fields.query formats

/-- The timestamp and the signature. -/
def stamps (crypto : Crypto primitives) (a : Asked) : List (List Char × List Char) :=
  [("timestamp".toList, (toString (toMilliseconds a.now)).toList),
    ("signature".toList, (crypto.signature (a.signed formats)).toList)]

/-- What the exchange is to read of the query string, and of the body. -/
def target (crypto : Crypto primitives) (a : Asked) : List (List Char × List Char) :=
  match a with
  | query _ fields => fields.formatted formats ++ a.stamps formats crypto
  | plain _ | body _ _ => a.stamps formats crypto

def content : Asked → List (List Char × List Char)
  | body _ fields => fields.formatted formats
  | plain _ | query _ _ => []

/-- What the exchange is to read. -/
def reading (crypto : Crypto primitives) (a : Asked) : List (List Char × List Char) :=
  a.target formats crypto ++ a.content formats

/-- No value ends early, or is decoded to something else. -/
def Plain (a : Asked) : Prop :=
  ∀ field ∈ a.fields, '&' ∉ (field.2.format formats).toList ∧
    Form.Literal (field.2.format formats).toList

end Asked

/-- A call of one of the classes that send over HTTP. -/
def Event.ofStream : Event → Bool
  | .connectionStatus _ | .openOrder _ | .tradesAck | .sessionLogon .. => false
  | _ => true

/-- The requests that a call asks for. -/
def asks (kind : RestStream.Kind) (client : Client primitives) : Event → List Asked
  | .getAccountBalance now | .getAccountStatus now =>
    if kind = .restTrade then [] else [.plain now]
  | .getPosition now => if kind = .orderEntryPortfolio then [.plain now] else []
  | .getOpenOrders now => [.plain now]
  | .getOrder now clientOrderId symbol =>
    [.query now (Json.Encoder.getOrderUrl symbol clientOrderId (recvWindow settings))]
  | .getTrades now =>
    if kind = .restTrade then []
    else settings.download.symbols.map fun symbol =>
      .query now (tradesOf settings now client.downloadTradesIsFirst symbol)
  | .orderPlace now m refData requestId =>
    if kind ≠ .restTrade ∧ client.connectionStatus = .ready then
      [.body now (Json.Encoder.orderPlaceUrl formats m refData requestId (recvWindow settings)
        api.selfTradePrevention)]
    else []
  | .orderModify now m order refData _ =>
    if kind ≠ .restTrade ∧ client.connectionStatus = .ready then
      match Json.Encoder.orderModifyUrl formats m order refData (recvWindow settings)
        (kind = .orderEntryPortfolio || api.modifyOrderFull) with
      | .ok fields => [.body now fields]
      | .error _ => []
    else []
  | .orderCancel now order _ =>
    if kind ≠ .restTrade ∧ client.connectionStatus = .ready then
      [.body now (Json.Encoder.orderCancelUrl order (recvWindow settings))]
    else []
  | .openOrdersCancelAll now m _ => (client.openOrdersSymbols.filter m.selects).map fun symbol =>
    .body now (Json.Encoder.allOpenOrdersUrl symbol (recvWindow settings))
  | .countdownCancelAll now =>
    if kind = .orderEntryClassic then client.openOrdersSymbols.map fun symbol =>
      .body now (Json.Encoder.countdownCancelOpenOrdersUrl symbol
        (toMilliseconds settings.rest.orderCountdown) (recvWindow settings))
    else []
  | .connectionStatus _ | .openOrder _ | .tradesAck | .sessionLogon .. => []

/-- The requests that the calls of a run ask for. -/
def asksOf (kind : RestStream.Kind) : List Event → Client primitives → List Asked
  | [], _ => []
  | e :: es, client =>
    asks formats api settings kind client e ++ asksOf kind es (step formats api settings kind e client).1

/-! ### On the wire -/

def Output.request? : Output → Option HttpRequest
  | .request r => some r
  | _ => none

/-- The query string without its mark, and the body. -/
def wire (r : HttpRequest) : List Char × List Char := (r.query.toList.tail, r.body.toList)

/-- What the exchange reads of the two texts. -/
def readWire (texts : List Char × List Char) : List (List Char × List Char) :=
  Form.readAll texts.1 ++ Form.readAll texts.2

/-- What the exchange reads. -/
def received (r : HttpRequest) : List (List Char × List Char) := readWire (wire r)

def Asked.wire (crypto : Crypto primitives) (a : Asked) : List Char × List Char :=
  (Query.render (a.target formats crypto), Query.render (a.content formats))

variable {formats} {crypto : Crypto primitives} {client : Client primitives}

theorem wire_rest (a : Asked) : a.wire formats crypto.rest = a.wire formats crypto := by
  simp only [Asked.wire, Asked.target, Asked.stamps, Crypto.signature, Crypto.rest, primitives.clear_clear]

theorem wire_congr {crypto' : Crypto primitives} (h : crypto'.rest = crypto.rest) (a : Asked) :
    a.wire formats crypto' = a.wire formats crypto := by
  rw [← wire_rest, h, wire_rest]

variable (formats) in
/-- The action puts these requests out, and leaves the keys as they are. -/
def Puts (client : Client primitives) (f : Act primitives) (asked : List Asked) : Prop :=
  (f client).1.crypto.rest = client.crypto.rest ∧
  ((f client).2.filterMap Output.request?).map wire = asked.map (·.wire formats client.crypto)

theorem puts_skip : Puts formats client skip [] := ⟨rfl, rfl⟩

theorem puts_throws (e : Exn) : Puts formats client (emit [.throws e]) [] := ⟨rfl, rfl⟩

theorem puts_modify {f : Client primitives → Client primitives}
    (hf : ∀ client, (f client).crypto = client.crypto) : Puts formats client (modify f) [] :=
  ⟨congrArg Crypto.rest (hf client), rfl⟩

theorem puts_seq {f g : Act primitives} {asked asked' : List Asked} (hf : Puts formats client f asked)
    (hg : Puts formats (f client).1 g asked') : Puts formats client (seq f g) (asked ++ asked') := by
  refine ⟨hg.1.trans hf.1, ?_⟩
  rw [seq_snd, List.filterMap_append, List.map_append, List.map_append, hf.2, hg.2]
  exact congrArg _ (List.map_congr_left fun a _ => wire_congr hf.1 a)

/-- One request for each element of a list. -/
theorem puts_map {α : Type} {f : α → Act primitives} {a : α → Asked}
    (hf : ∀ x client, Puts formats client (f x) [a x]) : ∀ (xs : List α) (client : Client primitives),
    Puts formats client (seqAll (xs.map f)) (xs.map a)
  | [], _ => puts_skip
  | x :: xs, client => puts_seq (hf x client) (puts_map hf xs _)

theorem puts_whenReady {f : Act primitives} {asked : List Asked} (hf : Puts formats client f asked) :
    Puts formats client (whenReady f) (if client.connectionStatus = .ready then asked else []) := by
  by_cases hready : client.connectionStatus = .ready
  · simpa only [Puts, whenReady, if_pos hready] using hf
  · simp [Puts, whenReady, hready, Output.request?]

/-- A sealed text. -/
theorem toList_sealed (crypto : Crypto primitives) (text : String) (more : List String) (signed : String)
    (h : more.foldl (· ++ ·) text = signed) :
    (crypto.sealed text more).1.toList.tail
      = text.toList ++ '&' :: Query.pair ("signature".toList, (crypto.signature signed).toList) := by
  rw [Crypto.sealed_fst, h]
  simp [Query.pair]

theorem toList_timestamp (now : Nanos) : (Crypto.timestamp (toMilliseconds now)).toList
    = Query.pair ("timestamp".toList, (toString (toMilliseconds now)).toList) := by
  simp [Crypto.timestamp, Query.pair]

theorem render_stamps (a : Asked) : Query.render (a.stamps formats crypto)
    = (Crypto.timestamp (toMilliseconds a.now)).toList
      ++ '&' :: Query.pair ("signature".toList, (crypto.signature (a.signed formats)).toList) := by
  rw [toList_timestamp, Asked.stamps, Form.render_cons_cons]
  simp [Query.render]

theorem toList_query (fields : Json.Fields) :
    (fields.query formats).toList = Query.render (fields.formatted formats) :=
  String.toList_ofList

theorem puts_sendPlain (path requestId : String) (now : Nanos) :
    Puts formats client (sendPlain path requestId now) [.plain now] := by
  refine ⟨client.crypto.rest_sealed _ _, ?_⟩
  have hquery := toList_sealed client.crypto (Crypto.timestamp (toMilliseconds now)) [] _ rfl
  simp only [sendPlain, send, Crypto.createRestSignature, List.filterMap_cons, Output.request?,
    List.filterMap_nil, List.map_cons, List.map_nil, wire, Asked.wire, Asked.target, Asked.content, hquery]
  rw [render_stamps]
  rfl

theorem puts_sendQuery (contentType : ContentType) (path requestId : String) (now : Nanos)
    {fields : Json.Fields} (hne : fields ≠ []) :
    Puts formats client (sendQuery formats contentType path requestId now fields)
      [.query now fields] := by
  refine ⟨client.crypto.rest_sealed _ _, ?_⟩
  have hquery := toList_sealed client.crypto
    (fields.query formats ++ "&" ++ Crypto.timestamp (toMilliseconds now)) [] _ rfl
  have hformatted : fields.formatted formats ≠ [] := by simpa [Json.Fields.formatted] using hne
  have hstamps : (Asked.query now fields).stamps formats client.crypto ≠ [] := List.cons_ne_nil _ _
  simp only [sendQuery, send, Crypto.createRestSignatureQuery, List.filterMap_cons, Output.request?,
    List.filterMap_nil, List.map_cons, List.map_nil, wire, Asked.wire, Asked.target, Asked.content, hquery]
  rw [Form.render_append hformatted hstamps, render_stamps]
  simp [Asked.now, Asked.signed, toList_query, Query.render]

theorem puts_sendBody (method : Method) (path requestId : String) (now : Nanos) (fields : Json.Fields) :
    Puts formats client (sendBody formats method path requestId now fields) [.body now fields] := by
  refine ⟨client.crypto.rest_sealed _ _, ?_⟩
  have hquery := toList_sealed client.crypto (Crypto.timestamp (toMilliseconds now))
    [fields.query formats] _ rfl
  simp only [sendBody, send, Crypto.createRestSignatureBody, List.filterMap_cons, Output.request?,
    List.filterMap_nil, List.map_cons, List.map_nil, wire, Asked.wire, Asked.target, Asked.content, hquery]
  rw [render_stamps, toList_query]
  rfl

/-! ### The call sites -/

theorem puts_orderPlace (path : String) (now : Nanos) (m : CreateOrder) (refData : RefData)
    (requestId : String) :
    Puts formats client (orderPlace formats api settings path now m refData requestId)
      (if client.connectionStatus = .ready then
        [.body now (Json.Encoder.orderPlaceUrl formats m refData requestId (recvWindow settings)
          api.selfTradePrevention)]
      else []) :=
  puts_whenReady (puts_seq (puts_modify fun _ => rfl) (puts_sendBody _ _ _ _ _))

theorem puts_orderModify (path : String) (modifyOrderFull : Bool) (now : Nanos) (m : ModifyOrder)
    (order : Order) (refData : RefData) (requestId : String) :
    Puts formats client
      (orderModify formats settings path modifyOrderFull now m order refData requestId)
      (if client.connectionStatus = .ready then
        match Json.Encoder.orderModifyUrl formats m order refData (recvWindow settings)
          modifyOrderFull with
        | .ok fields => [.body now fields]
        | .error _ => []
      else []) := by
  refine puts_whenReady ?_
  cases Json.Encoder.orderModifyUrl formats m order refData (recvWindow settings) modifyOrderFull with
  | ok fields => exact puts_sendBody _ _ _ _ _
  | error e => exact puts_throws e

theorem puts_orderCancel (path : String) (now : Nanos) (order : Order) (requestId : String) :
    Puts formats client (orderCancel formats settings path now order requestId)
      (if client.connectionStatus = .ready then
        [.body now (Json.Encoder.orderCancelUrl order (recvWindow settings))]
      else []) :=
  puts_whenReady (puts_sendBody _ _ _ _ _)

/-- An action that does what another one does. -/
theorem puts_of_eq {f g : Act primitives} {asked : List Asked} (h : f client = g client)
    (hg : Puts formats client g asked) : Puts formats client f asked := by
  unfold Puts
  rw [h]
  exact hg

theorem puts_getTrades (path requestId : String) (now : Nanos) :
    Puts formats client (getTrades formats settings path requestId now)
      (settings.download.symbols.map fun symbol =>
        .query now (tradesOf settings now client.downloadTradesIsFirst symbol)) := by
  have hne : ∀ symbol, tradesOf settings now client.downloadTradesIsFirst symbol ≠ [] :=
    fun symbol => by simp [tradesOf, Json.Encoder.userTradesUrl]
  refine puts_of_eq (g := seqAll (settings.download.symbols.map fun symbol =>
    sendQuery formats .applicationXWwwFormUrlencoded path requestId now
      (tradesOf settings now client.downloadTradesIsFirst symbol))) rfl ?_
  exact puts_map (fun symbol _ => puts_sendQuery _ _ _ _ (hne symbol)) _ client

/-- One request for each symbol of a set. -/
theorem puts_forEach (symbols : List String) (method : Method) (path requestId : String) (now : Nanos)
    (fields : String → Json.Fields) :
    Puts formats client
      (seqAll (symbols.map fun symbol => sendBody formats method path requestId now (fields symbol)))
      (symbols.map fun symbol => .body now (fields symbol)) :=
  puts_map (fun _ _ => puts_sendBody _ _ _ _ _) _ client

theorem puts_orderEntryClassic {e : Event} (he : e.ofStream = true) :
    Puts formats client (OrderEntryClassic.step formats api settings e)
      (asks formats api settings .orderEntryClassic client e) := by
  cases e with
  | connectionStatus | openOrder | tradesAck | sessionLogon => cases he
  | getAccountBalance | getAccountStatus | getOpenOrders => exact puts_sendPlain _ _ _
  | getOrder => exact puts_sendQuery _ _ _ _ (List.cons_ne_nil _ _)
  | getTrades => exact puts_getTrades settings _ _ _
  | orderPlace =>
    simpa [asks, OrderEntryClassic.step] using puts_orderPlace api settings _ _ _ _ _
  | orderModify =>
    simpa [asks, OrderEntryClassic.step] using puts_orderModify settings _ _ _ _ _ _ _
  | orderCancel =>
    simpa [asks, OrderEntryClassic.step] using puts_orderCancel settings _ _ _ _
  | openOrdersCancelAll => exact puts_forEach _ _ _ _ _ _
  | countdownCancelAll => exact puts_forEach _ _ _ _ _ _
  | getPosition => exact puts_skip

theorem puts_orderEntryPortfolio {e : Event} (he : e.ofStream = true) :
    Puts formats client (OrderEntryPortfolio.step formats api settings e)
      (asks formats api settings .orderEntryPortfolio client e) := by
  cases e with
  | connectionStatus | openOrder | tradesAck | sessionLogon => cases he
  | getAccountBalance | getAccountStatus | getPosition | getOpenOrders => exact puts_sendPlain _ _ _
  | getOrder => exact puts_sendQuery _ _ _ _ (List.cons_ne_nil _ _)
  | getTrades => exact puts_getTrades settings _ _ _
  | orderPlace =>
    simpa [asks, OrderEntryPortfolio.step] using puts_orderPlace api settings _ _ _ _ _
  | orderModify =>
    simpa [asks, OrderEntryPortfolio.step] using puts_orderModify settings _ _ _ _ _ _ _
  | orderCancel =>
    simpa [asks, OrderEntryPortfolio.step] using puts_orderCancel settings _ _ _ _
  | openOrdersCancelAll => exact puts_forEach _ _ _ _ _ _
  | countdownCancelAll => exact puts_skip

theorem puts_restTrade {e : Event} (he : e.ofStream = true) :
    Puts formats client (RestTrade.step formats api settings e)
      (asks formats api settings .restTrade client e) := by
  cases e with
  | connectionStatus | openOrder | tradesAck | sessionLogon => cases he
  | getOpenOrders => exact puts_sendPlain _ _ _
  | getOrder => exact puts_sendQuery _ _ _ _ (List.cons_ne_nil _ _)
  | getTrades => exact puts_modify fun _ => rfl
  | openOrdersCancelAll => exact puts_forEach _ _ _ _ _ _
  | orderPlace | orderModify | orderCancel | getAccountBalance | getAccountStatus | getPosition
  | countdownCancelAll => exact puts_skip

/-- A call puts out the requests that it asks for, in their order. -/
theorem puts_step (kind : RestStream.Kind) (e : Event) :
    Puts formats client (step formats api settings kind e) (asks formats api settings kind client e) := by
  cases he : e.ofStream with
  | true =>
    cases kind with
    | orderEntryClassic =>
      have hstep : step formats api settings .orderEntryClassic e
          = (OrderEntryClassic.step formats api settings e : Act primitives) := by
        cases e <;> first | rfl | cases he
      exact hstep ▸ puts_orderEntryClassic api settings he
    | orderEntryPortfolio =>
      have hstep : step formats api settings .orderEntryPortfolio e
          = (OrderEntryPortfolio.step formats api settings e : Act primitives) := by
        cases e <;> first | rfl | cases he
      exact hstep ▸ puts_orderEntryPortfolio api settings he
    | restTrade =>
      have hstep : step formats api settings .restTrade e
          = (RestTrade.step formats api settings e : Act primitives) := by
        cases e <;> first | rfl | cases he
      exact hstep ▸ puts_restTrade api settings he
  | false =>
    cases e with
    | connectionStatus | openOrder | tradesAck => exact puts_modify fun _ => rfl
    | sessionLogon => exact ⟨rfl, rfl⟩
    | _ => cases he

theorem puts_run (kind : RestStream.Kind) : ∀ (es : List Event) (client : Client primitives),
    Puts formats client (run (step formats api settings kind) es)
      (asksOf formats api settings kind es client)
  | [], _ => puts_skip
  | e :: es, _ => puts_seq (puts_step api settings kind e) (puts_run kind es _)

/-! ### Names -/

/-- The names of the parameters are among these, in this order. -/
def names : List String := ["symbol", "orderId", "origClientOrderId", "startTime", "endTime", "limit",
  "countdownTime", "side", "type", "quantity", "reduceOnly", "timeInForce", "price", "stopPrice",
  "selfTradePreventionMode", "newClientOrderId", "recvWindow"]

/-- Parameters as the encoder names them. -/
def Named (fields : Json.Fields) : Prop := (fields.map Prod.fst).Sublist names

/-- A parameter that is not always there. -/
theorem sublist_optional {p : Prop} [Decidable p] (field : String × Json.Value) :
    ((if p then [field] else []).map Prod.fst).Sublist [field.1] := by
  split <;> simp

theorem named_orderPlaceUrl (m : CreateOrder) (refData : RefData) (requestId : String) (recvWindow : ℕ)
    (selfTradePrevention : Json.SelfTradePrevention) :
    Named (Json.Encoder.orderPlaceUrl formats m refData requestId recvWindow selfTradePrevention) := by
  have hfront : ["symbol", "side", "type", "quantity", "reduceOnly"].Sublist
      (names.take 11) := by decide
  simp only [Named, Json.Encoder.orderPlaceUrl, List.map_append]
  refine (((hfront.append (?_ : List.Sublist _ ["timeInForce", "price"])).append
    (sublist_optional _)).append (sublist_optional _)).append
      (List.Sublist.refl ["newClientOrderId", "recvWindow"])
  cases m.orderType with
  | undefined | market => exact List.nil_sublist _
  | limit => exact List.Sublist.refl ["timeInForce", "price"]

theorem named_orderIdentity (order : Order) {fields : Json.Fields} (rest : List String)
    (hrest : (fields.map Prod.fst).Sublist rest)
    (h : (["symbol", "orderId", "origClientOrderId"] ++ rest).Sublist names) :
    Named (Json.Encoder.orderIdentity order ++ fields) := by
  have hidentity : ((Json.Encoder.orderIdentity order).map Prod.fst).Sublist
      ["symbol", "orderId", "origClientOrderId"] := by
    simp only [Json.Encoder.orderIdentity, List.map_append]
    exact ((List.Sublist.refl ["symbol"]).append (sublist_optional _)).append (List.Sublist.refl _)
  rw [Named, List.map_append]
  exact (hidentity.append hrest).trans h

theorem named_orderModifyUrl {m : ModifyOrder} {order : Order} {refData : RefData} {recvWindow : ℕ}
    {orderModifyFull : Bool} {fields : Json.Fields}
    (h : Json.Encoder.orderModifyUrl formats m order refData recvWindow orderModifyFull = .ok fields) :
    Named fields := by
  simp only [Json.Encoder.orderModifyUrl] at h
  split at h
  · obtain rfl := Except.ok.inj h
    exact named_orderIdentity order ["side", "quantity", "price", "recvWindow"] (List.Sublist.refl _)
      (by decide)
  · split at h
    · obtain rfl := Except.ok.inj h
      exact named_orderIdentity order ["side", "quantity", "recvWindow"] (List.Sublist.refl _) (by decide)
    · split at h
      · obtain rfl := Except.ok.inj h
        exact named_orderIdentity order ["side", "price", "recvWindow"] (List.Sublist.refl _) (by decide)
      · cases h

/-- Everything that is asked is named. -/
theorem named_asks {kind : RestStream.Kind} {e : Event} {a : Asked}
    (h : a ∈ asks formats api settings kind client e) : Named a.fields := by
  have hplain : ∀ now, Named (Asked.plain now).fields := fun _ => List.nil_sublist _
  cases e with
  | connectionStatus | openOrder | tradesAck | sessionLogon => cases h
  | getAccountBalance now | getAccountStatus now =>
    obtain rfl : a = .plain now := by
      simp only [asks] at h
      split at h <;> simp_all
    exact hplain now
  | getPosition now =>
    obtain rfl : a = .plain now := by
      simp only [asks] at h
      split at h <;> simp_all
    exact hplain now
  | getOpenOrders now =>
    obtain rfl := List.mem_singleton.mp h
    exact hplain now
  | getOrder =>
    obtain rfl := List.mem_singleton.mp h
    show List.Sublist ["symbol", "origClientOrderId", "recvWindow"] names
    decide
  | getTrades =>
    simp only [asks] at h
    split at h
    · cases h
    · obtain ⟨symbol, -, rfl⟩ := List.mem_map.mp h
      show List.Sublist ["symbol", "startTime", "endTime", "limit", "recvWindow"] names
      decide
  | orderPlace =>
    simp only [asks] at h
    split at h
    · obtain rfl := List.mem_singleton.mp h
      exact named_orderPlaceUrl _ _ _ _ _
    · cases h
  | orderModify =>
    simp only [asks] at h
    split at h
    · split at h
      next fields hfields =>
        obtain rfl := List.mem_singleton.mp h
        exact named_orderModifyUrl hfields
      next => cases h
    · cases h
  | orderCancel =>
    simp only [asks] at h
    split at h
    · obtain rfl := List.mem_singleton.mp h
      exact named_orderIdentity _ ["recvWindow"] (List.Sublist.refl _) (by decide)
    · cases h
  | openOrdersCancelAll =>
    obtain ⟨symbol, -, rfl⟩ := List.mem_map.mp h
    show List.Sublist ["symbol", "recvWindow"] names
    decide
  | countdownCancelAll =>
    simp only [asks] at h
    split at h
    · obtain ⟨symbol, -, rfl⟩ := List.mem_map.mp h
      show List.Sublist ["symbol", "countdownTime", "recvWindow"] names
      decide
    · cases h

theorem named_asksOf {kind : RestStream.Kind} {a : Asked} : ∀ {es : List Event}
    {client : Client primitives}, a ∈ asksOf formats api settings kind es client → Named a.fields
  | [], _, h => by cases h
  | _ :: _, _, h => (List.mem_append.mp h).elim (named_asks api settings) named_asksOf

/-! ### Readings -/

theorem safe_names : ∀ name ∈ names, ∀ c ∈ name.toList, Form.isSafe c = true := by
  have hall : (names.all fun name => name.toList.all Form.isSafe) = true := by decide
  exact fun name hname => List.all_eq_true.mp (List.all_eq_true.mp hall name hname)

/-- The parameters are clean where their values are plain. -/
theorem clean_formatted_iff {fields : Json.Fields} (hnamed : Named fields) :
    (∀ field ∈ fields.formatted formats, Form.Clean field) ↔
      ∀ field ∈ fields, '&' ∉ (field.2.format formats).toList ∧
        Form.Literal (field.2.format formats).toList := by
  have hfield : ∀ field ∈ fields, (Form.Clean (field.1.toList, (field.2.format formats).toList) ↔
      '&' ∉ (field.2.format formats).toList ∧ Form.Literal (field.2.format formats).toList) :=
    fun field hmem => Form.clean_iff (safe_names _ (hnamed.subset (List.mem_map_of_mem hmem)))
  rw [Json.Fields.formatted, List.forall_mem_map]
  exact forall₂_congr hfield

/-- The timestamp and the signature are always clean. -/
theorem clean_stamps (hhex : primitives.Hexadecimal) (a : Asked) :
    ∀ field ∈ a.stamps formats crypto, Form.Clean field := by
  have hname : ∀ name ∈ ["timestamp", "signature"], ∀ c ∈ name.toList, Form.isSafe c = true := by
    have hall : (["timestamp", "signature"].all fun name => name.toList.all Form.isSafe) = true := by
      decide
    exact fun name hname => List.all_eq_true.mp (List.all_eq_true.mp hall name hname)
  intro field hfield
  simp only [Asked.stamps, List.mem_cons, List.not_mem_nil, or_false] at hfield
  rcases hfield with rfl | rfl
  · exact Form.clean_of_safe (hname "timestamp" (by simp)) fun c hc =>
      Form.isSafe_of_isDigit (Document.isDigit_of_mem_repr hc)
  · exact Form.clean_of_safe (hname "signature" (by simp)) (hhex.safe _)

theorem readWire_wire_iff (hhex : primitives.Hexadecimal) {a : Asked} (hnamed : Named a.fields) :
    readWire (a.wire formats crypto) = a.reading formats crypto ↔ a.Plain formats := by
  have hclean : ∀ field ∈ a.stamps formats crypto, Form.Clean field := clean_stamps hhex a
  have hstamps : Form.readAll (Query.render (a.stamps formats crypto)) = a.stamps formats crypto :=
    (Form.readAll_render_iff _).mpr hclean
  cases a with
  | plain now =>
    refine iff_of_true ?_ fun field hfield => by cases hfield
    exact congrArg (· ++ []) hstamps
  | query now fields =>
    have hplain : (∀ field ∈ fields.formatted formats, Form.Clean field) ↔
        (Asked.query now fields).Plain formats := clean_formatted_iff hnamed
    have hread := Form.readAll_render_iff
      (fields.formatted formats ++ (Asked.query now fields).stamps formats crypto)
    rw [List.forall_mem_append, and_iff_left hclean, hplain] at hread
    simpa [Asked.reading, readWire, Asked.wire, Asked.target, Asked.content, Form.readAll,
      Query.render] using hread
  | body now fields =>
    have hplain : (∀ field ∈ fields.formatted formats, Form.Clean field) ↔
        (Asked.body now fields).Plain formats := clean_formatted_iff hnamed
    simp only [Asked.reading, readWire, Asked.wire, Asked.target, Asked.content, hstamps,
      List.append_cancel_left_eq]
    exact (Form.readAll_render_iff _).trans hplain

/-- No parameter is there twice. -/
theorem nodup_reading {a : Asked} (hnamed : Named a.fields) :
    ((a.reading formats crypto).map Prod.fst).Nodup := by
  have hfields : ((a.fields.formatted formats).map Prod.fst).Sublist (names.map String.toList) := by
    have hsublist := hnamed.map String.toList
    rw [List.map_map] at hsublist
    rw [Json.Fields.formatted, List.map_map]
    exact hsublist
  have hstamps : (a.stamps formats crypto).map Prod.fst
      = ["timestamp", "signature"].map String.toList := rfl
  have hbefore : (["timestamp", "signature"].map String.toList ++ names.map String.toList).Nodup := by
    decide
  have hbehind : (names.map String.toList ++ ["timestamp", "signature"].map String.toList).Nodup := by
    decide
  cases a with
  | plain now =>
    simp only [Asked.reading, Asked.target, Asked.content, List.append_nil, hstamps]
    exact (List.sublist_append_left _ _).nodup hbefore
  | query now fields =>
    simp only [Asked.reading, Asked.target, Asked.content, List.append_nil, List.map_append, hstamps]
    exact (hfields.append (List.Sublist.refl _)).nodup hbehind
  | body now fields =>
    simp only [Asked.reading, Asked.target, Asked.content, List.map_append, hstamps]
    exact ((List.Sublist.refl _).append hfields).nodup hbefore

variable (formats)

/-- EXACT: of the requests that a run sends, of whichever class, the exchange reads the parameters as they
    are, with the timestamp and the signature, if and only if nothing that was handed to the encoder
    splits or is decoded to something else. No parameter is there twice. -/
theorem understood_run (hhex : primitives.Hexadecimal) (kind : RestStream.Kind)
    (client : Client primitives) (es : List Event) :
    let sent := (run (step formats api settings kind) es client).2.filterMap Output.request?
    let asked := asksOf formats api settings kind es client
    (sent.map received = asked.map (·.reading formats client.crypto) ↔ ∀ a ∈ asked, a.Plain formats) ∧
    ∀ a ∈ asked, ((a.reading formats client.crypto).map Prod.fst).Nodup := by
  intro sent asked
  have hnamed : ∀ a ∈ asked, Named a.fields := fun a ha => named_asksOf api settings ha
  refine ⟨?_, fun a ha => nodup_reading (hnamed a ha)⟩
  have hsent : sent.map received = asked.map fun a => readWire (a.wire formats client.crypto) := by
    have hputs : Puts formats client (run (step formats api settings kind) es) asked :=
      puts_run api settings kind es client
    have hmap := congrArg (List.map readWire) hputs.2
    rwa [List.map_map, List.map_map] at hmap
  rw [hsent, List.map_inj_left]
  exact forall₂_congr fun a ha => readWire_wire_iff hhex (hnamed a ha)

end

/-- A stream that is ready, and a cancel. -/
def keyed : Client .plain where
  crypto := { key := "key", pkey := (), mac := [] }
  connectionStatus := .ready

def canceled : List Event := [.orderCancel 5000000
  { userId := 7, orderId := 1, symbol := "BTCUSDT", clientOrderId := "c1" } "r1"]

theorem understood_canceled :
    ((run (step .standard (.usdMFutures .undefinedInternal) {} .orderEntryClassic) canceled keyed).2.filterMap
        Output.request?).map received
      = (asksOf .standard (.usdMFutures .undefinedInternal) {} .orderEntryClassic canceled keyed).map
        (·.reading .standard keyed.crypto) := by
  refine (understood_run .standard (.usdMFutures .undefinedInternal) {} Primitives.hexadecimal_plain
    .orderEntryClassic keyed canceled).1.mpr fun a ha => ?_
  obtain rfl := List.mem_singleton.mp ha
  have hall : ∀ field ∈ Json.Encoder.orderCancelUrl
      { userId := 7, orderId := 1, symbol := "BTCUSDT", clientOrderId := "c1" } (recvWindow {}),
      '&' ∉ (field.2.format .standard).toList ∧ '+' ∉ (field.2.format .standard).toList ∧
        '%' ∉ (field.2.format .standard).toList := by decide
  intro field hfield
  obtain ⟨hseparator, hplus, hpercent⟩ := hall field hfield
  exact ⟨hseparator, Form.literal_of_notMem hplus hpercent⟩

end Client

end BinanceFutures
