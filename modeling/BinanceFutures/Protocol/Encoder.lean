import BinanceFutures.Protocol.Json
import BinanceFutures.Protocol.WsapiRequest
import BinanceFutures.Schemes.Form

/-! # Encoder

    The texts of the order requests: a query string for the REST streams, a JSON message for the
    WebSocket API. A text is its parameters in their order, and a value stays what it is until the text
    is rendered.

        create ─▶ order_place_url   order_place_json
        modify ─▶ order_modify_url  order_modify_json
        cancel ─▶ order_cancel_url  order_cancel_json
        others ─▶ query strings     session_logon_json

    Under `order_modify_full` (fapi) a modify names quantity and price, without it (dapi) the one of them
    that changes. -/

namespace BinanceFutures.Json

/-- What belongs to the client library, or is generated: how a `Decimal` is formatted,
    `utils::is_equal`, and the raw texts of the two members that every enumeration of the exchange has
    of its own. -/
structure Formats where
  decimal : Double → Precision → String
  isEqual : Double → Double → Bool
  undefinedInternal : String
  unknownInternal : String
  decimal_ne : ∀ x precision, decimal x precision ≠ ""

/-- The natural numbers as they are, everything else as NaN; nothing but equal numbers is equal. -/
def Formats.standard : Formats where
  decimal
    | some x, _ => if x = x.num.toNat then toString x.num.toNat else "nan"
    | none, _ => "nan"
  isEqual x y := x = y && x ≠ nan
  undefinedInternal := ""
  unknownInternal := ""
  decimal_ne x precision := by
    have hnan : "nan" ≠ "" := by decide
    cases x with
    | none => exact hnan
    | some x =>
      dsimp only
      split
      · exact Nat.repr_ne_empty
      · exact hnan

/-- A value, as it is handed to `fmt::format_to`. -/
inductive Value where
  | text (s : String)
  | decimal (x : Double) (precision : Precision)
  | flag (b : Bool)
  | count (n : ℕ)
  /-- The text of an integer. -/
  | integer (s : String)
  deriving DecidableEq

/-- Names and values. -/
abbrev Fields := List (String × Value)

section
variable (formats : Formats)

/-! ### `as_raw_text` -/

def Side.asRawText : Side → String
  | .undefinedInternal => formats.undefinedInternal
  | .unknownInternal => formats.unknownInternal
  | .buy => "BUY"
  | .sell => "SELL"

def OrderType.asRawText : OrderType → String
  | .undefinedInternal => formats.undefinedInternal
  | .unknownInternal => formats.unknownInternal
  | .market => "MARKET"
  | .limit => "LIMIT"
  | .stop => "STOP"
  | .takeProfit => "TAKE_PROFIT"
  | .liquidation => "LIQUIDATION"

def TimeInForce.asRawText : TimeInForce → String
  | .undefinedInternal => formats.undefinedInternal
  | .unknownInternal => formats.unknownInternal
  | .gtc => "GTC"
  | .ioc => "IOC"
  | .fok => "FOK"
  | .gtx => "GTX"
  | .otc => "OTC"
  | .rpi => "RPI"

def SelfTradePrevention.asRawText : SelfTradePrevention → String
  | .undefinedInternal => formats.undefinedInternal
  | .unknownInternal => formats.unknownInternal
  | .none => "NONE"
  | .expireMaker => "EXPIRE_MAKER"
  | .expireTaker => "EXPIRE_TAKER"
  | .expireBoth => "EXPIRE_BOTH"

/-! ### Rendering -/

/-- What the format makes of a value. -/
def Value.format : Value → String
  | .text s => s
  | .decimal x precision => formats.decimal x precision
  | .flag b => if b then "true" else "false"
  | .count n => toString n
  | .integer s => s

/-- A value in a JSON object: integers stand without quotes. -/
def Value.json (v : Value) : String :=
  match v with
  | .count _ | .integer _ => v.format formats
  | .text _ | .decimal .. | .flag _ => "\"" ++ v.format formats ++ "\""

/-- The parameters as `Query` has them. -/
def Fields.formatted (fields : Fields) : List (List Char × List Char) :=
  fields.map fun field => (field.1.toList, (field.2.format formats).toList)

/-- The query string. -/
def Fields.query (fields : Fields) : String :=
  String.ofList (Query.render (Fields.formatted formats fields))

/-- A message to the WebSocket API; the timestamp stands behind the other parameters. -/
structure Message where
  id : String
  method : String
  params : Fields
  timestamp : ℕ

def Message.text (m : Message) : String :=
  let members := m.params.map fun field => "\"" ++ field.1 ++ "\":" ++ field.2.json formats
  "\x7b\"id\":\"" ++ m.id ++ "\",\"method\":\"" ++ m.method ++ "\",\"params\":\x7b"
    ++ ",".intercalate members ++ ",\"timestamp\":" ++ toString m.timestamp ++ "\x7d\x7d"

/-- The message that opens a session; every parameter stands where the encoder puts it. -/
structure SessionLogon where
  id : String
  params : Fields
  deriving DecidableEq

def SessionLogon.text (m : SessionLogon) : String :=
  let members := m.params.map fun field => "\"" ++ field.1 ++ "\":" ++ field.2.json formats
  "\x7b\"id\":\"" ++ m.id ++ "\",\"method\":\"session.logon\",\"params\":\x7b"
    ++ ",".intercalate members ++ "\x7d\x7d"

/-! ### `Encoder` -/

/-- `get_order_id` -/
def getOrderId (externalOrderId : String) : String :=
  if '#' ∈ externalOrderId.toList then
    String.ofList (externalOrderId.toList.dropWhile (· ≠ '#')).tail
  else externalOrderId

namespace Encoder

/-- `user_trades_url` -/
def userTradesUrl (symbol : String) (startTime : ℤ) (endTime limit recvWindow : ℕ) : Fields :=
  [("symbol", .text symbol), ("startTime", .integer (toString startTime)), ("endTime", .count endTime),
    ("limit", .count limit), ("recvWindow", .count recvWindow)]

/-- `order_place_url` -/
def orderPlaceUrl (m : CreateOrder) (refData : RefData) (requestId : String) (recvWindow : ℕ)
    (selfTradePrevention : SelfTradePrevention) : Fields :=
  let timeInForce := mapTimeInForce m.timeInForce m.executionInstructions m.executionDestination
  [("symbol", .text m.symbol),
    ("side", .text ((mapSide m.side).asRawText formats)),
    ("type", .text ((mapOrderType m.orderType).asRawText formats)),
    ("quantity", .decimal m.quantity refData.quantityPrecision),
    ("reduceOnly", .flag (.doNotIncrease ∈ m.executionInstructions))] ++
  (match m.orderType with
    | .undefined | .market => []
    | .limit => [("timeInForce", .text (timeInForce.asRawText formats)),
        ("price", .decimal m.price refData.pricePrecision)]) ++
  (if m.stopPrice ≠ nan then [("stopPrice", .decimal m.stopPrice refData.pricePrecision)] else []) ++
  (if selfTradePrevention ≠ .undefinedInternal then
    [("selfTradePreventionMode", .text (selfTradePrevention.asRawText formats))] else []) ++
  [("newClientOrderId", .text requestId), ("recvWindow", .count recvWindow)]

/-- `order_place_json` -/
def orderPlaceJson (m : CreateOrder) (refData : RefData) (requestId : String)
    (recvWindow nowUtc : ℕ) (id : String) (selfTradePrevention : SelfTradePrevention) : Message :=
  let timeInForce := mapTimeInForce m.timeInForce m.executionInstructions m.executionDestination
  { id, method := "order.place", timestamp := nowUtc
    params :=
      [("newClientOrderId", .text requestId),
        ("symbol", .text m.symbol),
        ("side", .text ((mapSide m.side).asRawText formats)),
        ("type", .text ((mapOrderType m.orderType).asRawText formats)),
        ("reduceOnly", .flag (.doNotIncrease ∈ m.executionInstructions)),
        ("quantity", .decimal m.quantity refData.quantityPrecision)] ++
      (if timeInForce ≠ .undefinedInternal then
        [("timeInForce", .text (timeInForce.asRawText formats))] else []) ++
      (if m.price ≠ nan then [("price", .decimal m.price refData.pricePrecision)] else []) ++
      (if m.stopPrice ≠ nan then [("stopPrice", .decimal m.stopPrice refData.pricePrecision)]
        else []) ++
      (if selfTradePrevention ≠ .undefinedInternal then
        [("selfTradePreventionMode", .text (selfTradePrevention.asRawText formats))] else []) ++
      [("recvWindow", .count recvWindow)] }

/-- The order that a query string is about: its symbol, the exchange's id if that is known, and the
    client's. -/
def orderIdentity (order : BinanceFutures.Order) : Fields :=
  [("symbol", .text order.symbol)] ++
  (if order.externalOrderId ≠ "" then [("orderId", .integer (getOrderId order.externalOrderId))]
    else []) ++
  [("origClientOrderId", .text order.clientOrderId)]

/-- The value of the request, or that of the order where the request has none. -/
def valueOr (value last : Double) : Double := if value = nan then last else value

/-- `helper` of `order_modify_url`: the value of the request where it changes the order. -/
def changed (value last : Double) : Double :=
  if value ≠ nan ∧ formats.isEqual value last = false then value else nan

/-- `order_modify_url` -/
def orderModifyUrl (m : ModifyOrder) (order : BinanceFutures.Order) (refData : RefData) (recvWindow : ℕ)
    (orderModifyFull : Bool) : Except Exn Fields :=
  let side : String × Value := ("side", .text ((mapSide order.side).asRawText formats))
  if orderModifyFull then  -- fapi
    .ok (orderIdentity order ++
      [side,
        ("quantity", .decimal (valueOr m.quantity order.quantity) refData.quantityPrecision),
        ("price", .decimal (valueOr m.price order.price) refData.pricePrecision),
        ("recvWindow", .count recvWindow)])
  else  -- dapi
    let quantity := changed formats m.quantity order.quantity
    let price := changed formats m.price order.price
    if quantity ≠ nan ∧ price = nan then
      .ok (orderIdentity order ++
        [side, ("quantity", .decimal m.quantity refData.quantityPrecision),
          ("recvWindow", .count recvWindow)])
    else if quantity = nan ∧ price ≠ nan then
      .ok (orderIdentity order ++
        [side, ("price", .decimal m.price refData.pricePrecision), ("recvWindow", .count recvWindow)])
    else .error (.rejected .invalidRequestArgs "Missing quantity or price")

/-- `order_cancel_url` -/
def orderCancelUrl (order : BinanceFutures.Order) (recvWindow : ℕ) : Fields :=
  orderIdentity order ++ [("recvWindow", .count recvWindow)]

/-- `all_open_orders_url` -/
def allOpenOrdersUrl (symbol : String) (recvWindow : ℕ) : Fields :=
  [("symbol", .text symbol), ("recvWindow", .count recvWindow)]

/-- `get_order_url`: note! we can't use external_order_id because we added a prefix -/
def getOrderUrl (symbol clientOrderId : String) (recvWindow : ℕ) : Fields :=
  [("symbol", .text symbol), ("origClientOrderId", .text clientOrderId),
    ("recvWindow", .count recvWindow)]

/-- `countdown_cancel_open_orders_url` -/
def countdownCancelOpenOrdersUrl (symbol : String) (countdownTime recvWindow : ℕ) : Fields :=
  [("symbol", .text symbol), ("countdownTime", .count countdownTime), ("recvWindow", .count recvWindow)]

/-- `session_logon_json` -/
def sessionLogonJson (apiKey : String) (nowUtc recvWindow : ℕ) (signature id : String) : SessionLogon where
  id := id
  params := [("apiKey", .text apiKey), ("timestamp", .count nowUtc), ("recvWindow", .count recvWindow),
    ("signature", .text signature)]

/-- The id in a message: the exchange's, or the client's where that is not known or is forced. -/
def messageIdentity (order : BinanceFutures.Order) (forceClientOrderId : Bool) : Fields :=
  if order.externalOrderId = "" ∨ forceClientOrderId then
    [("origClientOrderId", .text order.clientOrderId)]
  else [("orderId", .integer (getOrderId order.externalOrderId))]

/-- `order_modify_json`: note! both quantity and price must be sent (different from dapi/rest) -/
def orderModifyJson (m : ModifyOrder) (order : BinanceFutures.Order) (refData : RefData) (recvWindow nowUtc : ℕ)
    (id : String) : Message where
  id := id
  method := "order.modify"
  params :=
    [("symbol", .text order.symbol), ("side", .text ((mapSide order.side).asRawText formats))] ++
    messageIdentity order false ++
    [("quantity", .decimal (valueOr m.quantity order.quantity) refData.quantityPrecision),
      ("price", .decimal (valueOr m.price order.price) refData.pricePrecision),
      ("recvWindow", .count recvWindow)]
  timestamp := nowUtc

/-- `order_cancel_json` -/
def orderCancelJson (order : BinanceFutures.Order) (recvWindow nowUtc : ℕ) (id : String) (forceClientOrderId : Bool) :
    Message where
  id := id
  method := "order.cancel"
  params :=
    [("symbol", .text order.symbol)] ++ messageIdentity order forceClientOrderId ++
    [("recvWindow", .count recvWindow)]
  timestamp := nowUtc

end Encoder

/-- A modify of the repository's tests. -/
example :
    (Encoder.orderModifyUrl .standard
        { account := "A1", orderId := 1234, version := 0, quantity := some 1, price := some 2 }
        { userId := 0, orderId := 0, symbol := "BTC", side := .buy, clientOrderId := "",
          externalOrderId := "oid:1234", quantity := some 1, price := some 1 } {} 5000 false).map
        (Fields.query .standard)
      = .ok "symbol=BTC&orderId=oid:1234&origClientOrderId=&side=BUY&price=2&recvWindow=5000" := by
  decide

end

end BinanceFutures.Json
