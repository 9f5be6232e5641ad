import BinanceFutures.Gateway.Correlation
import BinanceFutures.Gateway.Session
import BinanceFutures.Protocol.Envelope

/-! # Outgoing

    The nine requests of `WebSocket`, each with what it hands to the encoder. The exchange reads the id
    from the text and puts it into its answer; from the answer the gateway unpacks the request.

        request ── encode, format ──▶ text ── parse ──▶ id, method, params
           ▲                                            │
           └────────── decode, dispatch ◀── answer ◀────┘ -/

namespace BinanceFutures.WebSocket
open Json

/-- A request, and what the encoder is handed besides the id. -/
inductive Outgoing where
  | sessionLogon (apiKey : String) (nowUtc recvWindow : ℕ) (signature : String)
  | userDataStreamStart (apiKey : String)
  | userDataStreamPing (apiKey : String)
  | accountBalance (nowUtc : ℕ)
  | accountStatus (nowUtc : ℕ)
  | accountPosition (nowUtc : ℕ)
  | orderPlace (userId : UserId) (m : CreateOrder) (refData : RefData) (requestId : String)
      (recvWindow nowUtc : ℕ) (selfTradePrevention : SelfTradePrevention)
  | orderModify (userId : UserId) (m : ModifyOrder) (order : BinanceFutures.Order) (refData : RefData)
      (recvWindow nowUtc : ℕ)
  | orderCancel (userId : UserId) (m : CancelOrder) (order : BinanceFutures.Order)
      (recvWindow nowUtc : ℕ) (forceClientOrderId : Bool)

namespace Outgoing

/-- The request as the stream remembers it. -/
def call : Outgoing → Call
  | sessionLogon .. => .sessionLogon
  | userDataStreamStart _ => .userDataStreamStart
  | userDataStreamPing _ => .userDataStreamPing
  | accountBalance _ => .accountBalance
  | accountStatus _ => .accountStatus
  | accountPosition _ => .accountPosition
  | orderPlace userId m .. => .orderPlace m.symbol userId m.orderId 1
  | orderModify userId m .. => .orderModify userId m.orderId m.version
  | orderCancel userId m .. => .orderCancel userId m.orderId m.version

/-- What the exchange calls a request of the type. -/
def method : Call → String
  | .sessionLogon => "session.logon"
  | .userDataStreamStart => "userDataStream.start"
  | .userDataStreamPing => "userDataStream.ping"
  | .accountBalance => "account.balance"
  | .accountStatus => "account.status"
  | .accountPosition => "account.position"
  | .orderPlace .. => "order.place"
  | .orderModify .. => "order.modify"
  | .orderCancel .. => "order.cancel"

variable (formats : Formats)

/-- The message under an id. -/
def envelope (id : String) : Outgoing → Envelope
  | sessionLogon apiKey nowUtc recvWindow signature =>
    (Encoder.sessionLogonJson apiKey nowUtc recvWindow signature id).envelope
  | userDataStreamStart apiKey => Encoder.userDataStreamStartJson apiKey id
  | userDataStreamPing apiKey => Encoder.userDataStreamPingJson apiKey id
  | accountBalance nowUtc => Encoder.accountBalanceJson nowUtc id
  | accountStatus nowUtc => Encoder.accountStatusJson nowUtc id
  | accountPosition nowUtc => Encoder.accountPositionJson nowUtc id
  | orderPlace _ m refData requestId recvWindow nowUtc selfTradePrevention =>
    (Encoder.orderPlaceJson formats m refData requestId recvWindow nowUtc id
      selfTradePrevention).envelope
  | orderModify _ m order refData recvWindow nowUtc =>
    (Encoder.orderModifyJson formats m order refData recvWindow nowUtc id).envelope
  | orderCancel _ _ order recvWindow nowUtc forceClientOrderId =>
    (Encoder.orderCancelJson order recvWindow nowUtc id forceClientOrderId).envelope

/-- The text that goes out. -/
def text (id : String) : Outgoing → String
  | sessionLogon apiKey nowUtc recvWindow signature =>
    (Encoder.sessionLogonJson apiKey nowUtc recvWindow signature id).text formats
  | userDataStreamStart apiKey => (Encoder.userDataStreamStartJson apiKey id).text formats
  | userDataStreamPing apiKey => (Encoder.userDataStreamPingJson apiKey id).text formats
  | accountBalance nowUtc => (Encoder.accountBalanceJson nowUtc id).text formats
  | accountStatus nowUtc => (Encoder.accountStatusJson nowUtc id).text formats
  | accountPosition nowUtc => (Encoder.accountPositionJson nowUtc id).text formats
  | orderPlace _ m refData requestId recvWindow nowUtc selfTradePrevention =>
    (Encoder.orderPlaceJson formats m refData requestId recvWindow nowUtc id
      selfTradePrevention).text formats
  | orderModify _ m order refData recvWindow nowUtc =>
    (Encoder.orderModifyJson formats m order refData recvWindow nowUtc id).text formats
  | orderCancel _ _ order recvWindow nowUtc forceClientOrderId =>
    (Encoder.orderCancelJson order recvWindow nowUtc id forceClientOrderId).text formats

/-- The parameters; they do not depend on the id. -/
def params (outgoing : Outgoing) : Fields := (outgoing.envelope formats "").params

theorem envelope_eq (id : String) (outgoing : Outgoing) :
    outgoing.envelope formats id = ⟨id, method outgoing.call, outgoing.params formats⟩ := by
  cases outgoing <;> rfl

theorem text_eq (id : String) (outgoing : Outgoing) :
    outgoing.text formats id = (outgoing.envelope formats id).text formats := by
  cases outgoing with
  | sessionLogon apiKey nowUtc recvWindow signature => exact text_sessionLogon formats _
  | orderPlace userId m refData requestId recvWindow nowUtc selfTradePrevention =>
    exact text_message formats (by simp [Encoder.orderPlaceJson])
  | orderModify userId m order refData recvWindow nowUtc =>
    exact text_message formats (by simp [Encoder.orderModifyJson])
  | orderCancel userId m order recvWindow nowUtc forceClientOrderId =>
    exact text_message formats (by simp [Encoder.orderCancelJson])
  | userDataStreamStart _ | userDataStreamPing _ | accountBalance _ | accountStatus _
  | accountPosition _ => rfl

/-! ### Names -/

/-- The names of the parameters are among these, in this order. -/
def names : Call → List String
  | .sessionLogon => ["apiKey", "timestamp", "recvWindow", "signature"]
  | .userDataStreamStart | .userDataStreamPing => ["apiKey"]
  | .accountBalance | .accountStatus | .accountPosition => ["timestamp"]
  | .orderPlace .. => ["newClientOrderId", "symbol", "side", "type", "reduceOnly", "quantity",
      "timeInForce", "price", "stopPrice", "selfTradePreventionMode", "recvWindow", "timestamp"]
  | .orderModify .. => ["symbol", "side", "origClientOrderId", "orderId", "quantity", "price",
      "recvWindow", "timestamp"]
  | .orderCancel .. => ["symbol", "origClientOrderId", "orderId", "recvWindow", "timestamp"]

theorem names_sublist (outgoing : Outgoing) :
    List.Sublist ((outgoing.params formats).map Prod.fst) (names outgoing.call) := by
  cases outgoing with
  | orderPlace userId m refData requestId recvWindow nowUtc selfTradePrevention =>
    have hoptional : ∀ {p : Prop} [Decidable p] (field : String × Value),
        List.Sublist ((if p then [field] else []).map Prod.fst) [field.1] := by
      intro p _ field
      split <;> simp
    have hfront := List.Sublist.refl
      ["newClientOrderId", "symbol", "side", "type", "reduceOnly", "quantity"]
    simp only [params, envelope, Message.envelope, Encoder.orderPlaceJson, List.map_append]
    exact (((((hfront.append (hoptional _)).append (hoptional _)).append (hoptional _)).append
      (hoptional _)).append (List.Sublist.refl ["recvWindow"])).append (List.Sublist.refl ["timestamp"])
  | orderModify userId m order refData recvWindow nowUtc =>
    simp only [params, envelope, Message.envelope, Encoder.orderModifyJson, Encoder.messageIdentity,
      names, call]
    split <;> simp
  | orderCancel userId m order recvWindow nowUtc forceClientOrderId =>
    simp only [params, envelope, Message.envelope, Encoder.orderCancelJson, Encoder.messageIdentity,
      names, call]
    split <;> simp
  | _ => exact List.Sublist.refl _

/-- No parameter is there twice. -/
theorem nodup_names (outgoing : Outgoing) : ((outgoing.params formats).map Prod.fst).Nodup :=
  (names_sublist formats outgoing).nodup (by cases outgoing.call <;> simp [names])

theorem plain_name {outgoing : Outgoing} {field : String × Value}
    (h : field ∈ outgoing.params formats) : ∀ c ∈ field.1.toList, Document.isPlain c = true := by
  have hall : ∀ name ∈ names outgoing.call, ∀ c ∈ name.toList, Document.isPlain c = true := by
    refine Document.plain_names ?_
    cases outgoing.call <;> simp only [names] <;> decide
  exact hall _ ((names_sublist formats outgoing).subset (List.mem_map_of_mem h))

/-! ### On the wire and back -/

/-- The values that are handed to the encoder do not end early, and are numbers where they should be. -/
def Plain (outgoing : Outgoing) : Prop :=
  ∀ field ∈ outgoing.params formats, (field.2.document formats).Clean

theorem plain_digit {c : Char} (h : Octets.IsDigit c) : Document.isPlain c = true := by
  have hall : ∀ i < 64, Document.isPlain (Octets.digit i) = true := by decide
  obtain ⟨d, hd⟩ := Octets.value_of_isDigit h
  obtain ⟨hlt, rfl⟩ := Octets.digit_value hd
  exact hall d hlt

theorem plain_method (call : Call) : ∀ c ∈ (method call).toList, Document.isPlain c = true := by
  refine Document.plain_text ?_
  cases call <;> simp only [method] <;> decide

theorem plain_params_iff (outgoing : Outgoing) :
    (outgoing.params formats).Plain formats ↔ outgoing.Plain formats := by
  rw [plain_iff]
  exact ⟨fun h field hfield => (h field hfield).2,
    fun h field hfield => ⟨plain_name formats hfield, h field hfield⟩⟩

/-- EXACT: of every request the exchange reads the id, the method and the parameters as they are, none of
    them twice, if and only if what was handed to the encoder does not end early. The answer to the id
    that it has read calls the handler of the request, with the request. -/
theorem received_iff (numbering : Numbering) (scanner : Scanner)
    (hcodec : scanner.toCodec = numbering.base64) (outgoing : Outgoing) (sequence : UInt32) :
    let request := { outgoing.call.request with sequence }
    let id := WSAPIRequest.encode scanner.toCodec request
    let text := outgoing.text formats (String.ofList id)
    (received text = some (id, (method outgoing.call).toList, (outgoing.params formats).document formats)
      ↔ outgoing.Plain formats) ∧
    ((outgoing.params formats).map Prod.fst).Nodup ∧
    (outgoing.Plain formats → ∀ (reply : Reply) (arrangement : Arrangement) (allow : Bool),
      (received text).map (fun r => WSAPIParser.dispatch scanner allow (reply.message r.1 arrangement))
        = some (some [request])) := by
  intro request id text
  have hid : ∀ c ∈ id, Document.isPlain c = true := by
    intro c hc
    refine plain_digit ((WSAPIRequest.roundtrip numbering).2.1 request |>.2 c ?_)
    rwa [← hcodec]
  have hiff : received text = some (id, (method outgoing.call).toList,
      (outgoing.params formats).document formats) ↔ outgoing.Plain formats := by
    have h := received_text_iff formats (outgoing.envelope formats (String.ofList id))
    rw [← text_eq, envelope_eq, String.toList_ofList, plain_params_iff] at h
    exact h.trans ⟨fun h => h.2.2, fun h => ⟨hid, plain_method _, h⟩⟩
  refine ⟨hiff, nodup_names formats outgoing, fun hplain reply arrangement allow => ?_⟩
  obtain ⟨hundefined, hunknown⟩ := type_request outgoing.call
  have hdispatch := WSAPIParser.dispatch_message scanner allow reply arrangement
    (WSAPIRequest.decode_encode scanner.toCodec request) hundefined hunknown
  rw [hiff.mpr hplain, Option.map_some, hdispatch]

/-- A cancel comes back as it went out. -/
theorem received_cancel :
    (received ((orderCancel 7 { account := "A1", orderId := 1, version := 2 }
        { userId := 7, orderId := 1, symbol := "BTCUSDT", clientOrderId := "c1" } 5000 9 false).text
          .standard (String.ofList (WSAPIRequest.encode Scanner.standard.toCodec
            { sequence := 3, type := .orderCancel, userId := 7, orderId := 1, version := 2 })))).map
        (fun r => WSAPIParser.dispatch .standard false (Reply.message ⟨200, .result {}⟩ r.1 inOrder))
      = some (some
        [{ sequence := 3, type := .orderCancel, userId := 7, orderId := 1, version := 2 }]) := by
  refine (received_iff .standard .standard .standard rfl
    (orderCancel 7 { account := "A1", orderId := 1, version := 2 }
      { userId := 7, orderId := 1, symbol := "BTCUSDT", clientOrderId := "c1" } 5000 9 false) 3).2.2
    ?_ _ _ _
  intro field hfield
  have hcases : field ∈ [("symbol", Value.text "BTCUSDT"), ("origClientOrderId", .text "c1"),
      ("recvWindow", .count 5000), ("timestamp", .count 9)] := hfield
  simp only [List.mem_cons, List.not_mem_nil, or_false] at hcases
  rcases hcases with rfl | rfl | rfl | rfl
  · exact (clean_document_iff _ _).mpr (Document.plain_text (by decide))
  · exact (clean_document_iff _ _).mpr (Document.plain_text (by decide))
  · exact (clean_document_iff _ _).mpr trivial
  · exact (clean_document_iff _ _).mpr trivial

end Outgoing

end BinanceFutures.WebSocket
