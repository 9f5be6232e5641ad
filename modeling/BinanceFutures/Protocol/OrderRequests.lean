import BinanceFutures.Protocol.Encoder

/-! # Order requests on both transports

    What the encoders of `order_place`, `order_modify` and `order_cancel` owe to each other: the same
    client request means the same to the exchange, whether it goes out as a query string or as a message,
    and what cannot be encoded is rejected.

        CreateOrder ──▶ symbol=…&side=…&type=…        ─┐
                    ──▶ {"symbol":…,"side":…,…}       ─┴─ the same parameters, if placeable
        ModifyOrder ──▶ orderId=…&origClientOrderId=… ─┐
                    ──▶ {"orderId":…}                 ─┴─ the same order -/

namespace BinanceFutures.Json

section
variable (formats : Formats)

/-! ### The same order on both transports -/

/-- Both say the same about the order, and give no empty value. -/
structure SameParameters (url json : Fields) : Prop where
  same : ∀ field, field ∈ url ↔ field ∈ json
  present : ∀ field ∈ url, field.2.format formats ≠ ""

/-- The order type asks for a time in force exactly if the mapped one is defined, and whatever is always
    sent has a text. -/
structure Placeable (m : CreateOrder) (requestId : String) (selfTradePrevention : SelfTradePrevention) :
    Prop where
  timeInForce : mapTimeInForce m.timeInForce m.executionInstructions m.executionDestination
    ≠ .undefinedInternal ↔ m.orderType = .limit
  symbol : m.symbol ≠ ""
  requestId : requestId ≠ ""
  side : (mapSide m.side).asRawText formats ≠ ""
  selfTradePrevention : selfTradePrevention ≠ .undefinedInternal →
    selfTradePrevention.asRawText formats ≠ ""

namespace Encoder

variable {formats} {m : CreateOrder} {refData : RefData} {requestId : String} {recvWindow nowUtc : ℕ}
  {id : String} {selfTradePrevention : SelfTradePrevention} {field : String × Value}

theorem mem_orderPlaceUrl :
    field ∈ orderPlaceUrl formats m refData requestId recvWindow selfTradePrevention ↔
      field = ("symbol", .text m.symbol) ∨
      field = ("side", .text ((mapSide m.side).asRawText formats)) ∨
      field = ("type", .text ((mapOrderType m.orderType).asRawText formats)) ∨
      field = ("quantity", .decimal m.quantity refData.quantityPrecision) ∨
      field = ("reduceOnly", .flag (.doNotIncrease ∈ m.executionInstructions)) ∨
      (m.orderType = .limit ∧
        (field = ("timeInForce", .text ((mapTimeInForce m.timeInForce m.executionInstructions
            m.executionDestination).asRawText formats)) ∨
          field = ("price", .decimal m.price refData.pricePrecision))) ∨
      (m.stopPrice ≠ nan ∧ field = ("stopPrice", .decimal m.stopPrice refData.pricePrecision)) ∨
      (selfTradePrevention ≠ .undefinedInternal ∧
        field = ("selfTradePreventionMode", .text (selfTradePrevention.asRawText formats))) ∨
      field = ("newClientOrderId", .text requestId) ∨ field = ("recvWindow", .count recvWindow) := by
  cases htype : m.orderType <;>
    simp [orderPlaceUrl, htype, or_assoc]

theorem mem_orderPlaceJson :
    field ∈ (orderPlaceJson formats m refData requestId recvWindow nowUtc id
        selfTradePrevention).params ↔
      field = ("newClientOrderId", .text requestId) ∨
      field = ("symbol", .text m.symbol) ∨
      field = ("side", .text ((mapSide m.side).asRawText formats)) ∨
      field = ("type", .text ((mapOrderType m.orderType).asRawText formats)) ∨
      field = ("reduceOnly", .flag (.doNotIncrease ∈ m.executionInstructions)) ∨
      field = ("quantity", .decimal m.quantity refData.quantityPrecision) ∨
      (mapTimeInForce m.timeInForce m.executionInstructions m.executionDestination
          ≠ .undefinedInternal ∧
        field = ("timeInForce", .text ((mapTimeInForce m.timeInForce m.executionInstructions
            m.executionDestination).asRawText formats))) ∨
      (m.price ≠ nan ∧ field = ("price", .decimal m.price refData.pricePrecision)) ∨
      (m.stopPrice ≠ nan ∧ field = ("stopPrice", .decimal m.stopPrice refData.pricePrecision)) ∨
      (selfTradePrevention ≠ .undefinedInternal ∧
        field = ("selfTradePreventionMode", .text (selfTradePrevention.asRawText formats))) ∨
      field = ("recvWindow", .count recvWindow) := by
  simp [orderPlaceJson]

theorem asRawText_ne {timeInForce : TimeInForce} (hundefined : timeInForce ≠ .undefinedInternal)
    (hunknown : timeInForce ≠ .unknownInternal) : timeInForce.asRawText formats ≠ "" := by
  cases timeInForce with
  | undefinedInternal => exact absurd rfl hundefined
  | unknownInternal => exact absurd rfl hunknown
  | _ => simp [TimeInForce.asRawText]

/-- EXACT: where a price is given for limit orders and for no others, the query string and the message
    have the same parameters, none of them empty, exactly if the order is placeable. -/
theorem sameParameters_iff (htype : m.orderType ≠ .undefined)
    (hprice : m.price ≠ nan ↔ m.orderType = .limit) :
    SameParameters formats (orderPlaceUrl formats m refData requestId recvWindow selfTradePrevention)
      (orderPlaceJson formats m refData requestId recvWindow nowUtc id selfTradePrevention).params
    ↔ Placeable formats m requestId selfTradePrevention := by
  constructor
  · rintro ⟨hsame, hpresent⟩
    simp only [mem_orderPlaceUrl] at hpresent
    refine ⟨?_, ?_, ?_, ?_, fun hstp => ?_⟩
    · have htif := hsame ("timeInForce", .text ((mapTimeInForce m.timeInForce m.executionInstructions
        m.executionDestination).asRawText formats))
      rw [mem_orderPlaceUrl, mem_orderPlaceJson] at htif
      simpa [iff_comm] using htif
    · simpa [Value.format] using hpresent ("symbol", .text m.symbol) (by simp)
    · simpa [Value.format] using hpresent ("newClientOrderId", .text requestId) (by simp)
    · simpa [Value.format] using
        hpresent ("side", .text ((mapSide m.side).asRawText formats)) (by simp)
    · simpa [Value.format] using
        hpresent ("selfTradePreventionMode", .text (selfTradePrevention.asRawText formats)) (by simp [hstp])
  · rintro ⟨htif, hsymbol, hrequest, hside, hstp⟩
    refine ⟨fun field => ?_, fun field hfield => ?_⟩
    · rw [mem_orderPlaceUrl, mem_orderPlaceJson, htif, hprice, and_or_left]
      exact Iff.of_eq (by ac_rfl)
    · rw [mem_orderPlaceUrl] at hfield
      rcases hfield with rfl | rfl | rfl | rfl | rfl | ⟨hlimit, rfl | rfl⟩ | ⟨-, rfl⟩ | ⟨hne, rfl⟩ | rfl | rfl
      · exact hsymbol
      · exact hside
      · cases horder : m.orderType with
        | undefined => exact absurd horder htype
        | market | limit => simp [Value.format, mapOrderType, OrderType.asRawText]
      · exact formats.decimal_ne _ _
      · rw [Value.format]
        split <;> decide
      · exact asRawText_ne (htif.mpr hlimit) (mapTimeInForce_ne_unknown _ _ _)
      · exact formats.decimal_ne _ _
      · exact formats.decimal_ne _ _
      · exact hstp hne
      · exact hrequest
      · exact Nat.repr_ne_empty

end Encoder
end

/-- A market order that is good till cancelled. -/
def marketOrder : CreateOrder where
  account := "A1"
  orderId := 1
  symbol := "BTCUSDT"
  side := .buy
  orderType := .market
  timeInForce := .gtc
  quantity := some 1

/-- The message says how long the market order is good for, the query string does not. -/
theorem marketOrder_differs :
    ¬ ((marketOrder.orderType ≠ .undefined ∧ (marketOrder.price ≠ nan ↔ marketOrder.orderType = .limit)) →
      SameParameters .standard
        (Encoder.orderPlaceUrl .standard marketOrder {} "x1" 5000 .undefinedInternal)
        (Encoder.orderPlaceJson .standard marketOrder {} "x1" 5000 0 "id" .undefinedInternal).params) := by
  intro h
  have hsame := (h (by decide)).same ("timeInForce", .text "GTC")
  revert hsame
  decide

/-- A limit order is the same on both transports. -/
theorem limitOrder_same :
    SameParameters .standard
      (Encoder.orderPlaceUrl .standard { marketOrder with orderType := .limit, price := some 2 } {} "x1"
        5000 .expireMaker)
      (Encoder.orderPlaceJson .standard { marketOrder with orderType := .limit, price := some 2 } {} "x1"
        5000 0 "id" .expireMaker).params :=
  (Encoder.sameParameters_iff (by decide) (by decide)).mpr
    ⟨by decide, by decide, by decide, by decide, by decide⟩

section
variable (formats : Formats)

/-! ### The same change of the same order -/

/-- The exchange's id comes back out of the composite id. -/
theorem getOrderId_createExternalOrderId {symbol : String} (h : '#' ∉ symbol.toList) (orderId : ℤ) :
    getOrderId (createExternalOrderId symbol orderId) = toString orderId := by
  have hsymbol : ∀ c ∈ symbol.toList, decide (c ≠ '#') = true := by
    intro c hc
    rw [decide_eq_true_eq]
    rintro rfl
    exact h hc
  rw [getOrderId, toList_createExternalOrderId, if_pos (by simp), List.dropWhile_append_of_pos hsymbol]
  simp

namespace Encoder

/-- No parameter of the list designates an order. -/
def Plain (fields : Fields) : Prop :=
  ∀ field ∈ fields, field.1 ≠ "orderId" ∧ field.1 ≠ "origClientOrderId"

theorem not_mem_plain {fields : Fields} (h : Plain fields) (v : Value) : ("orderId", v) ∉ fields :=
  fun hmem => (h _ hmem).1 rfl

theorem mem_orderIdentity {order : BinanceFutures.Order} {name : String} {v : Value}
    (h : name ≠ "orderId" ∧ name ≠ "origClientOrderId") :
    (name, v) ∈ orderIdentity order ↔ name = "symbol" ∧ v = .text order.symbol := by
  simp [orderIdentity, h.1, h.2]

theorem not_mem_messageIdentity {order : BinanceFutures.Order} {force : Bool} {name : String} {v : Value}
    (h : name ≠ "orderId" ∧ name ≠ "origClientOrderId") : (name, v) ∉ messageIdentity order force := by
  unfold messageIdentity
  split
  · simp [h.2]
  · simp [h.1]

variable (m : ModifyOrder) (order : BinanceFutures.Order) (refData : RefData)
  (recvWindow nowUtc : ℕ) (id : String)

/-- What a modify asks for, with both quantity and price in it. -/
def wanted : Fields :=
  [("symbol", .text order.symbol), ("side", .text ((mapSide order.side).asRawText formats)),
    ("quantity", .decimal (valueOr m.quantity order.quantity) refData.quantityPrecision),
    ("price", .decimal (valueOr m.price order.price) refData.pricePrecision),
    ("recvWindow", .count recvWindow)]

/-- The parameters of its query string. -/
def fullUrl : Fields :=
  orderIdentity order ++
    [("side", .text ((mapSide order.side).asRawText formats)),
      ("quantity", .decimal (valueOr m.quantity order.quantity) refData.quantityPrecision),
      ("price", .decimal (valueOr m.price order.price) refData.pricePrecision),
      ("recvWindow", .count recvWindow)]

theorem orderModifyUrl_full :
    orderModifyUrl formats m order refData recvWindow true
      = .ok (fullUrl formats m order refData recvWindow) := rfl

theorem mem_fullUrl {name : String} (h : name ≠ "orderId" ∧ name ≠ "origClientOrderId") (v : Value) :
    (name, v) ∈ fullUrl formats m order refData recvWindow ↔
      (name, v) ∈ wanted formats m order refData recvWindow := by
  rw [fullUrl, List.mem_append, mem_orderIdentity h]
  simp [wanted]

theorem mem_orderModifyJson {name : String} (h : name ≠ "orderId" ∧ name ≠ "origClientOrderId")
    (v : Value) :
    (name, v) ∈ (orderModifyJson formats m order refData recvWindow nowUtc id).params ↔
      (name, v) ∈ wanted formats m order refData recvWindow := by
  have hnone : (name, v) ∉ messageIdentity order false := not_mem_messageIdentity h
  simp [orderModifyJson, wanted, hnone]

/-- The request gives the value, and it is another than the order's. -/
def Changes (value last : Double) : Prop := value ≠ nan ∧ formats.isEqual value last = false

theorem changed_ne {value last : Double} : changed formats value last ≠ nan ↔ Changes formats value last := by
  unfold changed Changes
  split
  next h => exact iff_of_true h.1 h
  next h => exact iff_of_false (not_not_intro rfl) h

theorem changed_eq {value last : Double} :
    changed formats value last = nan ↔ ¬ Changes formats value last := by
  rw [← changed_ne, not_not]

theorem orderModifyUrl_quantity (hquantity : Changes formats m.quantity order.quantity)
    (hprice : ¬ Changes formats m.price order.price) :
    orderModifyUrl formats m order refData recvWindow false
      = .ok (orderIdentity order ++ [("side", .text ((mapSide order.side).asRawText formats)),
          ("quantity", .decimal m.quantity refData.quantityPrecision),
          ("recvWindow", .count recvWindow)]) := by
  have hq := changed_ne formats |>.mpr hquantity
  have hp := changed_eq formats |>.mpr hprice
  simp [orderModifyUrl, hq, hp]

theorem orderModifyUrl_price (hquantity : ¬ Changes formats m.quantity order.quantity)
    (hprice : Changes formats m.price order.price) :
    orderModifyUrl formats m order refData recvWindow false
      = .ok (orderIdentity order ++ [("side", .text ((mapSide order.side).asRawText formats)),
          ("price", .decimal m.price refData.pricePrecision), ("recvWindow", .count recvWindow)]) := by
  have hq := changed_eq formats |>.mpr hquantity
  have hp := changed_ne formats |>.mpr hprice
  simp [orderModifyUrl, hq, hp]

theorem orderModifyUrl_refused
    (h : Changes formats m.quantity order.quantity ↔ Changes formats m.price order.price) :
    orderModifyUrl formats m order refData recvWindow false
      = .error (.rejected .invalidRequestArgs "Missing quantity or price") := by
  by_cases hprice : Changes formats m.price order.price
  · have hq := changed_ne formats |>.mpr (h.mpr hprice)
    have hp := changed_ne formats |>.mpr hprice
    simp [orderModifyUrl, hq, hp]
  · have hq := changed_eq formats |>.mpr (mt h.mp hprice)
    have hp := changed_eq formats |>.mpr hprice
    simp [orderModifyUrl, hq, hp]

/-- CORRECT: without both in it, a modify is encoded if and only if exactly one of quantity and price is
    given and differs from the order's. It then has that one as requested and not the other; in every
    other case it is rejected. -/
theorem orderModifyUrl_partial_iff :
    ((∃ url, orderModifyUrl formats m order refData recvWindow false = .ok url) ↔
      Xor (Changes formats m.quantity order.quantity) (Changes formats m.price order.price)) ∧
    (∀ url, orderModifyUrl formats m order refData recvWindow false = .ok url →
      (Changes formats m.quantity order.quantity →
        (∀ v, ("quantity", v) ∈ url ↔ v = .decimal m.quantity refData.quantityPrecision) ∧
        ∀ v, ("price", v) ∉ url) ∧
      (Changes formats m.price order.price →
        (∀ v, ("price", v) ∈ url ↔ v = .decimal m.price refData.pricePrecision) ∧
        ∀ v, ("quantity", v) ∉ url)) ∧
    (¬ Xor (Changes formats m.quantity order.quantity) (Changes formats m.price order.price) →
      orderModifyUrl formats m order refData recvWindow false
        = .error (.rejected .invalidRequestArgs "Missing quantity or price")) := by
  have hq : ∀ v, ("quantity", v) ∉ orderIdentity order := by simp [orderIdentity]
  have hp : ∀ v, ("price", v) ∉ orderIdentity order := by simp [orderIdentity]
  by_cases hquantity : Changes formats m.quantity order.quantity <;>
    by_cases hprice : Changes formats m.price order.price
  · -- both change
    rw [orderModifyUrl_refused formats m order refData recvWindow (iff_of_true hquantity hprice)]
    simp [hquantity, hprice, Xor]
  · rw [orderModifyUrl_quantity formats m order refData recvWindow hquantity hprice]
    simp [hquantity, hprice, Xor, hq, hp]
  · rw [orderModifyUrl_price formats m order refData recvWindow hquantity hprice]
    simp [hquantity, hprice, Xor, hq, hp]
  · -- none changes
    rw [orderModifyUrl_refused formats m order refData recvWindow (iff_of_false hquantity hprice)]
    simp [hquantity, hprice, Xor]

/-! ### Modify both -/

/-- Quantity and price are there, and are numbers. -/
def Numeric (fields : Fields) : Prop :=
  ∀ name ∈ ["quantity", "price"], (∃ x precision, (name, Value.decimal (some x) precision) ∈ fields) ∧
    ∀ precision, (name, Value.decimal nan precision) ∉ fields

/-- What is encoded names numbers, and what is not encoded is rejected. -/
def Safe : Except Exn Fields → Prop
  | .ok fields => Numeric fields
  | .error e => ∃ error what, e = .rejected error what

theorem valueOr_eq {value last : Double} : valueOr value last = nan ↔ value = nan ∧ last = nan := by
  unfold valueOr
  split
  next h => exact ⟨fun hlast => ⟨h, hlast⟩, And.right⟩
  next h => exact iff_of_false h fun hboth => h hboth.1

/-- Fields with one quantity and one price are numeric exactly if both are numbers. -/
theorem numeric_iff {fields : Fields} {quantity price : Double} {p q : Precision}
    (hquantity : ∀ v, ("quantity", v) ∈ fields ↔ v = .decimal quantity p)
    (hprice : ∀ v, ("price", v) ∈ fields ↔ v = .decimal price q) :
    Numeric fields ↔ quantity ≠ nan ∧ price ≠ nan := by
  have hnumber : ∀ (x : Double) (p : Precision),
      ((∃ y precision, Value.decimal (some y) precision = .decimal x p) ∧
        ∀ precision, Value.decimal nan precision ≠ .decimal x p) ↔ x ≠ nan := by
    intro x p
    cases x with
    | none => exact iff_of_false (fun h => h.2 p rfl) (not_not_intro rfl)
    | some x => exact iff_of_true ⟨⟨x, p, rfl⟩, fun _ => nofun⟩ nofun
  simp only [Numeric, List.forall_mem_cons, List.not_mem_nil, false_imp_iff, implies_true, and_true,
    hquantity, hprice]
  exact and_congr (hnumber quantity p) (hnumber price q)

/-- EXACT: a modify with both quantity and price in it names numbers, or is rejected, exactly if for
    each of the two the request gives a number or the order has one. -/
theorem modify_safe_iff :
    (Safe (orderModifyUrl formats m order refData recvWindow true) ↔
      (m.quantity ≠ nan ∨ order.quantity ≠ nan) ∧ (m.price ≠ nan ∨ order.price ≠ nan)) ∧
    (Safe (.ok (orderModifyJson formats m order refData recvWindow nowUtc id).params) ↔
      (m.quantity ≠ nan ∨ order.quantity ≠ nan) ∧ (m.price ≠ nan ∨ order.price ≠ nan)) := by
  have hvalues : valueOr m.quantity order.quantity ≠ nan ∧ valueOr m.price order.price ≠ nan ↔
      (m.quantity ≠ nan ∨ order.quantity ≠ nan) ∧ (m.price ≠ nan ∨ order.price ≠ nan) := by
    rw [ne_eq, ne_eq, valueOr_eq, valueOr_eq, not_and_or, not_and_or]
  constructor
  · rw [orderModifyUrl_full, ← hvalues]
    refine numeric_iff (p := refData.quantityPrecision) (q := refData.pricePrecision) (fun v => ?_)
      fun v => ?_
    · rw [mem_fullUrl formats m order refData recvWindow (by decide)]
      simp [wanted]
    · rw [mem_fullUrl formats m order refData recvWindow (by decide)]
      simp [wanted]
  · rw [← hvalues]
    refine numeric_iff (p := refData.quantityPrecision) (q := refData.pricePrecision) (fun v => ?_)
      fun v => ?_
    · rw [mem_orderModifyJson formats m order refData recvWindow nowUtc id (by decide)]
      simp [wanted]
    · rw [mem_orderModifyJson formats m order refData recvWindow nowUtc id (by decide)]
      simp [wanted]

end Encoder
end

/-- A market order, which has no price. -/
def marketOrderPlaced : BinanceFutures.Order where
  userId := 0
  orderId := 1
  symbol := "BTCUSDT"
  side := .buy
  clientOrderId := "x1"
  externalOrderId := "BTCUSDT#1234"
  quantity := some 1

/-- The quantity of the market order is modified: both texts name a price that is not a number. -/
theorem marketOrder_unsafe :
    ¬ (Encoder.Safe (Encoder.orderModifyUrl .standard
        { account := "A1", orderId := 1, version := 2, quantity := some 3 } marketOrderPlaced {} 5000 true) ∨
      Encoder.Safe (.ok (Encoder.orderModifyJson .standard
        { account := "A1", orderId := 1, version := 2, quantity := some 3 } marketOrderPlaced {} 5000 0
        "id").params)) := by
  rintro (h | h)
  · have hprice := (h "price" (by decide)).2 none
    revert hprice
    decide
  · have hprice := (h "price" (by decide)).2 none
    revert hprice
    decide

/-! ### The exchange's id -/

theorem createExternalOrderId_ne (symbol : String) (orderId : ℤ) :
    createExternalOrderId symbol orderId ≠ "" := by
  intro h
  have hlist := congrArg String.toList h
  rw [toList_createExternalOrderId] at hlist
  simp at hlist

namespace Encoder

/-- The exchange's id is sent, and it is this one. -/
def Sends (fields : Fields) (id : String) : Prop :=
  ∀ v, ("orderId", v) ∈ fields ↔ v = .integer id

variable {order : BinanceFutures.Order} {front back : Fields}

theorem sends_orderIdentity (hknown : order.externalOrderId ≠ "") (hback : Plain back) :
    Sends (orderIdentity order ++ back) (getOrderId order.externalOrderId) := by
  intro v
  simp [orderIdentity, hknown, not_mem_plain hback]

theorem sends_messageIdentity (hknown : order.externalOrderId ≠ "") (hfront : Plain front)
    (hback : Plain back) :
    Sends (front ++ messageIdentity order false ++ back) (getOrderId order.externalOrderId) := by
  intro v
  simp [messageIdentity, hknown, not_mem_plain hfront, not_mem_plain hback]

variable (formats : Formats) (m : ModifyOrder) (refData : RefData) (recvWindow nowUtc : ℕ) (id : String)

/-- Whichever branch is taken, a query string of a modify has the identity of the order in front. -/
theorem orderModifyUrl_ok {orderModifyFull : Bool} {url : Fields}
    (h : orderModifyUrl formats m order refData recvWindow orderModifyFull = .ok url) :
    ∃ back, url = orderIdentity order ++ back ∧ Plain back := by
  unfold orderModifyUrl at h
  dsimp only at h
  split at h
  · cases h
    exact ⟨_, rfl, by simp [Plain]⟩
  · split at h
    · cases h
      exact ⟨_, rfl, by simp [Plain]⟩
    · split at h
      · cases h
        exact ⟨_, rfl, by simp [Plain]⟩
      · cases h

/-- CORRECT: the exchange's id comes back out of the composite id, whose symbol and id are those of one
    order only; so every encoder of a modify or a cancel sends the very id that the exchange assigned. -/
theorem orderId_exact :
    (∀ (symbol : String) (orderId : ℤ), '#' ∉ symbol.toList →
      getOrderId (createExternalOrderId symbol orderId) = toString orderId) ∧
    (Function.Injective fun key : String × ℤ => createExternalOrderId key.1 key.2) ∧
    ∀ (order : BinanceFutures.Order) (symbol : String) (orderId : ℤ), '#' ∉ symbol.toList →
      order.externalOrderId = createExternalOrderId symbol orderId →
      (∀ orderModifyFull url,
        orderModifyUrl formats m order refData recvWindow orderModifyFull = .ok url →
        Sends url (toString orderId)) ∧
      Sends (orderCancelUrl order recvWindow) (toString orderId) ∧
      Sends (orderModifyJson formats m order refData recvWindow nowUtc id).params (toString orderId) ∧
      Sends (orderCancelJson order recvWindow nowUtc id false).params (toString orderId) ∧
      ∀ v, ("orderId", v) ∉ (orderCancelJson order recvWindow nowUtc id true).params := by
  refine ⟨fun symbol orderId h => getOrderId_createExternalOrderId h orderId, ?_, ?_⟩
  · rintro ⟨symbol, i⟩ ⟨symbol', j⟩ h
    obtain ⟨rfl, rfl⟩ := createExternalOrderId_eq_iff.mp h
    rfl
  · intro order symbol orderId hsymbol hexternal
    have hknown : order.externalOrderId ≠ "" := by
      rw [hexternal]
      exact createExternalOrderId_ne symbol orderId
    rw [← getOrderId_createExternalOrderId hsymbol orderId, ← hexternal]
    refine ⟨fun orderModifyFull url hurl => ?_, ?_, ?_, ?_, ?_⟩
    · obtain ⟨back, rfl, hback⟩ := orderModifyUrl_ok formats m refData recvWindow hurl
      exact sends_orderIdentity hknown hback
    · exact sends_orderIdentity hknown (by simp [Plain])
    · exact sends_messageIdentity hknown (by simp [Plain]) (by simp [Plain])
    · exact sends_messageIdentity hknown (by simp [Plain]) (by simp [Plain])
    · simp [orderCancelJson, messageIdentity]

end Encoder

end BinanceFutures.Json
