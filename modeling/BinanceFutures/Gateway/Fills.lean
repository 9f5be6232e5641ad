import BinanceFutures.Gateway.DropCopy
import Mathlib.Tactic.Ring

/-! # Fills

    What a run of a drop copy publishes about one fill is the sum of what its messages are worth. Under
    `trade_lite` a `TRADE_LITE` is worth one trade update and an `ORDER_TRADE_UPDATE` none, without it
    the other way around; only the portfolio class counts its `ORDER_TRADE_UPDATE` in both cases.

                                   not trade_lite            trade_lite
        ORDER_TRADE_UPDATE         1                         0, portfolio 1
        TRADE_LITE                 0                         1 if the order is found
        executionReport            portfolio 1               0 -/

namespace BinanceFutures.DropCopy
open Machine

section
variable {R : LimitRequest} (settings : Settings)

/-- The turn delivers a `TRADE_LITE` for the fill. -/
def Turn.isTradeLite (k : FillKey) : Turn → Bool
  | .own (.text _ (some (.tradeLite m))) => m.reports k
  | _ => false

/-- The turn delivers an `ORDER_TRADE_UPDATE` of type `TRADE` for the fill. -/
def Turn.isOrderTradeUpdate (k : FillKey) : Turn → Bool
  | .own (.text _ (some (.orderTradeUpdate m))) => m.reports k
  | _ => false

/-- The turn delivers a margin `executionReport` of type `TRADE` for the fill. -/
def Turn.isExecutionReport2 (k : FillKey) : Turn → Bool
  | .own (.text _ (some (.executionReport2 m))) => m.reports k
  | _ => false

/-- The exchange reports the fill of a known order once by each of its two messages. -/
structure Delivered (k : FillKey) (es : List Turn) : Prop where
  tradeLite_once : es.countP (·.isTradeLite k) = 1
  orderTradeUpdate_once : es.countP (·.isOrderTradeUpdate k) = 1
  no_executionReport2 : ∀ e ∈ es, e.isExecutionReport2 k = false
  known : ∀ d m, Turn.own (.text d (some (.tradeLite m))) ∈ es → m.reports k = true →
    (d.findOrder m.clientOrderId).isSome = true

/-- The trade updates that a `TRADE_LITE` of a known order is worth. -/
def tradeLiteShare : ℕ := if settings.ws.tradeLite then 1 else 0

/-- The trade updates that an `ORDER_TRADE_UPDATE` is worth. -/
def orderTradeUpdateShare : Variant → ℕ
  | .classic => if settings.ws.tradeLite then 0 else 1
  | .portfolio => 1

theorem contribution_eq (variant : Variant) (account : String) (k : FillKey) (e : Turn)
    (hmargin : e.isExecutionReport2 k = false)
    (hknown : ∀ d m, e = .own (.text d (some (.tradeLite m))) → m.reports k = true →
      (d.findOrder m.clientOrderId).isSome = true) :
    e.contribution settings variant account k
      = (if e.isTradeLite k then tradeLiteShare settings else 0) +
        (if e.isOrderTradeUpdate k then orderTradeUpdateShare settings variant else 0) := by
  match e with
  | .own (.text d (some (.tradeLite m))) =>
    have hfound := hknown d m rfl
    have hcount := count_tradeLite settings account d m k
    cases hm : m.reports k with
    | false =>
      cases variant <;> simp [Turn.contribution, contribution, userStream, DropCopyClassic.tradeLite,
        DropCopyPortfolio.tradeLite, hcount, hm, Turn.isTradeLite, Turn.isOrderTradeUpdate]
    | true =>
      cases variant <;> simp [Turn.contribution, contribution, userStream, DropCopyClassic.tradeLite,
        DropCopyPortfolio.tradeLite, hcount, hm, hfound hm, Turn.isTradeLite,
        Turn.isOrderTradeUpdate, tradeLiteShare]
  | .own (.text d (some (.orderTradeUpdate m))) =>
    have hcount := fun marginMode dropTrade =>
      count_orderTradeUpdate settings account marginMode dropTrade d m k
    cases hm : m.reports k with
    | false =>
      cases variant <;> simp [Turn.contribution, contribution, userStream,
        DropCopyClassic.orderTradeUpdate, DropCopyPortfolio.orderTradeUpdate, hcount, hm,
        Turn.isTradeLite, Turn.isOrderTradeUpdate]
    | true =>
      cases variant <;> cases hflag : settings.ws.tradeLite <;> simp [Turn.contribution,
        contribution, userStream, DropCopyClassic.orderTradeUpdate,
        DropCopyPortfolio.orderTradeUpdate, hcount, hm, hflag, Turn.isTradeLite,
        Turn.isOrderTradeUpdate, orderTradeUpdateShare]
  | .own (.text d (some (.executionReport2 m))) =>
    cases variant with
    | classic => rfl
    | portfolio =>
      have hm : m.reports k = false := hmargin
      simp [Turn.contribution, contribution, userStream, count_executionReport2, hm, Turn.isTradeLite,
        Turn.isOrderTradeUpdate]
  | .own (.text d (some .listenKeyExpired)) => rfl
  | .own (.text d (some .other)) => rfl
  | .own (.text d none) => rfl
  | .own .start | .own .stop | .own (.timer ..) | .own .connected | .own .disconnected
  | .own (.ready ..) | .own .close | .own .latency | .own .binary => rfl
  | .served .. | .committed .. | .asked => rfl

/-- Over turns that deliver only known orders, the contributions add up to the shares of the two
    messages. -/
theorem sum_contribution (variant : Variant) (account : String) (k : FillKey) : ∀ {es : List Turn},
    (∀ e ∈ es, e.isExecutionReport2 k = false) →
    (∀ d m, Turn.own (.text d (some (.tradeLite m))) ∈ es → m.reports k = true →
      (d.findOrder m.clientOrderId).isSome = true) →
    (es.map (·.contribution settings variant account k)).sum
      = tradeLiteShare settings * es.countP (·.isTradeLite k)
        + orderTradeUpdateShare settings variant * es.countP (·.isOrderTradeUpdate k)
  | [], _, _ => rfl
  | e :: es, hmargin, hknown => by
      have hrest := sum_contribution variant account k
        (fun e' he' => hmargin e' (List.mem_cons_of_mem _ he'))
        (fun d m hm => hknown d m (List.mem_cons_of_mem _ hm))
      have hhead := contribution_eq settings variant account k e (hmargin e (List.mem_cons_self ..))
        (fun d m he => hknown d m (by rw [← he]; exact List.mem_cons_self ..))
      rw [List.map_cons, List.sum_cons, hrest, hhead, List.countP_cons, List.countP_cons]
      cases e.isTradeLite k <;> cases e.isOrderTradeUpdate k <;> simp <;> ring

/-- EXACT: in every interleaving that reports a fill of a known order once by each of its messages,
    a drop copy publishes the fill exactly once unless it is the portfolio class under `trade_lite`. -/
theorem published_once_iff (variant : Variant) (account listenKey : String) (request : Request R)
    (es : List Turn) (k : FillKey) (h : Delivered k es) :
    (run (turn settings) es (create variant account listenKey request)).2.countP (·.reports k) = 1
      ↔ ¬ (variant = .portfolio ∧ settings.ws.tradeLite = true) := by
  have hrun := run_sound settings es [] _ (sound_create variant account listenKey request k)
  have hcount := hrun.count_eq
  rw [List.nil_append, Nat.zero_add, sum_contribution settings variant account k
    h.no_executionReport2 h.known, h.tradeLite_once, h.orderTradeUpdate_once, Nat.mul_one,
    Nat.mul_one] at hcount
  rw [hcount]
  unfold tradeLiteShare orderTradeUpdateShare
  cases variant <;> cases settings.ws.tradeLite <;> decide

/-! ### Never lost -/

/-- The turn delivers a `TRADE_LITE` for the fill, and the order is found. -/
def Turn.isFound (k : FillKey) : Turn → Bool
  | .own (.text d (some (.tradeLite m))) => m.reports k && (d.findOrder m.clientOrderId).isSome
  | _ => false

/-- The fill arrives as an `ORDER_TRADE_UPDATE`, or as a margin `executionReport` of a portfolio
    account. -/
def Arrives (variant : Variant) (k : FillKey) (es : List Turn) : Prop :=
  (∃ e ∈ es, e.isOrderTradeUpdate k = true) ∨
    variant = .portfolio ∧ ∃ e ∈ es, e.isExecutionReport2 k = true

/-- What makes a turn publish a trade update about the fill. -/
theorem contribution_pos_iff (variant : Variant) (account : String) (k : FillKey) (e : Turn) :
    0 < e.contribution settings variant account k ↔
      (settings.ws.tradeLite = true ∧ e.isFound k = true) ∨
      ((variant = .portfolio ∨ settings.ws.tradeLite = false) ∧ e.isOrderTradeUpdate k = true) ∨
      (variant = .portfolio ∧ settings.ws.tradeLite = false ∧ e.isExecutionReport2 k = true) := by
  match e with
  | .own (.text d (some (.tradeLite m))) =>
    have hcount : Turn.contribution settings variant account k (.own (.text d (some (.tradeLite m))))
        = (UserStream.tradeLite settings account d m).countP (·.reports k) := by
      cases variant <;> rfl
    rw [hcount, count_tradeLite]
    cases hm : m.reports k <;> cases hflag : settings.ws.tradeLite <;>
      cases horder : (d.findOrder m.clientOrderId).isSome <;>
      simp [Turn.isFound, Turn.isOrderTradeUpdate, Turn.isExecutionReport2, hm, horder]
  | .own (.text d (some (.orderTradeUpdate m))) =>
    cases hm : m.reports k <;> cases hflag : settings.ws.tradeLite <;> cases variant <;>
      simp [Turn.contribution, contribution, userStream, DropCopyClassic.orderTradeUpdate,
        DropCopyPortfolio.orderTradeUpdate, count_orderTradeUpdate, hm, hflag, Turn.isFound,
        Turn.isOrderTradeUpdate, Turn.isExecutionReport2]
  | .own (.text d (some (.executionReport2 m))) =>
    cases hm : m.reports k <;> cases hflag : settings.ws.tradeLite <;> cases variant <;>
      simp [Turn.contribution, contribution, userStream, DropCopyClassic.executionReport2,
        count_executionReport2, hm, hflag, Turn.isFound, Turn.isOrderTradeUpdate,
        Turn.isExecutionReport2]
  | .own (.text d (some .listenKeyExpired)) | .own (.text d (some .other)) | .own (.text d none) =>
    simp [Turn.contribution, contribution, userStream, Turn.isFound, Turn.isOrderTradeUpdate,
      Turn.isExecutionReport2]
  | .own .start | .own .stop | .own (.timer ..) | .own .connected | .own .disconnected
  | .own (.ready ..) | .own .close | .own .latency | .own .binary
  | .served .. | .committed .. | .asked =>
    simp [Turn.contribution, contribution, Turn.isFound, Turn.isOrderTradeUpdate,
      Turn.isExecutionReport2]

/-- A run publishes what one of its turns publishes. -/
theorem published_pos_iff (variant : Variant) (account listenKey : String) (request : Request R)
    (es : List Turn) (k : FillKey) :
    0 < (run (turn settings) es (create variant account listenKey request)).2.countP (·.reports k) ↔
      ∃ e ∈ es, 0 < e.contribution settings variant account k := by
  have hrun := run_sound settings es [] _ (sound_create variant account listenKey request k)
  have hcount := hrun.count_eq
  rw [List.nil_append, Nat.zero_add] at hcount
  rw [hcount, List.sum_pos_iff_exists_pos_nat]
  simp

/-- BUG: in every interleaving a fill that arrives is published at least once if `trade_lite` is off, if
    it arrives as the portfolio class's `ORDER_TRADE_UPDATE`, or if a `TRADE_LITE` comes for it and its
    order is found. With `trade_lite` nothing else is published: not an external fill of the classic
    class, nor a margin fill. -/
theorem never_lost_iff (variant : Variant) (account listenKey : String) (request : Request R)
    (es : List Turn) (k : FillKey) (h : Arrives variant k es) :
    0 < (run (turn settings) es (create variant account listenKey request)).2.countP (·.reports k) ↔
      settings.ws.tradeLite = false ∨
      (variant = .portfolio ∧ ∃ e ∈ es, e.isOrderTradeUpdate k = true) ∨
      ∃ e ∈ es, e.isFound k = true := by
  rw [published_pos_iff]
  simp only [contribution_pos_iff]
  constructor
  · rintro ⟨e, he, ⟨-, hfound⟩ | ⟨hvariant | hflag, hreport⟩ | ⟨-, hflag, -⟩⟩
    · exact .inr (.inr ⟨e, he, hfound⟩)
    · exact .inr (.inl ⟨hvariant, e, he, hreport⟩)
    · exact .inl hflag
    · exact .inl hflag
  · intro hcond
    cases hflag : settings.ws.tradeLite with
    | false =>
      rcases h with ⟨e, he, hreport⟩ | ⟨hvariant, e, he, hreport⟩
      · exact ⟨e, he, .inr (.inl ⟨.inr rfl, hreport⟩)⟩
      · exact ⟨e, he, .inr (.inr ⟨hvariant, rfl, hreport⟩)⟩
    | true =>
      rcases hcond with hoff | ⟨hvariant, e, he, hreport⟩ | ⟨e, he, hfound⟩
      · rw [hflag] at hoff
        cases hoff
      · exact ⟨e, he, .inr (.inl ⟨.inl hvariant, hreport⟩)⟩
      · exact ⟨e, he, .inl ⟨rfl, hfound⟩⟩

/-! ### Attribution -/

/-- A trade update without its commission and its times. -/
def attribution (m : TradeUpdate) : TradeUpdate :=
  { m with
    createTimeUtc := 0
    updateTimeUtc := 0
    sendingTimeUtc := 0
    fills := m.fills.map fun fill =>
      { fill with exchangeTimeUtc := 0, commissionAmount := nan, commissionCurrency := "" } }

def trades (ps : List Published) : List TradeUpdate :=
  ps.filterMap fun
    | .orderUpdate _ => none
    | .tradeUpdate m => some m

/-- Two messages about one fill of one order that the order management knows, whenever they arrive. -/
structure SameFill (d d' : Dispatcher) (l : Json.TradeLite) (m : Json.OrderTradeUpdate) : Prop where
  executionType_eq : m.executionReport.executionType = .trade
  symbol_eq : m.executionReport.symbol = l.symbol
  clientOrderId_eq : m.executionReport.clientOrderId = l.clientOrderId
  side_eq : m.executionReport.side = l.side
  orderId_eq : m.executionReport.orderId = l.orderId
  tradeId_eq : m.executionReport.tradeId = l.tradeId
  quantity_eq : m.executionReport.lastFilledQuantity = l.lastFilledQuantity
  price_eq : m.executionReport.lastFilledPrice = l.lastFilledPrice
  maker_eq : m.executionReport.isTradeMaker = l.maker
  order_eq : ∃ order order', d.findOrder l.clientOrderId = some order ∧
    (∀ u : OrderUpdate, u.clientOrderId = l.clientOrderId → d'.matchOrder u = some order') ∧
    order'.userId = order.userId ∧ order'.orderId = order.orderId ∧
    order'.strategyId = order.strategyId
  getRefData_eq : d'.getRefData = d.getRefData
  computeProfitLossAmount_eq : d'.computeProfitLossAmount = d.computeProfitLossAmount

/-- What the fill of an order is attributed to, with the margin mode that is given to it. -/
def attributed (account : String) (d : Dispatcher) (l : Json.TradeLite) (order : Order)
    (marginMode : MarginMode) : TradeUpdate where
  account := account
  orderId := order.orderId
  exchange := settings.exchange
  symbol := l.symbol
  side := l.side.map
  marginMode := marginMode
  createTimeUtc := 0
  updateTimeUtc := 0
  externalOrderId := createExternalOrderId l.symbol l.orderId
  clientOrderId := l.clientOrderId
  fills := [{
    exchangeTimeUtc := 0, externalTradeId := toString l.tradeId, quantity := l.lastFilledQuantity,
    price := l.lastFilledPrice, liquidity := UserStream.liquidity l.maker, commissionAmount := nan,
    commissionCurrency := "",
    profitLossAmount := d.computeProfitLossAmount l.side.map l.lastFilledQuantity l.lastFilledPrice
      (d.getRefData settings.exchange l.symbol).multiplier }]
  updateType := .incremental
  sendingTimeUtc := 0
  strategyId := order.strategyId
  userId := order.userId

/-- The trade updates that a message makes a class publish with the flag as it is. -/
def tradesOf (tradeLite : Bool) (variant : Variant) (account : String) (d : Dispatcher)
    (m : Json.UserStreamEvent) : List TradeUpdate :=
  trades (userStream { settings with ws.tradeLite := tradeLite } variant account d m)

theorem attribution_tradeLite (variant : Variant) (account : String) {d : Dispatcher}
    {l : Json.TradeLite} {order : Order} (horder : d.findOrder l.clientOrderId = some order) :
    (tradesOf settings true variant account d (.tradeLite l)).map attribution
      = [attributed settings account d l order .portfolio] := by
  cases variant <;> simp [tradesOf, userStream, DropCopyClassic.tradeLite, DropCopyPortfolio.tradeLite,
    UserStream.tradeLite, horder, trades, attribution, attributed]

theorem attribution_orderTradeUpdate (account : String) (marginMode : MarginMode) {d d' : Dispatcher}
    {l : Json.TradeLite} {m : Json.OrderTradeUpdate} (h : SameFill d d' l m) {order : Order}
    (horder : d.findOrder l.clientOrderId = some order) :
    (trades (UserStream.orderTradeUpdate settings account marginMode false d' m)).map attribution
      = [attributed settings account d l order marginMode] := by
  obtain ⟨order₁, order', hfind, hmatch, huserId, horderId, hstrategyId⟩ := h.order_eq
  obtain rfl : order₁ = order := Option.some.inj (hfind.symm.trans horder)
  unfold UserStream.orderTradeUpdate
  dsimp only
  rw [hmatch _ h.clientOrderId_eq]
  simp [h.executionType_eq, trades, attribution, attributed, h.symbol_eq, h.clientOrderId_eq, h.side_eq,
    h.orderId_eq, h.tradeId_eq, h.quantity_eq, h.price_eq, h.maker_eq, h.getRefData_eq,
    h.computeProfitLossAmount_eq, huserId, horderId, hstrategyId]

/-- The margin mode that a class gives to the fill of an `ORDER_TRADE_UPDATE`. -/
def marginMode : Variant → MarginMode
  | .classic => .undefined
  | .portfolio => .portfolio

/-- BUG: the fill of a known order is attributed alike by its two messages in the portfolio class. In the
    classic class the `TRADE_LITE` gives it the margin mode of a portfolio, the `ORDER_TRADE_UPDATE`
    none. -/
theorem attributed_alike_iff (variant : Variant) (account : String) {d d' : Dispatcher}
    {l : Json.TradeLite} {m : Json.OrderTradeUpdate} (h : SameFill d d' l m) :
    (∃ t t', tradesOf settings true variant account d (.tradeLite l) = [t] ∧
        tradesOf settings false variant account d' (.orderTradeUpdate m) = [t'] ∧
        attribution t = attribution t') ↔ variant = .portfolio := by
  obtain ⟨order, order', horder, -⟩ := h.order_eq
  have hlite := attribution_tradeLite settings variant account horder
  have hreport : (tradesOf settings false variant account d' (.orderTradeUpdate m)).map attribution
      = [attributed settings account d l order (marginMode variant)] := by
    cases variant with
    | classic =>
      exact attribution_orderTradeUpdate { settings with ws.tradeLite := false } account .undefined h horder
    | portfolio =>
      exact attribution_orderTradeUpdate { settings with ws.tradeLite := false } account .portfolio h horder
  obtain ⟨t, ht, hattribution⟩ := List.map_eq_singleton_iff.mp hlite
  obtain ⟨t', ht', hattribution'⟩ := List.map_eq_singleton_iff.mp hreport
  constructor
  · rintro ⟨u, u', hu, hu', halike⟩
    obtain rfl : t = u := List.singleton_inj.mp (ht.symm.trans hu)
    obtain rfl : t' = u' := List.singleton_inj.mp (ht'.symm.trans hu')
    rw [hattribution, hattribution'] at halike
    have hmode := congrArg TradeUpdate.marginMode halike
    cases variant with
    | classic => cases hmode
    | portfolio => rfl
  · rintro rfl
    exact ⟨t, t', ht, ht', hattribution.trans hattribution'.symm⟩

end

/-- The two messages of one fill, one after the other. -/
def bothMessages (d : Dispatcher) (l : Json.TradeLite) (m : Json.OrderTradeUpdate) : List Turn :=
  [.own (.text d (some (.tradeLite l))), .own (.text d (some (.orderTradeUpdate m)))]

theorem delivered_bothMessages {k : FillKey} {d : Dispatcher} {l : Json.TradeLite}
    {m : Json.OrderTradeUpdate} (hl : l.reports k = true) (hm : m.reports k = true)
    (hknown : (d.findOrder l.clientOrderId).isSome = true) : Delivered k (bothMessages d l m) := by
  refine ⟨?_, ?_, ?_, ?_⟩
  · simp [bothMessages, Turn.isTradeLite, hl]
  · simp [bothMessages, Turn.isOrderTradeUpdate, hm]
  · simp [bothMessages, Turn.isExecutionReport2]
  · rintro d' l' hmem -
    simp only [bothMessages, List.mem_cons, Turn.own.injEq, Event.text.injEq, Option.some.injEq,
      Json.UserStreamEvent.tradeLite.injEq, reduceCtorEq, and_false, List.not_mem_nil,
      or_false] at hmem
    obtain ⟨rfl, rfl⟩ := hmem
    exact hknown

/-- A fill of one lot, and the order it belongs to. -/
def oneFill : FillKey := ⟨"BTCUSDT", 7, 11⟩

def oneOrder : Dispatcher :=
  .knowing (some { userId := 1, orderId := 2, symbol := "BTCUSDT", clientOrderId := "c" })

def oneTradeLite : Json.TradeLite where
  eventTime := 0
  transactionTime := 0
  symbol := "BTCUSDT"
  maker := false
  clientOrderId := "c"
  side := .buy
  lastFilledPrice := some 100
  lastFilledQuantity := some 1
  tradeId := 11
  orderId := 7

def oneOrderTradeUpdate : Json.OrderTradeUpdate where
  eventTime := 0
  transactionTime := 0
  executionReport := {
    symbol := "BTCUSDT", clientOrderId := "c", side := .buy, orderType := .limit,
    timeInForce := .gtc, originalQuantity := some 1, originalPrice := some 100,
    averagePrice := some 100, stopPrice := nan, executionType := .trade, orderStatus := .filled,
    orderId := 7, lastFilledQuantity := some 1, orderFilledAccumulatedQuantity := some 1,
    lastFilledPrice := some 100, commission := some 0, commissionAsset := "USDT",
    orderTradeTime := 0, tradeId := 11, isTradeMaker := false }

/-- Under `trade_lite` the portfolio class publishes the fill twice. -/
theorem portfolio_publishes_fill_twice :
    ¬ (Delivered oneFill (bothMessages oneOrder oneTradeLite oneOrderTradeUpdate) →
      (run (turn { ws.tradeLite := true }) (bothMessages oneOrder oneTradeLite oneOrderTradeUpdate)
        (create (R := .simple) .portfolio "A1" "key" {})).2.countP (·.reports oneFill) = 1) := by
  intro h
  have hcount := h (delivered_bothMessages (by decide) (by decide) (by decide))
  revert hcount
  decide

/-- Under `trade_lite` the classic class publishes it once. -/
theorem classic_publishes_fill_once :
    (run (turn { ws.tradeLite := true }) (bothMessages oneOrder oneTradeLite oneOrderTradeUpdate)
      (create (R := .simple) .classic "A1" "key" {})).2.countP (·.reports oneFill) = 1 :=
  (published_once_iff { ws.tradeLite := true } .classic "A1" "key" {} _ oneFill
    (delivered_bothMessages (by decide) (by decide) (by decide))).mpr (by decide)

/-- The two messages are about one fill. -/
theorem sameFill_one : SameFill oneOrder oneOrder oneTradeLite oneOrderTradeUpdate where
  executionType_eq := rfl
  symbol_eq := rfl
  clientOrderId_eq := rfl
  side_eq := rfl
  orderId_eq := rfl
  tradeId_eq := rfl
  quantity_eq := rfl
  price_eq := rfl
  maker_eq := rfl
  order_eq := by
    refine ⟨_, _, rfl, fun u hu => ?_, rfl, rfl, rfl⟩
    simp [oneOrder, Dispatcher.knowing, hu, oneTradeLite]
  getRefData_eq := rfl
  computeProfitLossAmount_eq := rfl

/-- The portfolio class attributes the fill alike. -/
theorem portfolio_attributes_alike :
    ∃ t t', tradesOf {} true .portfolio "A1" oneOrder (.tradeLite oneTradeLite) = [t] ∧
      tradesOf {} false .portfolio "A1" oneOrder (.orderTradeUpdate oneOrderTradeUpdate) = [t'] ∧
      attribution t = attribution t' :=
  (attributed_alike_iff {} .portfolio "A1" sameFill_one).mpr rfl

/-- The classic class does not. -/
theorem classic_attributes_differently :
    (tradesOf {} true .classic "A1" oneOrder (.tradeLite oneTradeLite)).map (·.marginMode)
        = [.portfolio] ∧
      (tradesOf {} false .classic "A1" oneOrder (.orderTradeUpdate oneOrderTradeUpdate)).map (·.marginMode)
        = [.undefined] ∧
      ¬ ∃ t t', tradesOf {} true .classic "A1" oneOrder (.tradeLite oneTradeLite) = [t] ∧
        tradesOf {} false .classic "A1" oneOrder (.orderTradeUpdate oneOrderTradeUpdate) = [t'] ∧
        attribution t = attribution t' := by
  have hlite : (tradesOf {} true .classic "A1" oneOrder (.tradeLite oneTradeLite)).map (·.marginMode)
      = [.portfolio] := by decide
  have hreport : (tradesOf {} false .classic "A1" oneOrder
      (.orderTradeUpdate oneOrderTradeUpdate)).map (·.marginMode) = [.undefined] := by decide
  refine ⟨hlite, hreport, ?_⟩
  rintro ⟨t, t', ht, ht', halike⟩
  rw [ht] at hlite
  rw [ht'] at hreport
  have hmode : (attribution t).marginMode = (attribution t').marginMode :=
    congrArg TradeUpdate.marginMode halike
  change t.marginMode = t'.marginMode at hmode
  rw [(List.singleton_inj.mp hlite : t.marginMode = .portfolio),
    (List.singleton_inj.mp hreport : t'.marginMode = .undefined)] at hmode
  cases hmode

/-- Without the flag a fill of another client's order is published by the classic class. -/
theorem classic_publishes_external_fill :
    0 < (run (turn {}) (bothMessages (.knowing none) oneTradeLite oneOrderTradeUpdate)
      (create (R := .simple) .classic "A1" "key" {})).2.countP (·.reports oneFill) :=
  (never_lost_iff {} .classic "A1" "key" {} _ oneFill
    (.inl ⟨_, List.mem_cons_of_mem _ (List.mem_singleton_self _), by decide⟩)).mpr (.inl rfl)

/-- With it the fill is lost. -/
theorem classic_loses_external_fill :
    Arrives .classic oneFill (bothMessages (.knowing none) oneTradeLite oneOrderTradeUpdate) ∧
      (run (turn { ws.tradeLite := true })
        (bothMessages (.knowing none) oneTradeLite oneOrderTradeUpdate)
        (create (R := .simple) .classic "A1" "key" {})).2.countP (·.reports oneFill) = 0 :=
  ⟨.inl ⟨_, List.mem_cons_of_mem _ (List.mem_singleton_self _), by decide⟩, by decide⟩

end BinanceFutures.DropCopy
