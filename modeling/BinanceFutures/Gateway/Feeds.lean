import BinanceFutures.Gateway.Instruments
import BinanceFutures.Gateway.Rest
import BinanceFutures.Gateway.Streams
import BinanceFutures.Protocol.Json

/-! # Feeds

    What the market data connections make of the events that the exchange sends. Each of them publishes
    the events of its own channels, and takes any other event for a fatal error.

        MarketData    trade                        ─▶ TradeSummary
                      bookTicker, depthUpdate      ─▶ TopOfBook, MarketByPriceUpdate
        MarketData2   aggTrade, forceOrder         ─▶ TradeSummary
                      24hrMiniTicker, markPriceUpdate, assetIndexUpdate ─▶ StatisticsUpdate
                      kline                        ─▶ TimeSeriesUpdate
        Rest          DepthAck                     ─▶ MarketByPriceUpdate, a snapshot

    The exchange is assumed to send on a connection the events of the streams for which it has been
    asked there since the connection was lost, a connection to become ready only when it is not, and
    symbols and assets to have usable names. The instruments are shared with `Rest`, which has none of
    the connections' channels and publishes snapshots under its own stream id. -/

namespace BinanceFutures
open Machine

/-! ### Events -/

namespace Json

/-- An event `trade` -/
structure Trade2 where
  eventTime : Nanos
  tradeTime : Nanos
  symbol : String
  price : Double
  quantity : Double
  buyerIsMaker : Bool
  deriving DecidableEq

structure AggTrade where
  eventTime : Nanos
  symbol : String
  aggTradeId : Int64
  price : Double
  quantity : Double
  tradeTime : Nanos
  buyerIsMaker : Bool
  deriving DecidableEq

structure MiniTicker where
  eventTime : Nanos
  symbol : String
  closePrice : Double
  openPrice : Double
  highPrice : Double
  lowPrice : Double
  totalTradedBaseAssetVolume : Double
  deriving DecidableEq

structure MarkPriceUpdate where
  eventTime : Nanos
  symbol : String
  markPrice : Double
  indexPrice : Double
  estSettlePrice : Double
  fundingRate : Double
  nextFundingTime : Nanos
  deriving DecidableEq

structure AssetIndexUpdate where
  eventTime : Nanos
  symbol : String
  bidRate : Double
  askRate : Double
  deriving DecidableEq

structure ForceOrderOrder where
  symbol : String
  side : Side
  price : Double
  lastFilledQuantity : Double
  orderTradeTime : Nanos
  deriving DecidableEq

structure ForceOrder where
  eventTime : Nanos
  order : ForceOrderOrder
  deriving DecidableEq

end Json

/-! ### Publications -/

inductive TradeCondition where | forcedLiquidation
  deriving DecidableEq

inductive StatisticsType where
  | highestTradedPrice | lowestTradedPrice | openPrice | closePrice | tradeVolume | settlementPrice
  | preSettlementPrice | indexValue | fundingRate
  deriving DecidableEq

namespace Feeds

/-- `Trade`, an item of a `TradeSummary` -/
structure Trade where
  tradeConditions : List TradeCondition := []
  side : Side
  price : Double
  quantity : Double
  tradeId : String := ""
  deriving DecidableEq

structure TradeSummary where
  streamId : UInt16
  exchange : String
  symbol : String
  trades : List Trade
  exchangeTimeUtc : Nanos
  sendingTimeUtc : Nanos
  deriving DecidableEq

structure Statistics where
  type : StatisticsType
  value : Double
  beginTimeUtc : Nanos := 0
  endTimeUtc : Nanos := 0
  deriving DecidableEq

structure StatisticsUpdate where
  streamId : UInt16
  exchange : String
  symbol : String
  statistics : List Statistics
  updateType : UpdateType
  sendingTimeUtc : Nanos
  deriving DecidableEq

/-- An event of a market stream. -/
inductive Message where
  | trade2 (m : Json.Trade2)
  | aggTrade (m : Json.AggTrade)
  | miniTicker (m : Json.MiniTicker)
  | bookTicker (m : BookTicker)
  | depthUpdate (m : DepthUpdate)
  | markPriceUpdate (m : Json.MarkPriceUpdate)
  | kline (m : Json.Kline)
  | assetIndexUpdate (m : Json.AssetIndexUpdate)
  | forceOrder (m : Json.ForceOrder)

open Market (Key)

inductive Output where
  | market (o : Market.Output)
  | instruments (key : Key) (o : Instruments.Output)
  | rest (o : Rest.Output)
  | touch (key : Key)
  | tradeSummary (key : Key) (m : TradeSummary)
  | statisticsUpdate (key : Key) (m : StatisticsUpdate)
  /-- `log::fatal("Unexpected"sv)` -/
  | unexpected (key : Key) (m : Message)

structure World (Q : Type) where
  market : Market.World := {}
  shared : Instruments.Shared Q := {}

inductive Event (Q : Type) where
  | market (e : Market.Event)
  /-- The connection receives an event of the exchange. -/
  | receive (key : Key) (m : Message)
  /-- `Rest` is answered with the book of a symbol. -/
  | depthAck (n : ℕ) (symbol : String) (m : Json.DepthAck)

abbrev Act (Q : Type) := Action (World Q) Output

/-! ### Handlers -/

section
variable {Q : Type} (settings : Settings) (slices : Slices) (sequencer : Sequencer Q)
  (isZero : Double → Bool)

def onMarket (f : Market.Act) : Act Q := fun w =>
  let (market, out) := f w.market
  ({ w with market }, out.map .market)

def onShared (key : Key) (f : Instruments.Act Q) : Act Q := fun w =>
  let (shared, out) := f w.shared
  ({ w with shared }, out.map (.instruments key))

def onRest (f : Rest.Act Q) : Act Q := fun w =>
  let (rest, out) := f { shared := w.shared }
  ({ w with shared := rest.shared }, out.map .rest)

/-- `MarketData::operator()(Trade2)`; `isZero` is `utils::is_zero` of the server library. -/
def trade2 (key : Key) (streamId : UInt16) (m : Json.Trade2) : Act Q := emit (.touch key ::
  if isZero m.quantity then [] else
    [.tradeSummary key {
      streamId, exchange := settings.exchange, symbol := m.symbol
      trades := [{
        side := if m.buyerIsMaker then .sell else .buy, price := m.price, quantity := m.quantity }]
      exchangeTimeUtc := m.tradeTime, sendingTimeUtc := m.eventTime }])

/-- `MarketData2::operator()(AggTrade)` -/
def aggTrade (key : Key) (streamId : UInt16) (m : Json.AggTrade) : Act Q := emit (.touch key ::
  if isZero m.quantity then [] else
    [.tradeSummary key {
      streamId, exchange := settings.exchange, symbol := m.symbol
      trades := [{
        side := if m.buyerIsMaker then .sell else .buy, price := m.price, quantity := m.quantity
        tradeId := toString m.aggTradeId }]
      exchangeTimeUtc := m.tradeTime, sendingTimeUtc := m.eventTime }])

/-- What the handlers of statistics have in common. -/
def statistics (key : Key) (streamId : UInt16) (symbol : String) (eventTime : Nanos)
    (statistics : List Statistics) : Act Q := emit [.touch key, .statisticsUpdate key {
      streamId, exchange := settings.exchange, symbol, statistics, updateType := .incremental
      sendingTimeUtc := eventTime }]

/-- `MarketData2::operator()(MiniTicker)` -/
def miniTicker (key : Key) (streamId : UInt16) (m : Json.MiniTicker) : Act Q :=
  statistics settings key streamId m.symbol m.eventTime [
    { type := .highestTradedPrice, value := m.highPrice },
    { type := .lowestTradedPrice, value := m.lowPrice },
    { type := .openPrice, value := m.openPrice },
    { type := .closePrice, value := m.closePrice },
    { type := .tradeVolume, value := m.totalTradedBaseAssetVolume }]

/-- `MarketData2::operator()(MarkPriceUpdate)` -/
def markPriceUpdate (key : Key) (streamId : UInt16) (m : Json.MarkPriceUpdate) : Act Q :=
  statistics settings key streamId m.symbol m.eventTime [
    { type := .settlementPrice, value := m.markPrice },
    { type := .preSettlementPrice, value := m.estSettlePrice },
    { type := .indexValue, value := m.indexPrice },
    { type := .fundingRate, value := m.fundingRate, beginTimeUtc := m.eventTime
      endTimeUtc := m.nextFundingTime }]

/-- `MarketData2::operator()(AssetIndexUpdate)` -/
def assetIndexUpdate (key : Key) (streamId : UInt16) (m : Json.AssetIndexUpdate) : Act Q :=
  statistics settings key streamId m.symbol m.eventTime [
    { type := .highestTradedPrice, value := m.askRate },
    { type := .lowestTradedPrice, value := m.bidRate }]

/-- `MarketData2::operator()(ForceOrder)` -/
def forceOrder (key : Key) (streamId : UInt16) (m : Json.ForceOrder) : Act Q := emit [.touch key,
  .tradeSummary key {
    streamId, exchange := settings.exchange, symbol := m.order.symbol
    trades := [{
      tradeConditions := [.forcedLiquidation], side := m.order.side.map, price := m.order.price
      quantity := m.order.lastFilledQuantity }]
    exchangeTimeUtc := m.order.orderTradeTime, sendingTimeUtc := m.eventTime }]

/-- The handlers of `MarketData`. -/
def marketData (key : Key) (streamId : UInt16) : Message → Act Q
  | .trade2 m => trade2 settings isZero key streamId m
  | .bookTicker m => onShared key (Instruments.bookTicker sequencer settings streamId m)
  | .depthUpdate m => onShared key (Instruments.depthUpdate sequencer settings streamId m)
  | m => emit [.unexpected key m]

/-- The handlers of `MarketData2`. -/
def marketData2 (key : Key) (streamId : UInt16) : Message → Act Q
  | .aggTrade m => aggTrade settings isZero key streamId m
  | .miniTicker m => miniTicker settings key streamId m
  | .markPriceUpdate m => markPriceUpdate settings key streamId m
  | .kline m => onMarket (Market.step settings slices (.kline key.index m))
  | .assetIndexUpdate m => assetIndexUpdate settings key streamId m
  | .forceOrder m => forceOrder settings key streamId m
  | m => emit [.unexpected key m]

/-- The connection, if it is there, handles the event. -/
def receive (key : Key) (m : Message) : Act Q := fun w =>
  match Market.view key w.market with
  | none => (w, [])
  | some s =>
    (match key.kind with
      | .primary | .secondary => marketData settings sequencer isZero key s.streamId m
      | .two => marketData2 settings slices isZero key s.streamId m) w

end

/-- The market data streams and the books that `Rest` downloads. -/
def step {Q : Type} (settings : Settings) (slices : Slices) (sequencer : SnapshotSequencer Q)
    (isZero : Double → Bool) : Event Q → Act Q
  | .market e => onMarket (Market.step settings slices e)
  | .receive key m => receive settings slices sequencer.toSequencer isZero key m
  | .depthAck n symbol m => onRest (Rest.depthAck sequencer settings n symbol m)

/-! ### What the exchange sends -/

namespace Message

/-- The symbol of an event, or the asset. -/
def symbol : Message → String
  | .trade2 m => m.symbol
  | .aggTrade m => m.symbol
  | .miniTicker m => m.symbol
  | .bookTicker m => m.symbol
  | .depthUpdate m => m.symbol
  | .markPriceUpdate m => m.symbol
  | .kline m => m.data.symbol
  | .assetIndexUpdate m => m.symbol
  | .forceOrder m => m.order.symbol

/-- The channel that an event belongs to. -/
def channel (settings : Settings) : Message → Channel
  | .trade2 _ => .trade
  | .aggTrade _ => .aggTrade
  | .miniTicker _ => .miniTicker
  | .bookTicker _ => .bookTicker
  | .depthUpdate _ => .depth settings.ws.subscribeDepthFreq
  | .markPriceUpdate _ => .markPrice settings.ws.markPriceFreq
  | .kline _ => .kline1m
  | .assetIndexUpdate _ => .assetIndex
  | .forceOrder _ => .forceOrder

/-- The stream that an event belongs to. -/
def stream (settings : Settings) (m : Message) : List Char × List Char :=
  match m with
  | .forceOrder _ => ("!forceOrder".toList, "arr".toList)
  | m => ((toLower m.symbol).toList, (m.channel settings).name.toList)

theorem mem_all (settings : Settings) (m : Message) : m.channel settings ∈ Channel.all settings := by
  cases m <;> simp [channel, Channel.all]

/-- An event of a stream of a symbol. -/
theorem eq_of_stream {settings : Settings} {m : Message} {name : String} {channel : Channel}
    (h : m.stream settings = (name.toList, channel.name.toList)) (hmem : channel ∈ Channel.all settings) :
    toLower m.symbol = name ∧ m.channel settings = channel := by
  have hplain : ((toLower m.symbol).toList, (m.channel settings).name.toList)
      = (name.toList, channel.name.toList) → toLower m.symbol = name ∧ m.channel settings = channel := by
    intro heq
    obtain ⟨hname, hchannel⟩ := Prod.mk.inj heq
    exact ⟨String.toList_injective hname,
      Channel.eq_of_name (mem_all settings m) hmem (String.toList_injective hchannel)⟩
  cases m with
  | forceOrder m => exact absurd (Prod.mk.inj h).2.symm (Channel.name_ne_arr channel)
  | _ => exact hplain h

/-- An event of the stream of the forced orders. -/
theorem channel_of_stream {settings : Settings} {m : Message}
    (h : m.stream settings = ("!forceOrder".toList, "arr".toList)) :
    m.channel settings = .forceOrder := by
  cases m with
  | forceOrder m => rfl
  | _ => exact absurd (Prod.mk.inj h).2 (Channel.name_ne_arr _)

end Message

def Output.market? : Output → Option Market.Output
  | .market o => some o
  | _ => none

/-- The streams for which the exchange has been asked on the connection since it was lost. -/
def heard (key : Key) (out : List Output) : List (List Char × List Char) :=
  (MarketData.texts (MarketData.connected
    ((out.filterMap Output.market?).filterMap (Market.ofKey key)))).flatMap Subscription.read

/-- The exchange sends what it has been asked for, and the connections' own events are timely. -/
def Answers {Q : Type} (settings : Settings) (out : List Output) (w : World Q) : Event Q → Prop
  | .market e => Market.Timely w.market e
  | .receive key m => m.stream settings ∈ heard key out
  | .depthAck .. => True

/-- A summary of forced orders. -/
def TradeSummary.Forced (t : TradeSummary) : Prop :=
  ∀ trade ∈ t.trades, trade.tradeConditions = [.forcedLiquidation]

/-- What a connection publishes belongs to it: to its channels, and to its slice. What `Rest` publishes
    of a book is a snapshot. -/
def Belongs (settings : Settings) (slices : Slices) (symbols assets : List String) : Output → Prop
  | .unexpected _ _ => False
  | .tradeSummary key t => t.Forced ∧ key = Market.first ∨ ¬ t.Forced ∧
    key.kind = Market.tradeKind settings ∧ toLower t.symbol ∈ slices.slice key.index 0 symbols
  | .statisticsUpdate key u => key.kind = .two ∧
    (toLower u.symbol ∈ slices.slice key.index 0 symbols ∨
      key = Market.first ∧ ∃ asset ∈ assets, toLower asset = toLower u.symbol)
  | .instruments key (.topOfBook u) =>
    key.kind ≠ .two ∧ toLower u.symbol ∈ slices.slice key.index 0 symbols
  | .instruments key (.marketByPriceUpdate u) =>
    key.kind ≠ .two ∧ toLower u.symbol ∈ slices.slice key.index 0 symbols
  | .rest (.marketByPriceUpdate u) => u.updateType = .snapshot ∧ u.streamId = Market.restStreamId
  | _ => True

/-! ### What the handlers publish -/

section
variable {Q : Type} {settings : Settings} {slices : Slices} {sequencer : Sequencer Q}
  {isZero : Double → Bool}

/-- A publication about another symbol. -/
def Strays (symbol : String) : Instruments.Output → Prop
  | .topOfBook u => u.symbol ≠ symbol
  | .marketByPriceUpdate u => u.symbol ≠ symbol
  | _ => False

theorem silent_bookTicker (streamId : UInt16) (m : BookTicker) :
    Silent (Strays m.symbol) (Instruments.bookTicker sequencer settings streamId m) := by
  intro shared o ho
  unfold Instruments.bookTicker at ho
  split at ho
  · simp only [List.mem_cons, List.not_mem_nil, or_false] at ho
    rcases ho with rfl | rfl <;> exact id
  · rcases List.mem_cons.mp ho with rfl | hpublished
    · exact id
    · split at hpublished
      · rw [List.mem_singleton.mp hpublished]
        simp [Strays]
      · cases hpublished

theorem silent_callback (streamId : UInt16) (m : DepthUpdate) (last : UInt64)
    (callback : Callback) :
    Silent (Strays m.symbol) (Instruments.callback (Q := Q) settings streamId m last callback) := by
  intro shared o ho
  cases callback with
  | publishUpdate bids asks =>
    rw [List.mem_singleton.mp ho]
    simp [Strays, Instruments.createUpdate]
  | publishSnapshot bids asks sequence =>
    rw [List.mem_singleton.mp ho]
    simp [Strays, Instruments.createUpdate]
  | requestSnapshot retries =>
    simp only [Instruments.callback] at ho
    split at ho
    · rw [List.mem_singleton.mp ho]
      exact id
    · cases ho

theorem silent_depthUpdate (streamId : UInt16) (m : DepthUpdate) :
    Silent (Strays m.symbol) (Instruments.depthUpdate sequencer settings streamId m) := by
  have hsequence : ∀ instrument, Silent (Strays m.symbol)
      (Instruments.sequence sequencer settings streamId m instrument) := by
    intro instrument
    refine silent_seqAll fun f hf => ?_
    simp only [List.mem_cons, List.not_mem_nil, or_false] at hf
    rcases hf with rfl | rfl | rfl | rfl
    · intro shared o ho
      rw [List.mem_singleton.mp ho]
      exact id
    · exact fun _ _ ho => absurd ho List.not_mem_nil
    · exact silent_map fun callback _ => silent_callback streamId m _ callback
    · exact fun _ _ ho => absurd ho List.not_mem_nil
  intro shared o ho
  unfold Instruments.depthUpdate at ho
  split at ho
  · simp only [List.mem_cons, List.not_mem_nil, or_false] at ho
    rcases ho with rfl | rfl <;> exact id
  · refine silent_seqAll (fun f hf => ?_) shared o ho
    simp only [List.mem_cons, List.not_mem_nil, or_false] at hf
    rcases hf with rfl | rfl | rfl
    · intro shared o ho
      rw [List.mem_singleton.mp ho]
      exact id
    · exact fun _ _ ho => absurd ho List.not_mem_nil
    · split
      · exact hsequence _
      · exact silent_skip _

variable {key : Key} {m : Message} {symbols assets : List String}

/-- An event of a channel of the connection, about a symbol of its slice. -/
structure Due (settings : Settings) (slices : Slices) (symbols : List String) (key : Key) (m : Message) :
    Prop where
  channel : m.channel settings ∈ key.kind.channels settings
  symbol : toLower m.symbol ∈ slices.slice key.index 0 symbols

theorem belongs_onShared {f : Instruments.Act Q} {symbol : String}
    (hf : Silent (Strays symbol) f) (hkind : key.kind ≠ .two)
    (hsymbol : toLower symbol ∈ slices.slice key.index 0 symbols) (w : World Q) :
    ∀ o ∈ (onShared key f w).2, Belongs settings slices symbols assets o := by
  intro o ho
  obtain ⟨o', ho', rfl⟩ := List.mem_map.mp ho
  have hstays := hf w.shared o' ho'
  cases o' with
  | topOfBook u => exact ⟨hkind, (not_not.mp hstays : u.symbol = symbol) ▸ hsymbol⟩
  | marketByPriceUpdate u => exact ⟨hkind, (not_not.mp hstays : u.symbol = symbol) ▸ hsymbol⟩
  | touch | sequence | fatal | terminate => trivial

/-- What is published of a trade, or of an aggregated one. -/
theorem belongs_trade {t : TradeSummary} {zero : Bool} (hplain : ¬ t.Forced)
    (hkind : key.kind = Market.tradeKind settings)
    (hsymbol : toLower t.symbol ∈ slices.slice key.index 0 symbols) :
    ∀ o ∈ Output.touch key :: (if zero then [] else [.tradeSummary key t]),
      Belongs settings slices symbols assets o := by
  intro o ho
  rcases List.mem_cons.mp ho with rfl | hpublished
  · trivial
  · split at hpublished
    · cases hpublished
    · rw [List.mem_singleton.mp hpublished]
      exact Or.inr ⟨hplain, hkind, hsymbol⟩

theorem belongs_marketData (hdue : Due settings slices symbols key m) (hkind : key.kind ≠ .two)
    (streamId : UInt16) (w : World Q) :
    ∀ o ∈ (marketData settings sequencer isZero key streamId m w).2,
      Belongs settings slices symbols assets o := by
  obtain ⟨hchannel, hsymbol⟩ := hdue
  cases m with
  | trade2 m =>
    obtain ⟨hprimary, hdetails⟩ := Market.mem_channels_trade.mp hchannel
    refine belongs_trade (t := { streamId, exchange := settings.exchange, .. })
      (by simp [TradeSummary.Forced]) ?_ hsymbol
    rw [hprimary, Market.tradeKind, if_pos hdetails]
  | bookTicker m => exact belongs_onShared (silent_bookTicker streamId m) hkind hsymbol w
  | depthUpdate m => exact belongs_onShared (silent_depthUpdate streamId m) hkind hsymbol w
  | aggTrade | miniTicker | markPriceUpdate | kline | assetIndexUpdate | forceOrder =>
    exfalso
    obtain ⟨kind, index⟩ := key
    cases kind with
    | two => exact hkind rfl
    | primary | secondary =>
      simp [Message.channel, MarketData.Kind.channels, MarketData.channels] at hchannel

theorem belongs_statistics {streamId : UInt16} {symbol : String} {eventTime : Nanos}
    {items : List Statistics} (hkind : key.kind = .two)
    (hsymbol : toLower symbol ∈ slices.slice key.index 0 symbols ∨
      key = Market.first ∧ ∃ asset ∈ assets, toLower asset = toLower symbol) (w : World Q) :
    ∀ o ∈ (statistics settings key streamId symbol eventTime items w).2,
      Belongs settings slices symbols assets o := by
  intro o ho
  simp only [statistics, emit_apply, List.mem_cons, List.not_mem_nil, or_false] at ho
  rcases ho with rfl | rfl
  · trivial
  · exact ⟨hkind, hsymbol⟩

theorem belongs_onMarket (f : Market.Act) (w : World Q) :
    ∀ o ∈ (onMarket f w).2, Belongs settings slices symbols assets o := by
  intro o ho
  obtain ⟨o', -, rfl⟩ := List.mem_map.mp ho
  trivial

theorem belongs_marketData2 (hdue : Due settings slices symbols key m) (hkind : key.kind = .two)
    (streamId : UInt16) (w : World Q) :
    ∀ o ∈ (marketData2 settings slices isZero key streamId m w).2,
      Belongs settings slices symbols assets o := by
  obtain ⟨hchannel, hsymbol⟩ := hdue
  cases m with
  | aggTrade m =>
    obtain ⟨-, hdetails⟩ := Market.mem_channels_aggTrade.mp hchannel
    refine belongs_trade (t := { streamId, exchange := settings.exchange, .. })
      (by simp [TradeSummary.Forced]) ?_ hsymbol
    rw [hkind, Market.tradeKind, if_neg hdetails]
  | miniTicker m => exact belongs_statistics hkind (Or.inl hsymbol) w
  | markPriceUpdate m => exact belongs_statistics hkind (Or.inl hsymbol) w
  | kline m => exact belongs_onMarket _ w
  | assetIndexUpdate m => exact absurd hchannel (MarketData.assetIndex_notMem settings key.kind)
  | forceOrder m => exact absurd hchannel (MarketData.forceOrder_notMem settings key.kind)
  | trade2 | bookTicker | depthUpdate =>
    exfalso
    rw [hkind] at hchannel
    simp [Message.channel, MarketData.Kind.channels, MarketData.channels2] at hchannel

/-- An event of a stream for which the exchange has been asked. -/
theorem belongs_receive {w : World Q} {s : MarketData}
    (hview : Market.view key w.market = some s)
    (h : Due settings slices symbols key m ∨ key = Market.first ∧
      ((∃ asset ∈ assets, toLower asset = toLower m.symbol ∧ m.channel settings = .assetIndex) ∨
        m.channel settings = .forceOrder)) :
    ∀ o ∈ (receive settings slices sequencer isZero key m w).2,
      Belongs settings slices symbols assets o := by
  rw [receive, hview]
  rcases h with hdue | ⟨rfl, ⟨asset, hasset, hname, hchannel⟩ | hchannel⟩
  · obtain ⟨kind, index⟩ := key
    cases kind with
    | two => exact belongs_marketData2 hdue rfl s.streamId w
    | primary | secondary => exact belongs_marketData hdue (by simp) s.streamId w
  · cases m with
    | assetIndexUpdate m => exact belongs_statistics rfl (Or.inr ⟨rfl, asset, hasset, hname⟩) w
    | _ => simp [Message.channel] at hchannel
  · cases m with
    | forceOrder m =>
      intro o ho
      simp only [Market.first, marketData2, forceOrder, emit_apply, List.mem_cons, List.not_mem_nil,
        or_false] at ho
      rcases ho with rfl | rfl
      · trivial
      · exact Or.inl ⟨by simp [TradeSummary.Forced], rfl⟩
    | _ => simp [Message.channel] at hchannel

/-! ### Runs -/

/-- What belongs to a connection stays with it. -/
theorem belongs_append {o : Output} (h : Belongs settings slices symbols assets o)
    (new newAssets : List String) :
    Belongs settings slices (symbols ++ new) (assets ++ newAssets) o := by
  have hslice : ∀ {x : String} {i : ℕ}, x ∈ slices.slice i 0 symbols →
      x ∈ slices.slice i 0 (symbols ++ new) := by
    intro x i hx
    rw [slices.slice_append]
    exact List.mem_append_left _ hx
  cases o with
  | unexpected key m => exact h
  | tradeSummary key t => exact h.imp id fun hown => ⟨hown.1, hown.2.1, hslice hown.2.2⟩
  | statisticsUpdate key u =>
    exact ⟨h.1, h.2.imp hslice fun ⟨hfirst, asset, hasset, hname⟩ =>
      ⟨hfirst, asset, List.mem_append_left _ hasset, hname⟩⟩
  | instruments key o =>
    cases o with
    | topOfBook u => exact ⟨h.1, hslice h.2⟩
    | marketByPriceUpdate u => exact ⟨h.1, hslice h.2⟩
    | touch | sequence | fatal | terminate => trivial
  | rest o =>
    cases o with
    | marketByPriceUpdate u => exact h
    | _ => trivial
  | market | touch => trivial

/-- The connections carry what has been queued, and everything published belongs to one of them. -/
structure Fed (settings : Settings) (slices : Slices) (out : List Output) (w : World Q) : Prop where
  carried : Market.Carried settings slices (out.filterMap Output.market?) w.market
  registered : Market.Registered w.market
  belongs : ∀ o ∈ out, Belongs settings slices w.market.symbols w.market.assets o

theorem fed_onMarket {e : Market.Event} {w : World Q} {out : List Output} (he : Market.Timely w.market e)
    (h : Fed settings slices out w) :
    Fed settings slices (out ++ (onMarket (Market.step settings slices e) w).2)
      (onMarket (Market.step settings slices e) w).1 := by
  have hout : ((Market.step settings slices e w.market).2.map Output.market).filterMap Output.market?
      = (Market.step settings slices e w.market).2 := by
    rw [List.filterMap_map]
    exact List.filterMap_some
  obtain ⟨-, hsymbols, hassets⟩ := Market.known_step settings slices e w.market
  refine ⟨?_, Market.registered_step settings slices h.registered, fun o ho => ?_⟩
  · rw [List.filterMap_append, onMarket, hout]
    exact Market.carried_step settings slices he h.carried
  · simp only [onMarket, hsymbols, hassets]
    rcases List.mem_append.mp ho with hbefore | hnow
    · exact belongs_append (h.belongs o hbefore) _ _
    · exact belongs_onMarket _ w o hnow

/-- A handler that has nothing to do with subscriptions. -/
theorem fed_other {f : Act Q} {w : World Q} {out : List Output} (hmarket : (f w).1.market = w.market)
    (hsilent : (f w).2.filterMap Output.market? = [])
    (hbelongs : ∀ o ∈ (f w).2, Belongs settings slices w.market.symbols w.market.assets o)
    (h : Fed settings slices out w) : Fed settings slices (out ++ (f w).2) (f w).1 := by
  refine ⟨?_, hmarket ▸ h.registered, fun o ho => ?_⟩
  · rw [List.filterMap_append, hsilent, List.append_nil, hmarket]
    exact h.carried
  · rw [hmarket]
    exact (List.mem_append.mp ho).elim (h.belongs o) (hbelongs o)

/-- Only klines are handled on the side of the subscriptions. -/
def Apart (f : Act Q) : Prop := ∀ w, (f w).1.market = w.market ∧ (f w).2.filterMap Output.market? = []

theorem apart_emit {os : List Output} (h : ∀ o ∈ os, o.market? = none) : Apart (Q := Q) (emit os) :=
  fun _ => ⟨rfl, List.filterMap_eq_nil_iff.mpr h⟩

theorem apart_onShared (f : Instruments.Act Q) : Apart (onShared key f) := by
  refine fun w => ⟨rfl, List.filterMap_eq_nil_iff.mpr fun o ho => ?_⟩
  obtain ⟨o', -, rfl⟩ := List.mem_map.mp ho
  rfl

theorem apart_trade {t : TradeSummary} {zero : Bool} :
    Apart (Q := Q) (emit (.touch key :: if zero then [] else [.tradeSummary key t])) := by
  refine apart_emit fun o ho => ?_
  rcases List.mem_cons.mp ho with rfl | hpublished
  · rfl
  · split at hpublished
    · cases hpublished
    · rw [List.mem_singleton.mp hpublished]
      rfl

theorem apart_marketData (streamId : UInt16) :
    Apart (marketData settings sequencer isZero key streamId m) := by
  cases m with
  | trade2 m => exact apart_trade
  | bookTicker m => exact apart_onShared _
  | depthUpdate m => exact apart_onShared _
  | _ => exact apart_emit (by simp [Output.market?])

theorem apart_marketData2 (hm : ∀ kline, m ≠ .kline kline) (streamId : UInt16) :
    Apart (Q := Q) (marketData2 settings slices isZero key streamId m) := by
  cases m with
  | aggTrade m => exact apart_trade
  | kline m => exact absurd rfl (hm m)
  | _ => exact apart_emit (by simp [Output.market?])

/-- The exchange sends an event of a stream for which it has been asked. -/
theorem due_of_heard {w : World Q} {out : List Output} {s : MarketData} (h : Fed settings slices out w)
    (hview : Market.view key w.market = some s) (hheard : m.stream settings ∈ heard key out) :
    Due settings slices w.market.symbols key m ∨ key = Market.first ∧
      ((∃ asset ∈ w.market.assets, toLower asset = toLower m.symbol ∧
        m.channel settings = .assetIndex) ∨ m.channel settings = .forceOrder) := by
  have hcovered := Market.covered_of_carried h.carried h.registered.nodup
  have hasked : m.stream settings ∈ Market.asked key (out.filterMap Output.market?) w.market := by
    rw [Market.asked, Market.onWire, List.flatMap_append]
    exact List.mem_append_left _ hheard
  rcases hcovered.only key s hview _ hasked with
    ⟨-, symbol, hsymbol, channel, hchannel, hstream⟩ | ⟨hfirst, ⟨asset, hasset, hstream⟩ | hstream⟩
  · obtain ⟨rfl, rfl⟩ := Message.eq_of_stream hstream (Channel.mem_all hchannel)
    exact Or.inl ⟨hchannel, hsymbol⟩
  · have hindex : Channel.assetIndex ∈ Channel.all settings := by simp [Channel.all]
    obtain ⟨hname, hchannel⟩ := Message.eq_of_stream hstream hindex
    exact Or.inr ⟨hfirst, Or.inl ⟨asset, hasset, hname.symm, hchannel⟩⟩
  · exact Or.inr ⟨hfirst, Or.inr (Message.channel_of_stream hstream)⟩

theorem fed_receive {w : World Q} {out : List Output} (hheard : m.stream settings ∈ heard key out)
    (h : Fed settings slices out w) :
    Fed settings slices (out ++ (receive settings slices sequencer isZero key m w).2)
      (receive settings slices sequencer isZero key m w).1 := by
  cases hview : Market.view key w.market with
  | none =>
    rw [receive, hview, List.append_nil]
    exact h
  | some s =>
    have hbelongs : ∀ o ∈ (receive settings slices sequencer isZero key m w).2,
        Belongs settings slices w.market.symbols w.market.assets o :=
      belongs_receive hview (due_of_heard h hview hheard)
    rw [receive, hview] at hbelongs ⊢
    obtain ⟨kind, index⟩ := key
    cases kind with
    | primary | secondary =>
      have hapart : ∀ key, Apart (marketData settings sequencer isZero key s.streamId m) :=
        fun _ => apart_marketData s.streamId
      obtain ⟨hmarket, hsilent⟩ := hapart _ w
      exact fed_other hmarket hsilent hbelongs h
    | two =>
      by_cases hkline : ∃ kline, m = .kline kline
      · obtain ⟨kline, rfl⟩ := hkline
        exact fed_onMarket ⟨by simp [Market.Event.asked, Market.Event.assets], trivial⟩ h
      · have hapart : Apart (Q := Q) (marketData2 settings slices isZero ⟨.two, index⟩ s.streamId m) :=
          apart_marketData2 (not_exists.mp hkline) s.streamId
        obtain ⟨hmarket, hsilent⟩ := hapart w
        exact fed_other hmarket hsilent hbelongs h

/-- An update of `Rest` that is not a snapshot of its own. -/
def Mislabelled : Rest.Output → Prop
  | .marketByPriceUpdate u => ¬ (u.updateType = .snapshot ∧ u.streamId = Market.restStreamId)
  | _ => False

theorem silent_emplaceBack (n : Option ℕ) (source : Rest.Source) (symbol : String) :
    Silent Mislabelled (Rest.emplaceBack (Q := Q) n source symbol) := by
  intro w o ho
  rw [List.mem_singleton.mp ho]
  exact id

/-- The book that `Rest` downloads is published as a snapshot. -/
theorem silent_depthAck (snapshots : SnapshotSequencer Q) (n : ℕ) (symbol : String) (m : Json.DepthAck) :
    Silent Mislabelled (Rest.depthAck snapshots settings n symbol m) := by
  have hcallback : ∀ last c, Silent Mislabelled (Rest.callback (Q := Q) settings n symbol m last c) := by
    intro last c
    cases c with
    | publishSnapshot bids asks sequence =>
      intro w o ho
      rw [List.mem_singleton.mp ho]
      exact not_not_intro ⟨rfl, rfl⟩
    | requestSnapshot retries =>
      unfold Rest.callback
      dsimp only
      split
      · intro w o ho
        rw [List.mem_singleton.mp ho]
        exact id
      · exact silent_emplaceBack _ _ _
  have hsequence : ∀ instrument,
      Silent Mislabelled (Rest.sequence snapshots settings n symbol m instrument) := by
    intro instrument
    unfold Rest.sequence
    refine silent_seqAll fun f hf => ?_
    simp only [List.mem_cons, List.not_mem_nil, or_false] at hf
    rcases hf with rfl | rfl | rfl | rfl
    · intro w o ho
      rw [List.mem_singleton.mp ho]
      exact id
    · intro w o ho
      cases ho
    · exact silent_map fun c _ => hcallback _ c
    · split
      · exact silent_emplaceBack _ _ _
      · exact silent_skip _
  exact fun w => hsequence _ w

theorem belongs_onRest {f : Rest.Act Q} (hf : Silent Mislabelled f) {symbols assets : List String}
    (w : World Q) : ∀ o ∈ (onRest f w).2, Belongs settings slices symbols assets o := by
  intro o ho
  obtain ⟨o', ho', rfl⟩ := List.mem_map.mp ho
  have hown := hf _ o' ho'
  cases o' with
  | marketByPriceUpdate u => exact not_not.mp hown
  | _ => trivial

theorem fed_step {snapshots : SnapshotSequencer Q} {e : Event Q} {w : World Q} {out : List Output}
    (h : Fed settings slices out w) (he : Answers settings out w e) :
    Fed settings slices (out ++ (step settings slices snapshots isZero e w).2)
      (step settings slices snapshots isZero e w).1 := by
  cases e with
  | market e => exact fed_onMarket he h
  | receive key m => exact fed_receive he h
  | depthAck n symbol m =>
    refine fed_other rfl ?_ (belongs_onRest (silent_depthAck snapshots n symbol m) w) h
    rw [step, onRest, List.filterMap_map]
    exact List.filterMap_eq_nil_iff.mpr fun _ _ => rfl

end

/-- What holds of everything that the connections have published, and of the books of `Rest`. -/
structure Published (settings : Settings) (slices : Slices) (out : List Output)
    (symbols assets : List String) : Prop where
  /-- No connection has met an event that it does not handle. -/
  expected : ∀ key m, .unexpected key m ∉ out
  /-- The trades of a symbol have been published by one connection, which has it in its slice. -/
  traded : ∀ key t, .tradeSummary key t ∈ out → ¬ t.Forced →
    key.kind = Market.tradeKind settings ∧ toLower t.symbol ∈ slices.slice key.index 0 symbols ∧
    ∀ key' t', .tradeSummary key' t' ∈ out → ¬ t'.Forced → toLower t'.symbol = toLower t.symbol →
      key' = key
  /-- Forced orders have been published by the first `MarketData2`. -/
  forced : ∀ key t, .tradeSummary key t ∈ out → t.Forced → key = Market.first
  /-- Quotes have been published by the connections of the slice, for which there is one at most of
      each kind. -/
  quoted : ∀ key u, .instruments key (.topOfBook u) ∈ out →
    key.kind ≠ .two ∧ toLower u.symbol ∈ slices.slice key.index 0 symbols
  booked : ∀ key u, .instruments key (.marketByPriceUpdate u) ∈ out →
    key.kind ≠ .two ∧ toLower u.symbol ∈ slices.slice key.index 0 symbols
  /-- Statistics have been published by the `MarketData2` of the slice, those of an index by the first. -/
  measured : ∀ key u, .statisticsUpdate key u ∈ out → key.kind = .two ∧
    (toLower u.symbol ∈ slices.slice key.index 0 symbols ∨
      key = Market.first ∧ ∃ asset ∈ assets, toLower asset = toLower u.symbol)
  /-- Books that `Rest` has published are snapshots of its own. -/
  downloaded : ∀ u, .rest (.marketByPriceUpdate u) ∈ out →
    u.updateType = .snapshot ∧ u.streamId = Market.restStreamId

theorem published_of_fed {Q : Type} {settings : Settings} {slices : Slices} {out : List Output}
    {w : World Q} (h : Fed settings slices out w) :
    Published settings slices out w.market.symbols w.market.assets where
  expected key m ho := h.belongs _ ho
  traded key t ho hplain := by
    have hown : ∀ {key t}, .tradeSummary key t ∈ out → ¬ t.Forced → key.kind = Market.tradeKind settings ∧
        toLower t.symbol ∈ slices.slice key.index 0 w.market.symbols := by
      intro key t ho hplain
      rcases h.belongs _ ho with ⟨hforced, -⟩ | ⟨-, hown⟩
      · exact absurd hforced hplain
      · exact hown
    obtain ⟨hkind, hslice⟩ := hown ho hplain
    refine ⟨hkind, hslice, fun key' t' ho' hplain' hsymbol => ?_⟩
    obtain ⟨hkind', hslice'⟩ := hown ho' hplain'
    rw [hsymbol] at hslice'
    exact Market.Key.ext (hkind'.trans hkind.symm)
      (slices.slice_unique h.registered.nodup hslice' hslice)
  forced key t ho hforced := by
    rcases h.belongs _ ho with ⟨-, hfirst⟩ | ⟨hplain, -⟩
    · exact hfirst
    · exact absurd hforced hplain
  quoted key u ho := h.belongs _ ho
  booked key u ho := h.belongs _ ho
  measured key u ho := h.belongs _ ho
  downloaded u ho := h.belongs _ ho

/-- CORRECT: if the exchange sends on a connection what it has been asked for there since the connection
    was lost, connections become ready only when they are not, and names are usable, then no connection
    ever meets an event that it does not handle, the trades of a symbol are published by one connection,
    and what else a connection publishes belongs to its slice, whatever the order of the events. -/
theorem published_run {Q : Type} (settings : Settings) (slices : Slices) (sequencer : SnapshotSequencer Q)
    (isZero : Double → Bool) {es : List (Event Q)}
    (hes : AlongWith (step settings slices sequencer isZero) (Answers settings) es [] {}) :
    Published settings slices (run (step settings slices sequencer isZero) es {}).2
      (run (step settings slices sequencer isZero) es {}).1.market.symbols
      (run (step settings slices sequencer isZero) es {}).1.market.assets := by
  have hinit : Fed settings slices [] ({} : World Q) := by
    refine ⟨⟨fun _ => rfl, ?_, ?_⟩, ⟨rfl, List.nodup_nil⟩, ?_⟩ <;> simp
  have hrun := keeps_alongWith (fun out w e h he => fed_step h he) hinit hes
  exact published_of_fed (by simpa using hrun)

/-- A symbol becomes known, its trades are asked for and sent, and its book is downloaded. -/
def followed : List (Event Unit) := [
  .market (.exchangeInfoAck [{ symbol := "BTCUSDT" }] fun _ => false), .market (.ready ⟨.two, 0⟩),
  .market (.timer ⟨.two, 0⟩ 1),
  .receive ⟨.two, 0⟩ (.aggTrade ⟨1, "BTCUSDT", 7, some 1, some 2, 1, true⟩),
  .depthAck 0 "BTCUSDT" ⟨7, 1, 1, [], []⟩]

theorem published_followed : Published {} (Slices.evenly 40 (by decide))
    (run (step {} (Slices.evenly 40 (by decide)) Rest.publishing (· = some 0)) followed {}).2
    (run (step {} (Slices.evenly 40 (by decide)) Rest.publishing (· = some 0))
      followed {}).1.market.symbols
    (run (step {} (Slices.evenly 40 (by decide)) Rest.publishing (· = some 0))
      followed {}).1.market.assets := by
  refine published_run {} (Slices.evenly 40 (by decide)) Rest.publishing (· = some 0) ?_
  refine ⟨⟨?_, trivial⟩, ⟨?_, ?_⟩, ⟨?_, trivial⟩, ?_, trivial, trivial⟩
  · decide
  · decide
  · decide
  · decide
  · show _ ∈ heard _ _
    decide +kernel

end Feeds
end BinanceFutures
