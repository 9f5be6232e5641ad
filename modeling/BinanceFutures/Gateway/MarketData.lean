import BinanceFutures.Gateway.Settings
import BinanceFutures.Schemes.Machine
import BinanceFutures.Schemes.Slices

/-! # Market data

    A market data connection subscribes to the symbols of its slice: to all that are known when it
    becomes ready, and from then on to those that its slice gains. What it asks for goes into a queue,
    from which the timer sends as much as the rate limiter lets through; the queue is cleared when the
    connection is lost.

        MarketData  PRIMARY     bookTicker, trade, depth
        MarketData  SECONDARY   bookTicker, depth
        MarketData2             aggTrade, markPrice, miniTicker, kline_1m; assetIndex, !forceOrder@arr

    The symbols belong to `core::Symbols`, which is not part of the gateway: `Slices` is what is assumed
    of it. -/

namespace BinanceFutures
open Machine

/-! ### Time series -/

structure Bar where
  beginTimeUtc : Nanos
  confirmed : Bool
  openPrice : Double
  highPrice : Double
  lowPrice : Double
  closePrice : Double
  quantity : Double := nan
  baseAmount : Double
  quoteAmount : Double
  numberOfTrades : UInt32
  vwap : Double := nan
  deriving DecidableEq

structure TimeSeriesUpdate where
  streamId : UInt16
  exchange : String
  symbol : String
  interval : Nanos
  origin : Origin
  bars : List Bar
  updateType : UpdateType
  exchangeTimeUtc : Nanos
  deriving DecidableEq

namespace Json

structure KlineData where
  beginTime : Nanos
  symbol : String
  openPrice : Double
  closePrice : Double
  highPrice : Double
  lowPrice : Double
  baseAssetVolume : Double
  numberOfTrades : UInt32
  closed : Bool
  quoteAssetVolume : Double

structure Kline where
  eventTime : Nanos
  data : KlineData

end Json

/-! ### Subscriptions -/

/-- A channel of a market stream. -/
inductive Channel where
  | bookTicker | trade | depth (freq : Nanos) | aggTrade | markPrice (freq : Nanos) | miniTicker
  | kline1m | assetIndex | forceOrder
  deriving DecidableEq

def Channel.name : Channel → String
  | .bookTicker => "bookTicker"
  | .trade => "trade"
  | .depth freq => "depth@" ++ toString (freq / milliseconds 1) ++ "ms"
  | .aggTrade => "aggTrade"
  | .markPrice freq =>
    if freq ≠ 0 then "markPrice@" ++ toString (freq / seconds 1) ++ "s" else "markPrice"
  | .miniTicker => "miniTicker"
  | .kline1m => "kline_1m"
  | .assetIndex => "assetIndex"
  | .forceOrder => "!forceOrder@arr"

/-- A request to subscribe, to the channel of every symbol or asset that it names. -/
structure Subscription where
  id : UInt64
  channel : Channel
  names : List String
  deriving DecidableEq

namespace Subscription

/-- What stands between the quotes of the parameters. -/
def params (s : Subscription) : String :=
  match s.channel with
  | .forceOrder => s.channel.name
  | _ => ("@" ++ s.channel.name ++ "\",\"").intercalate s.names ++ "@" ++ s.channel.name

def message (s : Subscription) : String :=
  "\x7b\"method\":\"SUBSCRIBE\",\"params\":[\"" ++ s.params ++ "\"],\"id\":" ++ toString s.id ++ "\x7d"

end Subscription

/-! ### Connections -/

/-- `MarketData` and `MarketData2`, which alone has `assets_` -/
structure MarketData where
  streamId : UInt16
  index : ℕ
  connectionStatus : ConnectionStatus := .undefined
  requestId : UInt64
  subscribeQueue : List Subscription := []
  assets : List String := []
  deriving DecidableEq

namespace MarketData

/-- The connections of a `MarketData` with either priority, and those of a `MarketData2`. -/
inductive Kind where | primary | secondary | two
  deriving DecidableEq

inductive Output where
  | start
  | streamStatus (status : ConnectionStatus)
  /-- A subscription goes into the queue. -/
  | queued (s : Subscription)
  /-- A symbol goes into the `time_series_request_queue` that all share. -/
  | timeSeriesRequest (symbol : String)
  | sendText (message : String)
  | touch
  | timeSeriesUpdate (m : TimeSeriesUpdate)
  deriving DecidableEq

/-- The symbol that goes into the `time_series_request_queue`. -/
def Output.request : Output → Option String
  | .timeSeriesRequest symbol => some symbol
  | _ => none

abbrev Act := Action MarketData Output

def create (streamId : UInt16) (index : ℕ) : MarketData where
  streamId := streamId
  index := index
  requestId := streamId.toUInt64 * 1000000

def ready (s : MarketData) : Bool := s.connectionStatus = .ready

/-- `operator()(ConnectionStatus)` -/
def status (status : ConnectionStatus) : Act := fun s =>
  ({ s with connectionStatus := status }, [.streamStatus status])

/-- `subscribe(symbols, channel)` and its relatives -/
def enqueue (names : List String) (channel : Channel) : Act := fun s =>
  let subscription := { id := s.requestId + 1, channel, names }
  ({ s with requestId := s.requestId + 1, subscribeQueue := s.subscribeQueue ++ [subscription] },
    [.queued subscription])

section
variable (settings : Settings)

/-- The channels of a `MarketData`. -/
def channels (primary : Bool) : List Channel :=
  [.bookTicker]
    ++ (if primary ∧ settings.ws.subscribeTradeDetails then [.trade] else [])
    ++ (if settings.ws.subscribeDepthLevels ≠ 0 then [.depth settings.ws.subscribeDepthFreq] else [])

/-- The channels of a `MarketData2`. -/
def channels2 : List Channel :=
  (if !settings.ws.subscribeTradeDetails then [.aggTrade] else [])
    ++ [.markPrice settings.ws.markPriceFreq, .miniTicker]
    ++ (if settings.download.timeSeriesLookback ≠ 0 then [.kline1m] else [])

/-- The channels that are subscribed for every symbol. -/
def Kind.channels : Kind → List Channel
  | .primary => MarketData.channels settings true
  | .secondary => MarketData.channels settings false
  | .two => channels2 settings

/-- What `MarketData2::subscribe(symbols)` does besides. -/
def extra (symbols : List String) : Act := seq
  (if settings.download.timeSeriesLookback ≠ 0 then emit (symbols.map .timeSeriesRequest) else skip)
  (guarded (fun s => s.index = 0 ∧ settings.misc.subscribeForceOrder) (enqueue [] .forceOrder))

/-- `subscribe(symbols)` -/
def subscribe (kind : Kind) (symbols : List String) : Act :=
  if symbols = [] then skip else seq
    (seqAll ((kind.channels settings).map (enqueue symbols)))
    (match kind with
      | .primary | .secondary => skip
      | .two => extra settings symbols)

/-- `subscribe(start_from)` -/
def subscribeFrom (slices : Slices) (kind : Kind) (symbols : List String) (startFrom : ℕ) : Act :=
  fun s =>
    if s.ready then subscribe settings kind (slices.slice s.index startFrom symbols) s else (s, [])

/-- `operator()(Ready)` -/
def onReady (slices : Slices) (kind : Kind) (symbols : List String) : Act := seqAll [
  status .ready,
  subscribeFrom settings slices kind symbols 0,
  match kind with
    | .primary | .secondary => skip
    | .two => guarded (·.assets ≠ []) fun s => enqueue s.assets .assetIndex s]

/-- `operator()(Disconnected)` -/
def onDisconnected : Act := seq (status .disconnected) (modify ({ · with subscribeQueue := [] }))

/-- `MarketData2::operator()(assets)` -/
def announce (assets : List String) : Act := seq
  (modify fun s => { s with assets := s.assets ++ assets.map toLower })
  (enqueue (assets.map toLower) .assetIndex)

/-- `operator()(Timer)`, where the rate limiter lets `n` messages through. -/
def onTimer (n : ℕ) : Act := guarded ready fun s =>
  ({ s with subscribeQueue := s.subscribeQueue.drop n },
    (s.subscribeQueue.take n).map fun subscription => .sendText subscription.message)

/-- The bar of a kline. -/
def toBar (kline : Json.Kline) : Bar where
  beginTimeUtc := kline.data.beginTime
  confirmed := kline.data.closed
  openPrice := kline.data.openPrice
  highPrice := kline.data.highPrice
  lowPrice := kline.data.lowPrice
  closePrice := kline.data.closePrice
  baseAmount := kline.data.baseAssetVolume
  quoteAmount := kline.data.quoteAssetVolume
  numberOfTrades := kline.data.numberOfTrades

/-- `MarketData2::operator()(Kline)` -/
def onKline (kline : Json.Kline) : Act := fun s =>
  (s, .touch :: if !kline.data.closed && !settings.timeSeries.realtime then [] else
    [.timeSeriesUpdate {
      streamId := s.streamId, exchange := settings.exchange, symbol := kline.data.symbol
      interval := settings.timeSeries.interval, origin := .exchange, bars := [toBar kline]
      updateType := .incremental, exchangeTimeUtc := kline.eventTime }])

end

/-! ### What the handlers put out -/

section
variable {p : Output → Prop}

theorem silent_enqueue (hqueued : ∀ s, ¬ p (.queued s)) (names : List String) (channel : Channel) :
    Silent p (enqueue names channel) := by
  intro s o ho
  rw [List.mem_singleton.mp ho]
  exact hqueued _

theorem silent_onTimer (hsent : ∀ message, ¬ p (.sendText message)) (n : ℕ) : Silent p (onTimer n) := by
  refine silent_guarded _ fun s o ho => ?_
  obtain ⟨subscription, -, rfl⟩ := List.mem_map.mp ho
  exact hsent _

variable (settings : Settings)

theorem silent_onKline (htouch : ¬ p .touch) (hupdate : ∀ m, ¬ p (.timeSeriesUpdate m))
    (kline : Json.Kline) : Silent p (onKline settings kline) := by
  intro s o ho
  rcases List.mem_cons.mp ho with rfl | hpublished
  · exact htouch
  · split at hpublished
    · cases hpublished
    · rw [List.mem_singleton.mp hpublished]
      exact hupdate _

variable {symbols : List String} (hqueued : ∀ s, ¬ p (.queued s))
  (hrequest : ∀ symbol ∈ symbols, ¬ p (.timeSeriesRequest symbol))
include hqueued hrequest

theorem silent_extra : Silent p (extra settings symbols) := by
  refine silent_seq ?_ (silent_guarded _ (silent_enqueue hqueued _ _))
  split
  · intro s o ho
    obtain ⟨symbol, hsymbol, rfl⟩ := List.mem_map.mp ho
    exact hrequest symbol hsymbol
  · exact silent_skip _

theorem silent_subscribe (kind : Kind) : Silent p (subscribe settings kind symbols) := by
  unfold subscribe
  split
  · exact silent_skip _
  · refine silent_seq (silent_map fun channel _ => ?_) ?_
    · exact silent_enqueue hqueued symbols channel
    · cases kind with
      | two => exact silent_extra settings hqueued hrequest
      | _ => exact silent_skip _

/-- Subscribing queues subscriptions, and requests for the symbols. -/
theorem silent_subscribeFrom (slices : Slices) (kind : Kind) (startFrom : ℕ) :
    Silent p (subscribeFrom settings slices kind symbols startFrom) := by
  intro s
  unfold subscribeFrom
  split
  · exact silent_subscribe settings hqueued
      (fun symbol hmem => hrequest symbol (slices.mem_of_mem_slice hmem)) kind s
  · intro o ho
    cases ho

end

/-! ### What is queued -/

/-- The names that are queued on the channel. -/
def Output.names (channel : Channel) : Output → List String
  | .queued s => if s.channel = channel then s.names else []
  | _ => []

def named (channel : Channel) (out : List Output) : List String := out.flatMap (Output.names channel)

@[simp] theorem named_nil (channel : Channel) : named channel [] = [] := rfl

theorem named_append (channel : Channel) (out out' : List Output) :
    named channel (out ++ out') = named channel out ++ named channel out' := List.flatMap_append

theorem named_of_silent {channel : Channel} {f : Act}
    (h : Silent (fun o => o.names channel ≠ []) f) (s : MarketData) : named channel (f s).2 = [] :=
  List.flatMap_eq_nil_iff.mpr fun o ho => not_not.mp (h s o ho)

@[simp] theorem named_enqueue (channel c : Channel) (names : List String) (s : MarketData) :
    named channel (enqueue names c s).2 = if c = channel then names else [] := by
  simp [named, enqueue, Output.names]

/-- Of a list of distinct channels, each is queued once. -/
theorem named_enqueueAll (channel : Channel) (names : List String) : ∀ {cs : List Channel}
    (_ : cs.Nodup) (s : MarketData),
    named channel (seqAll (cs.map (enqueue names)) s).2 = if channel ∈ cs then names else []
  | [], _, _ => by simp [seqAll]
  | c :: cs, h, s => by
      obtain ⟨hc, hcs⟩ := List.nodup_cons.mp h
      rw [List.map_cons, seqAll, seq_snd, named_append, named_enqueue,
        named_enqueueAll channel names hcs]
      by_cases heq : c = channel
      · subst heq
        simp [hc]
      · simp [heq, Ne.symm heq]

section
variable (settings : Settings)

theorem nodup_channels (kind : Kind) : (kind.channels settings).Nodup := by
  cases kind <;> simp only [Kind.channels, channels, channels2] <;> split <;> split <;> simp

theorem named_extra (channel : Channel) (symbols : List String) (s : MarketData) :
    named channel (extra settings symbols s).2 = [] := by
  have horder : Silent (fun o => o.names channel ≠ []) (enqueue [] .forceOrder) := by
    intro s o ho
    rw [List.mem_singleton.mp ho]
    simp [Output.names]
  refine named_of_silent (silent_seq ?_ (silent_guarded _ horder)) s
  split
  · intro s o ho
    obtain ⟨symbol, -, rfl⟩ := List.mem_map.mp ho
    simp [Output.names]
  · exact silent_skip _

/-- The symbols are queued on the channels of the kind, on each once. -/
theorem named_subscribe (kind : Kind) (channel : Channel) (symbols : List String) (s : MarketData) :
    named channel (subscribe settings kind symbols s).2
      = if channel ∈ kind.channels settings then symbols else [] := by
  unfold subscribe
  split
  next hnil => simp [hnil]
  next =>
    have hrest : ∀ s : MarketData, named channel ((match kind with
        | .primary | .secondary => skip
        | .two => extra settings symbols : Act) s).2 = [] := by
      intro s
      cases kind with
      | two => exact named_extra settings channel symbols s
      | _ => rfl
    rw [seq_snd, named_append, named_enqueueAll channel symbols (nodup_channels settings kind), hrest,
      List.append_nil]

end

theorem named_onTimer (channel : Channel) (n : ℕ) (s : MarketData) :
    named channel (onTimer n s).2 = [] :=
  named_of_silent (silent_onTimer (by simp [Output.names]) n) s

theorem named_onKline (settings : Settings) (channel : Channel) (kline : Json.Kline) (s : MarketData) :
    named channel (onKline settings kline s).2 = [] :=
  named_of_silent (silent_onKline settings (by simp [Output.names]) (by simp [Output.names]) kline) s

/-! ### What is left alone -/

/-- The outputs by which a session begins or ends. -/
def Output.turns : Output → Bool
  | .streamStatus _ => true
  | _ => false

/-- The action queues things at most. -/
def Quiet (f : Act) : Prop :=
  Frame (fun s : MarketData => (s.connectionStatus, s.index, s.assets)) f ∧
    Silent (fun o => o.turns = true) f

theorem quiet_skip : Quiet skip := ⟨fun _ => rfl, silent_skip _⟩

theorem quiet_seq {f g : Act} (hf : Quiet f) (hg : Quiet g) : Quiet (seq f g) :=
  ⟨frame_seq hf.1 hg.1, silent_seq hf.2 hg.2⟩

theorem quiet_seqAll {fs : List Act} (h : ∀ f ∈ fs, Quiet f) : Quiet (seqAll fs) :=
  ⟨frame_seqAll fun f hf => (h f hf).1, silent_seqAll fun f hf => (h f hf).2⟩

theorem quiet_guarded {f : Act} (b : MarketData → Bool) (hf : Quiet f) : Quiet (guarded b f) :=
  ⟨frame_guarded b hf.1, silent_guarded b hf.2⟩

theorem quiet_enqueue (names : List String) (channel : Channel) : Quiet (enqueue names channel) :=
  ⟨fun _ => rfl, silent_enqueue (by simp [Output.turns]) names channel⟩

section
variable (settings : Settings)

theorem quiet_extra (symbols : List String) : Quiet (extra settings symbols) := by
  refine ⟨frame_seq ?_ (frame_guarded _ fun _ => rfl),
    silent_extra settings (by simp [Output.turns]) (by simp [Output.turns])⟩
  split
  · exact fun _ => rfl
  · exact fun _ => rfl

theorem quiet_subscribe (kind : Kind) (symbols : List String) :
    Quiet (subscribe settings kind symbols) := by
  refine ⟨?_, silent_subscribe settings (by simp [Output.turns]) (by simp [Output.turns]) kind⟩
  unfold subscribe
  split
  · exact fun _ => rfl
  · refine frame_seq (frame_map fun channel _ => ?_) ?_
    · exact fun _ => rfl
    · cases kind with
      | two => exact (quiet_extra settings symbols).1
      | _ => exact fun _ => rfl

theorem quiet_subscribeFrom (slices : Slices) (kind : Kind) (symbols : List String) (startFrom : ℕ) :
    Quiet (subscribeFrom settings slices kind symbols startFrom) := by
  refine ⟨fun s => ?_, silent_subscribeFrom settings (by simp [Output.turns]) (by simp [Output.turns])
    slices kind startFrom⟩
  unfold subscribeFrom
  split
  · exact (quiet_subscribe settings kind _).1 s
  · rfl

theorem quiet_onTimer (n : ℕ) : Quiet (onTimer n) :=
  ⟨frame_guarded _ fun _ => rfl, silent_onTimer (by simp [Output.turns]) n⟩

theorem quiet_onKline (kline : Json.Kline) : Quiet (onKline settings kline) :=
  ⟨fun _ => rfl, silent_onKline settings (by simp [Output.turns]) (by simp [Output.turns]) kline⟩

end

end MarketData
end BinanceFutures
