import BinanceFutures.Gateway.Api
import BinanceFutures.Gateway.Instruments
import BinanceFutures.Gateway.Market
import BinanceFutures.Gateway.Verdicts
import BinanceFutures.Schemes.Ledger

/-! # Rest

    The public REST stream. It downloads what the gateway has to know before it is ready, and then takes
    snapshot requests from two queues that the market data streams fill.

        MarketData ──▶ depth_request_queue ───────▶ GET depth  ─▶ DepthAck ─▶ sequencer ─▶ SNAPSHOT
             ▲                                                                   │
             └── request_snapshot, BadState ◀────────────────────────────────────┘
        MarketData2 ─▶ time_series_request_queue ─▶ GET klines ─▶ KlineAck ─▶ TimeSeriesUpdate

    The HTTP client calls back once for every request it was given, with a network error if the
    connection is lost: `calls` holds the requests that have not been answered. -/

namespace BinanceFutures
open Machine

namespace Json

structure DepthAck where
  lastUpdateId : UInt64
  messageOutputTime : Nanos
  transactionTime : Nanos
  bids : List DepthUpdateBidsAsksItem
  asks : List DepthUpdateBidsAsksItem

end Json

/-- What a sequencer calls back for when it is handed a snapshot. -/
inductive SnapshotCallback where
  | publishSnapshot (bids asks : List MBPUpdate) (sequence : UInt64)
  | requestSnapshot (retries : ℕ)

/-- The other call operator of `market::mbp::Sequencer`. It may end in `BadState`, too. -/
structure SnapshotSequencer (Q : Type) extends Sequencer Q where
  snapshot : Q → List MBPUpdate → List MBPUpdate → UInt64 → Q × List SnapshotCallback × Bool

def RestResponse.isSuccess {α : Type} : RestResponse α → Bool
  | .success _ => true
  | _ => false

namespace Rest

/-- The queues of snapshot requests. -/
inductive Source where | depth | timeSeries
  deriving DecidableEq

/-- `State` of the download. -/
inductive State where | undefined | exchangeInfo | assetIndex | done
  deriving DecidableEq

/-- A request to the exchange, with what its callback captures. -/
inductive Call where
  | exchangeInfo (sequence : ℕ)
  | assetIndex (sequence : ℕ)
  | depth (symbol : String)
  | kline (symbol : String)
  deriving DecidableEq

/-- What a successful answer's body is parsed into. -/
def Call.Ack : Call → Type
  | .exchangeInfo _ => List Json.Symbol
  | .assetIndex _ => List String
  | .depth _ => Json.DepthAck
  | .kline _ => List Json.KlineAckDataItem

/-- The queue that a snapshot request comes from, and its symbol. -/
def Call.errand : Call → Option (Source × String)
  | .depth symbol => some (.depth, symbol)
  | .kline symbol => some (.timeSeries, symbol)
  | _ => none

def Source.call : Source → String → Call
  | .depth => .depth
  | .timeSeries => .kline

/-- The members of `Rest` and `Shared` that are used. -/
structure World (Q : Type) where
  connectionStatus : ConnectionStatus := .undefined
  calls : Ledger Call := .empty
  shared : Instruments.Shared Q := {}
  timeSeriesRequestQueue : List String := []

def World.queue {Q : Type} (w : World Q) : Source → List String
  | .depth => w.shared.depthRequestQueue
  | .timeSeries => w.timeSeriesRequestQueue

def World.setQueue {Q : Type} (w : World Q) (source : Source) (queue : List String) : World Q :=
  match source with
  | .depth => { w with shared.depthRequestQueue := queue }
  | .timeSeries => { w with timeSeriesRequestQueue := queue }

inductive Output where
  | fatal
  | connectionStart | connectionStop
  | suspendFor (t : Nanos)
  | streamStatus (status : ConnectionStatus) (reason : String)
  | externalLatency (sample : Nanos)
  | downloadBegin | downloadBump | downloadReset
  | downloadRetry (state : State)
  | downloadCheck (state : State)
  /-- A request goes out, under its number. -/
  | request (n : ℕ) (call : Call) (request : HttpRequest)
  | exchangeInfoAck (items : List Json.Symbol)
  | assetIndexAck (symbols : List String)
  /-- The answer to a request is handed to the sequencer of the symbol's instrument. -/
  | sequence (n : ℕ) (symbol : String)
  | marketByPriceUpdate (m : MarketByPriceUpdate)
  /-- The answer to a request has bars, and is published. -/
  | timeSeriesUpdate (n : ℕ) (m : TimeSeriesUpdate)
  /-- The answer to a request has no bars. -/
  | noBars (n : ℕ) (symbol : String)
  /-- A symbol is put at the end of a queue; the number is that of the request that has been answered. -/
  | emplaceBack (n : Option ℕ) (source : Source) (symbol : String)
  | marketData (o : Instruments.Output)

/-- The download runs its callback for a state, and its sequence is this one then. -/
structure Visit where
  state : State
  sequence : ℕ

/-- What `download_` answers while a response is handled. -/
structure Answers where
  downloading : Bool := false
  skip : Bool := false
  visits : List Visit := []

inductive Event where
  | start
  | stop
  /-- The rate limiter lets so many requests of each queue through. -/
  | timer (refresh : Bool) (limit : Source → ℕ)
  | connected (env : Answers)
  | disconnected (env : Answers)
  | latency (sample : Nanos)
  | answer (n : ℕ) (call : Call) (response : RestResponse call.Ack) (env : Answers)
  /-- A `MarketData` receives a message. -/
  | message (streamId : UInt16) (m : Instruments.Message)
  /-- `MarketData2::subscribe` -/
  | subscribe (symbols : List String)

section
variable {Q : Type} (sequencer : SnapshotSequencer Q) (api : API) (settings : Settings)

/-- An action of the stream. -/
abbrev Act (Q : Type) := Action (World Q) Output

def setStatus (status : ConnectionStatus) (reason : String) : Act Q := fun w =>
  ({ w with connectionStatus := status }, [.streamStatus status reason])

def isReady (w : World Q) : Bool := w.connectionStatus = .ready

/-- The request of a call. -/
def httpRequest : Call → HttpRequest
  | .exchangeInfo _ =>
    { method := .get, path := api.marketData.exchangeInfo, query := "", headers := ""
      requestId := "exchange-info" }
  | .assetIndex _ =>
    { method := .get, path := api.marketData.assetIndex, query := "", headers := ""
      requestId := "asset-index" }
  | .depth symbol =>
    { method := .get, path := api.marketData.depth
      query := "?symbol=" ++ symbol ++ "&limit=" ++ toString settings.ws.subscribeDepthLevels
      headers := "", requestId := "depth" }
  | .kline symbol =>
    { method := .get, path := api.marketData.kline, query := "?symbol=" ++ symbol ++ "&interval=1m"
      headers := "", requestId := "kline" }

/-- `(*connection_)(request, callback, …)` -/
def send (call : Call) : Act Q := fun w =>
  ({ w with calls := w.calls.enter call }, [.request w.calls.next call (httpRequest api settings call)])

/-- `emplace_back` of a request queue -/
def emplaceBack (n : Option ℕ) (source : Source) (symbol : String) : Act Q := fun w =>
  (w.setQueue source (w.queue source ++ [symbol]), [.emplaceBack n source symbol])

/-! ### `process_response` -/

/-- The error handler that a caller passes in; what it is told is logged. -/
abbrev OnError (Q : Type) := Origin → RequestStatus → Error → String → Act Q

/-- The `catch` clauses. -/
def caught (onError : OnError Q) : Raised → Act Q
  | .network status error what => onError .gateway status error what
  | .oms _ _ _ what | .other what => onError .exchange .error .unknown what

/-- What becomes of a response, or `none` where the process ends. -/
def processResponse {α : Type} (r : RestResponse α) (onError : OnError Q) (onSuccess : α → Act Q) :
    Option (Act Q) :=
  let rateLimit (text : String) (retryAfter : Nanos) : Act Q :=
    seq (emit (if retryAfter ≠ 0 then [.suspendFor retryAfter] else []))
      (onError .exchange .rejected .requestRateLimitReached text)
  match r with
  | .unexpected e => some (caught onError e)
  | .success (.ok body) => some (onSuccess body)
  | .success (.error e) => some (caught onError e)
  | .redirection => none
  | .clientError status text retryAfter body =>
    if status = forbidden then
      -- note! this is *very* serious
      if settings.rest.terminateOn403 then none
      else some (seq (emit [.suspendFor settings.rest.backOffDelay]) (rateLimit text retryAfter))
    else if status = iAmATeapot ∨ status = tooManyRequests then some (rateLimit text retryAfter)
    else match body with
      | .ok error => some (onError .exchange .rejected (Json.guessError error.code) error.msg)
      | .error e => some (caught onError e)
  | .serverError text => some (onError .exchange .rejected .unknown text)
  | .raised e => some (caught onError e)

/-- The caller of `process_response`. -/
def reply (answer : Option (Act Q)) : Act Q := answer.getD (emit [.fatal])

/-- The error handler of the snapshot requests, which only logs. -/
def logError : OnError Q := fun _ _ _ _ => skip

/-! ### Download -/

/-- `download` -/
def download (v : Visit) : Act Q :=
  match v.state with
  | .undefined => skip
  | .exchangeInfo =>
    seq (setStatus .downloading "exchange-info") (send api settings (.exchangeInfo v.sequence))
  | .assetIndex =>
    seq (setStatus .downloading "asset-index")
      (if api.marketData.assetIndex = "" ∨ settings.misc.subscribeAssetIndex = false then skip
        else send api settings (.assetIndex v.sequence))
  | .done => setStatus .ready ""

/-- The callbacks of one call of the download. -/
def visit (env : Answers) : Act Q := seqAll (env.visits.map (download api settings))

/-- The acknowledgement of a state of the download. A success that comes too late is not parsed. -/
def downloadAck {α : Type} (state : State) (r : RestResponse α) (env : Answers) (ack : α → Output) :
    Act Q :=
  if r.isSuccess && env.skip then skip
  else reply (processResponse settings r
    (fun _ _ _ _ => if env.downloading then seq (emit [.downloadRetry state]) (visit api settings env)
      else skip)
    fun body => seqAll [emit [ack body], emit [.downloadCheck state], visit api settings env])

/-- `get_exchange_info_ack` -/
def getExchangeInfoAck (r : RestResponse (List Json.Symbol)) (env : Answers) : Act Q :=
  downloadAck api settings .exchangeInfo r env .exchangeInfoAck

/-- `get_asset_index_ack` -/
def getAssetIndexAck (r : RestResponse (List String)) (env : Answers) : Act Q :=
  downloadAck api settings .assetIndex r env .assetIndexAck

/-! ### Depth -/

/-- A callback of the sequencer, which is at `last` then. -/
def callback (n : ℕ) (symbol : String) (m : Json.DepthAck) (last : UInt64) : SnapshotCallback → Act Q
  | .publishSnapshot bids asks _ => emit [.marketByPriceUpdate {
      streamId := Market.restStreamId, exchange := settings.exchange, symbol, bids, asks
      updateType := .snapshot, exchangeTimeUtc := m.transactionTime, exchangeSequence := last
      sendingTimeUtc := m.messageOutputTime }]
  | .requestSnapshot retries =>
    if settings.ws.mbpRequestMaxRetries ≠ 0 ∧ settings.ws.mbpRequestMaxRetries < retries then emit [.fatal]
    else emplaceBack (some n) .depth symbol

/-- The instrument's sequencer is handed the snapshot. -/
def sequence (n : ℕ) (symbol : String) (m : Json.DepthAck) (instrument : Instrument Q) : Act Q :=
  let (q, callbacks, badState) := sequencer.snapshot instrument.sequencer
    (m.bids.map Instruments.toMBPUpdate) (m.asks.map Instruments.toMBPUpdate) m.lastUpdateId
  seqAll [
    emit [.sequence n symbol],
    modify fun w => { w with
      shared := Instruments.setInstrument w.shared symbol
        { instrument with sequencer := if badState then sequencer.clear q else q } },
    seqAll (callbacks.map (callback settings n symbol m (sequencer.lastSequence q))),
    if badState then emplaceBack (some n) .depth symbol else skip]

/-- `operator()(DepthAck)` -/
def depthAck (n : ℕ) (symbol : String) (m : Json.DepthAck) : Act Q := fun w =>
  sequence sequencer settings n symbol m
    (Instruments.getInstrument sequencer.toSequencer w.shared symbol) w

/-- `get_depth_ack` -/
def getDepthAck (n : ℕ) (symbol : String) (r : RestResponse Json.DepthAck) : Act Q :=
  reply (processResponse settings r logError (depthAck sequencer settings n symbol))

/-! ### Klines -/

/-- `operator()(KlineAck)` -/
def klineAck (n : ℕ) (symbol : String) (items : List Json.KlineAckDataItem) : Act Q :=
  if items = [] then emit [.noBars n symbol]
  else emit [.timeSeriesUpdate n {
    streamId := Market.restStreamId, exchange := settings.exchange, symbol
    interval := settings.timeSeries.interval, origin := .exchange, bars := items.map Market.toBar
    updateType := .snapshot, exchangeTimeUtc := 0 }]

/-- `get_kline_ack` -/
def getKlineAck (n : ℕ) (symbol : String) (r : RestResponse (List Json.KlineAckDataItem)) : Act Q :=
  reply (processResponse settings r logError (klineAck settings n symbol))

/-! ### `check_request_queue` -/

/-- One request is taken from the queue. -/
def takeOne (source : Source) : Act Q := fun w =>
  match w.queue source with
  | [] => (w, [])
  | symbol :: rest => send api settings (source.call symbol) (w.setQueue source rest)

/-- `dispatch` of a request queue -/
def dispatch (source : Source) (limit : ℕ) : Act Q :=
  seqAll (List.replicate limit (takeOne api settings source))

/-- `check_request_queue` -/
def checkRequestQueue (limit : Source → ℕ) : Act Q :=
  seq (dispatch api settings .depth (limit .depth)) (dispatch api settings .timeSeries (limit .timeSeries))

/-! ### Events -/

/-- The callback of a call. -/
def acknowledge (n : ℕ) (env : Answers) : (call : Call) → RestResponse call.Ack → Act Q
  | .exchangeInfo _, r => getExchangeInfoAck api settings r env
  | .assetIndex _, r => getAssetIndexAck api settings r env
  | .depth symbol, r => getDepthAck sequencer settings n symbol r
  | .kline symbol, r => getKlineAck settings n symbol r

/-- An answer to an outstanding request; there are no others. -/
def answer (n : ℕ) (call : Call) (r : RestResponse call.Ack) (env : Answers) : Act Q := fun w =>
  if (n, call) ∈ w.calls.entries then
    acknowledge sequencer api settings n env call r { w with calls := w.calls.settle n }
  else (w, [])

/-- A market data stream handles a message, and may ask for snapshots. -/
def message (streamId : UInt16) (m : Instruments.Message) : Act Q := fun w =>
  let (shared, out) := Instruments.step sequencer.toSequencer settings (.message streamId m) w.shared
  let asked := shared.depthRequestQueue.drop w.shared.depthRequestQueue.length
  ({ w with shared }, out.map .marketData ++ asked.map (.emplaceBack none .depth))

/-- `MarketData2::subscribe`, the part that asks for klines. -/
def subscribe (symbols : List String) : Act Q :=
  if settings.download.timeSeriesLookback = 0 then skip
  else seqAll (symbols.map (emplaceBack none .timeSeries))

def step : Event → Act Q
  | .start => emit [.connectionStart]
  | .stop => emit [.connectionStop]
  | .timer refresh limit => guarded (fun w => refresh && isReady w) (checkRequestQueue api settings limit)
  | .connected env =>
    seq (emit [if env.downloading then .downloadBump else .downloadBegin]) (visit api settings env)
  | .disconnected env =>
    seq (setStatus .disconnected "") (emit (if env.downloading then [] else [.downloadReset]))
  | .latency sample => emit [.externalLatency sample]
  | .answer n call r env => answer sequencer api settings n call r env
  | .message streamId m => message sequencer settings streamId m
  | .subscribe symbols => subscribe settings symbols

/-- The process ends. -/
def kills : Output → Bool
  | .fatal | .marketData .fatal | .marketData .terminate => true
  | _ => false

/-! ### What a snapshot does to the instruments -/

theorem frame_emplaceBack (n : Option ℕ) (source : Source) (symbol : String) :
    Frame (fun w : World Q => w.shared.instruments) (emplaceBack n source symbol) := by
  intro w
  cases source <;> rfl

theorem frame_callback (n : ℕ) (symbol : String) (m : Json.DepthAck) (last : UInt64)
    (c : SnapshotCallback) :
    Frame (fun w : World Q => w.shared.instruments) (callback settings n symbol m last c) := by
  cases c with
  | publishSnapshot bids asks sequence => exact fun _ => rfl
  | requestSnapshot retries =>
    unfold callback
    dsimp only
    split
    · exact fun _ => rfl
    · exact frame_emplaceBack _ _ _

/-- To the market data streams, which share the instruments, an answer is one event. -/
theorem instruments_depthAck (n : ℕ) (symbol : String) (m : Json.DepthAck) (w : World Q) :
    ∃ f : Q → Q, (depthAck sequencer settings n symbol m w).1.shared.instruments
      = (Instruments.step sequencer.toSequencer settings (.depthAck symbol f) w.shared).1.instruments := by
  refine ⟨fun q =>
    let result := sequencer.snapshot q (m.bids.map Instruments.toMBPUpdate)
      (m.asks.map Instruments.toMBPUpdate) m.lastUpdateId
    if result.2.2 then sequencer.clear result.1 else result.1, ?_⟩
  unfold depthAck sequence
  generalize hresult : sequencer.snapshot
    (Instruments.getInstrument sequencer.toSequencer w.shared symbol).sequencer _ _ _ = result
  obtain ⟨q, callbacks, badState⟩ := result
  have hcallbacks : Frame (fun w : World Q => w.shared.instruments)
      (seqAll (callbacks.map (callback settings n symbol m (sequencer.lastSequence q)))) := by
    refine frame_map fun c _ => ?_
    exact frame_callback settings n symbol m _ c
  have hlast : Frame (fun w : World Q => w.shared.instruments)
      (if badState then emplaceBack (some n) .depth symbol else skip) := by
    split
    · exact frame_emplaceBack _ _ _
    · exact fun _ => rfl
  refine (frame_seq hcallbacks (frame_seq (g := skip) hlast fun _ => rfl) _).trans ?_
  simp only [Instruments.step, emit_apply, modify_apply, hresult]

end

/-- A sequencer that publishes every snapshot. -/
def publishing : SnapshotSequencer Unit where
  toSequencer := Instruments.direct
  snapshot _ bids asks sequence := ((), [.publishSnapshot bids asks sequence], false)

end Rest
end BinanceFutures
