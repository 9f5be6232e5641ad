import BinanceFutures.Gateway.MarketData
import BinanceFutures.Gateway.ReferenceData
import BinanceFutures.Schemes.Ledger
import BinanceFutures.Schemes.Row
import Mathlib.Logic.Function.Basic

/-! # The market side of the gateway

    The public REST stream downloads the symbols and the assets; the client may ask for more symbols.
    What is new among them goes to the controller, which creates a connection for every slice and has
    the connections subscribe.

        exchangeInfo ─▶ Rest ──┐ new, in lower case                 ┌─▶ MarketData  PRIMARY   0 1 …
                               ├── SymbolsUpdate ──▶ Controller ────┼─▶ MarketData  SECONDARY 0 1 …
        Subscribe ─────────────┘ new, as they are                   └─▶ MarketData2           0 1 …
        assetIndex ───▶ Rest ───── AssetsUpdate ───▶ Controller ──────▶ MarketData2           0

    A `MarketData2` also asks for a download of klines for each symbol that it subscribes to; `Rest`
    takes these from the queue when it is ready. -/

namespace BinanceFutures
open Machine

namespace Json

/-- An item of a `KlineAck`. -/
structure KlineAckDataItem where
  beginTime : Nanos
  openPrice : Double
  highPrice : Double
  lowPrice : Double
  closePrice : Double
  baseAssetVolume : Double
  quoteAssetVolume : Double
  numberOfTrades : UInt32

end Json

namespace Market

/-- A connection: the container it is in, and its position there. -/
@[ext] structure Key where
  kind : MarketData.Kind
  index : ℕ
  deriving DecidableEq

inductive Output where
  | stream (key : Key) (o : MarketData.Output)
  | referenceData (m : ReferenceData)
  | marketStatus (m : MarketStatus)
  /-- `Rest` asks for the klines of a symbol. -/
  | getKline (n : ℕ) (symbol : String)
  /-- `Rest` publishes what it has been answered. -/
  | timeSeriesUpdate (m : TimeSeriesUpdate)
  deriving DecidableEq

/-- The members of `Shared`, `Rest` and `Controller` that are used. -/
structure World where
  streamId : UInt16 := 0
  allSymbols : List String := []
  symbols : List String := []
  timeSeriesRequestQueue : List String := []
  restStatus : ConnectionStatus := .undefined
  assets : List String := []
  /-- The downloads that have not been answered. -/
  klines : Ledger String := .empty
  rows : MarketData.Kind → List MarketData := fun _ => []

inductive Event where
  | exchangeInfoAck (symbols : List Json.Symbol) (discard : String → Bool)
  | assetIndexAck (symbols : List String)
  /-- `Event<Subscribe>`, a request of the client -/
  | subscribe (symbols : List String)
  | restStatus (status : ConnectionStatus)
  /-- The timer of `Rest`, where the rate limiter lets `n` downloads through. -/
  | restTimer (n : ℕ)
  /-- A download is answered, by an error or by klines. -/
  | klineAnswer (n : ℕ) (answer : Option (List Json.KlineAckDataItem))
  | ready (key : Key)
  | disconnected (key : Key)
  | timer (key : Key) (n : ℕ)
  | kline (index : ℕ) (kline : Json.Kline)

abbrev Act := Action World Output

/-- The members of a set, those of a list among them, and which of the list are new. -/
def includeNew (known : List String) : List String → List String × List String
  | [] => (known, [])
  | s :: ss =>
    let (all, new) := includeNew (emplace known s) ss
    (all, if s ∈ known then new else s :: new)

/-- `stream_id_` of `Rest`, which is the first stream -/
def restStreamId : UInt16 := 1

section
variable (settings : Settings) (slices : Slices)

/-! ### `Controller` -/

/-- What the connections of a container do. -/
def onRow (kind : MarketData.Kind) (f : Action (List MarketData) (ℕ × MarketData.Output)) : Act :=
  fun w =>
    let (row, out) := f (w.rows kind)
    ({ w with
        rows := Function.update w.rows kind row
        timeSeriesRequestQueue := w.timeSeriesRequestQueue ++ out.filterMap fun o => o.2.request },
      out.map fun o => .stream ⟨kind, o.1⟩ o.2)

/-- A connection is created and started. -/
def createStream (kind : MarketData.Kind) : Act := fun w =>
  let streamId := w.streamId + 1
  let index := (w.rows kind).length
  seq (modify ({ · with streamId }))
    (onRow kind (Row.push (MarketData.create streamId index) [.start])) w

/-- `while (std::size(container) < size)` -/
def ensure (kind : MarketData.Kind) (size : ℕ) : Act := fun w =>
  seqAll (List.replicate (size - (w.rows kind).length) (createStream kind)) w

/-- `ensure_symbol_slices` -/
def ensureSymbolSlices (size : ℕ) : Act := seqAll [
  ensure .primary size,
  if settings.ws.enableSecondary then ensure .secondary size else skip,
  ensure .two size]

/-- `operator()(SymbolsUpdate)` -/
def symbolsUpdate (symbols : List String) : Act := fun w =>
  let startFrom := w.symbols.length
  let all := w.symbols ++ symbols
  let subscribe kind :=
    onRow kind (Row.every (MarketData.subscribeFrom settings slices kind all startFrom))
  seqAll [
    modify ({ · with symbols := all }),
    ensureSymbolSlices settings (slices.count all.length),
    subscribe .primary,
    subscribe .secondary,
    subscribe .two] w

/-- `operator()(AssetsUpdate)` -/
def assetsUpdate (assets : List String) : Act :=
  onRow .two (Row.member 0 (MarketData.announce assets))

/-- `operator()(Event<Subscribe>)` -/
def onSubscribe (symbols : List String) : Act := fun w =>
  let (allSymbols, new) := includeNew w.allSymbols symbols
  seq (modify ({ · with allSymbols })) (symbolsUpdate settings slices new) w

/-! ### `Rest` -/

/-- What is published of an item of an exchange info. -/
def publishItem (discard : String → Bool) (item : Json.Symbol) : List Output :=
  .referenceData (referenceData settings item (discard item.symbol)) ::
    if discard item.symbol then [] else [.marketStatus (marketStatus settings item)]

/-- The symbols of an exchange info that are subscribed. -/
def createSymbols (discard : String → Bool) (items : List Json.Symbol) : List String :=
  (items.filter fun item => !discard item.symbol).map fun item => toLower item.symbol

/-- `operator()(ExchangeInfoAck)` -/
def onExchangeInfoAck (items : List Json.Symbol) (discard : String → Bool) : Act := fun w =>
  let (allSymbols, new) := includeNew w.allSymbols (createSymbols discard items)
  seqAll [
    modify ({ · with allSymbols }),
    emit (items.flatMap (publishItem settings discard)),
    if new = [] then skip else symbolsUpdate settings slices new] w

/-- `operator()(AssetIndexAck)` -/
def onAssetIndexAck (symbols : List String) : Act := fun w =>
  let (assets, new) := includeNew w.assets symbols
  seq (modify ({ · with assets })) (if new = [] then skip else assetsUpdate new) w

/-- `get_kline` -/
def getKline (symbol : String) : Act := fun w =>
  ({ w with klines := w.klines.enter symbol }, [.getKline w.klines.next symbol])

/-- `check_request_queue`, the queue of the time series -/
def checkRequestQueue (n : ℕ) : Act := fun w =>
  let due := w.timeSeriesRequestQueue.take n
  seq (modify ({ · with timeSeriesRequestQueue := w.timeSeriesRequestQueue.drop n }))
    (seqAll (due.map getKline)) w

def toBar (item : Json.KlineAckDataItem) : Bar where
  beginTimeUtc := item.beginTime
  confirmed := true
  openPrice := item.openPrice
  highPrice := item.highPrice
  lowPrice := item.lowPrice
  closePrice := item.closePrice
  baseAmount := item.baseAssetVolume
  quoteAmount := item.quoteAssetVolume
  numberOfTrades := item.numberOfTrades

/-- `operator()(KlineAck)` -/
def klineAck (symbol : String) (items : List Json.KlineAckDataItem) : Act :=
  if items = [] then skip else emit [.timeSeriesUpdate {
    streamId := restStreamId, exchange := settings.exchange, symbol
    interval := settings.timeSeries.interval, origin := .exchange, bars := items.map toBar
    updateType := .snapshot, exchangeTimeUtc := 0 }]

/-- `get_kline_ack` -/
def getKlineAck (n : ℕ) (answer : Option (List Json.KlineAckDataItem)) : Act := fun w =>
  match w.klines.find n with
  | none => (w, [])
  | some symbol => seq (modify ({ · with klines := w.klines.settle n }))
      (match answer with
        | none => skip
        | some items => klineAck settings symbol items) w

def step : Event → Act
  | .exchangeInfoAck items discard => onExchangeInfoAck settings slices items discard
  | .assetIndexAck symbols => onAssetIndexAck symbols
  | .subscribe symbols => onSubscribe settings slices symbols
  | .restStatus status => modify ({ · with restStatus := status })
  | .restTimer n => guarded (·.restStatus = .ready) (checkRequestQueue n)
  | .klineAnswer n answer => getKlineAck settings n answer
  | .ready key => fun w =>
    onRow key.kind (Row.member key.index
      (MarketData.onReady settings slices key.kind w.symbols)) w
  | .disconnected key => onRow key.kind (Row.member key.index MarketData.onDisconnected)
  | .timer key n => onRow key.kind (Row.member key.index (MarketData.onTimer n))
  | .kline index kline => onRow .two (Row.member index (MarketData.onKline settings kline))

end

/-! ### What is new -/

theorem emplace_of_mem {known : List String} {s : String} (h : s ∈ known) :
    emplace known s = known := if_pos h

theorem emplace_of_notMem {known : List String} {s : String} (h : s ∉ known) :
    emplace known s = known ++ [s] := if_neg h

theorem includeNew_fst : ∀ (known ss : List String),
    (includeNew known ss).1 = known ++ (includeNew known ss).2
  | known, [] => (List.append_nil known).symm
  | known, s :: ss => by
      rw [includeNew]
      by_cases h : s ∈ known
      · simp only [if_pos h, emplace_of_mem h, includeNew_fst known ss]
      · simp only [if_neg h, emplace_of_notMem h, includeNew_fst (known ++ [s]) ss]
        rw [List.append_assoc, List.singleton_append]

theorem mem_includeNew {x : String} : ∀ {known ss : List String},
    x ∈ (includeNew known ss).2 ↔ x ∈ ss ∧ x ∉ known
  | known, [] => by simp [includeNew]
  | known, s :: ss => by
      rw [includeNew]
      by_cases h : s ∈ known
      · simp only [if_pos h, emplace_of_mem h, mem_includeNew, List.mem_cons]
        constructor
        · rintro ⟨hx, hknown⟩
          exact ⟨Or.inr hx, hknown⟩
        · rintro ⟨rfl | hx, hknown⟩
          · exact absurd h hknown
          · exact ⟨hx, hknown⟩
      · simp only [if_neg h, emplace_of_notMem h, mem_includeNew, List.mem_cons, List.mem_append,
          List.not_mem_nil, or_false, not_or]
        constructor
        · rintro (rfl | ⟨hx, hknown, -⟩)
          · exact ⟨Or.inl rfl, h⟩
          · exact ⟨Or.inr hx, hknown⟩
        · rintro ⟨rfl | hx, hknown⟩
          · exact Or.inl rfl
          · by_cases heq : x = s
            · exact Or.inl heq
            · exact Or.inr ⟨hx, hknown, heq⟩

theorem nodup_includeNew : ∀ {known ss : List String}, (includeNew known ss).2.Nodup
  | _, [] => List.nodup_nil
  | known, s :: ss => by
      rw [includeNew]
      by_cases h : s ∈ known
      · simp only [if_pos h, emplace_of_mem h]
        exact nodup_includeNew
      · simp only [if_neg h, emplace_of_notMem h]
        refine List.nodup_cons.mpr ⟨fun hmem => ?_, nodup_includeNew⟩
        exact (mem_includeNew.mp hmem).2 (by simp)

/-- The symbols that an event asks to subscribe. -/
def Event.asked : Event → List String
  | .exchangeInfoAck items discard => createSymbols discard items
  | .subscribe symbols => symbols
  | _ => []

/-- Those of them that are new. -/
def fresh (w : World) (e : Event) : List String := (includeNew w.allSymbols e.asked).2

section
variable (settings : Settings) (slices : Slices)

/-! ### What the connections leave alone -/

/-- All but the connections and the queue that they fill. -/
structure Known where
  allSymbols : List String
  symbols : List String
  restStatus : ConnectionStatus
  assets : List String
  klines : Ledger String

def World.known (w : World) : Known := ⟨w.allSymbols, w.symbols, w.restStatus, w.assets, w.klines⟩

theorem known_onRow (kind : MarketData.Kind) (f : Action (List MarketData) (ℕ × MarketData.Output)) :
    Frame World.known (onRow kind f) := fun _ => rfl

theorem known_ensure (kind : MarketData.Kind) (size : ℕ) : Frame World.known (ensure kind size) := by
  intro w
  refine frame_seqAll (fun f hf => ?_) w
  rw [List.eq_of_mem_replicate hf]
  exact fun _ => rfl

theorem known_ensureSymbolSlices (size : ℕ) :
    Frame World.known (ensureSymbolSlices settings size) := by
  refine frame_seqAll fun f hf => ?_
  simp only [List.mem_cons, List.not_mem_nil, or_false] at hf
  rcases hf with rfl | rfl | rfl
  · exact known_ensure _ _
  · split
    · exact known_ensure _ _
    · exact fun _ => rfl
  · exact known_ensure _ _

theorem known_symbolsUpdate (symbols : List String) (w : World) :
    (symbolsUpdate settings slices symbols w).1.known
      = { w with symbols := w.symbols ++ symbols : World }.known := by
  unfold symbolsUpdate
  dsimp only
  rw [seqAll, seq_fst]
  refine frame_seqAll (fun f hf => ?_) _
  simp only [List.mem_cons, List.not_mem_nil, or_false] at hf
  rcases hf with rfl | rfl | rfl | rfl
  · exact known_ensureSymbolSlices settings _
  all_goals exact known_onRow _ _

/-- The assets that an event names. -/
def Event.assets : Event → List String
  | .assetIndexAck symbols => symbols
  | _ => []

/-- Those of them that are new. -/
def announced (w : World) (e : Event) : List String := (includeNew w.assets e.assets).2

theorem fresh_none {w : World} {e : Event} (h : e.asked = []) : fresh w e = [] := by
  rw [fresh, h]
  rfl

theorem announced_none {w : World} {e : Event} (h : e.assets = []) : announced w e = [] := by
  rw [announced, h]
  rfl

theorem known_checkRequestQueue (n : ℕ) :
    Frame (fun w : World => (w.allSymbols, w.symbols, w.assets)) (checkRequestQueue n) := by
  intro w
  have hdue : Frame (fun w : World => (w.allSymbols, w.symbols, w.assets))
      (seqAll ((w.timeSeriesRequestQueue.take n).map getKline)) := by
    refine frame_map fun symbol _ => ?_
    exact fun _ => rfl
  exact hdue _

theorem known_klineAck (symbol : String) (items : List Json.KlineAckDataItem) :
    Frame World.known (klineAck settings symbol items) := by
  unfold klineAck
  split <;> exact fun _ => rfl

theorem known_getKlineAck (n : ℕ) (answer : Option (List Json.KlineAckDataItem)) :
    Frame (fun w : World => (w.allSymbols, w.symbols, w.assets)) (getKlineAck settings n answer) := by
  intro w
  unfold getKlineAck
  split
  · rfl
  · cases answer with
    | none => rfl
    | some items =>
      have hack := fun symbol => known_klineAck settings symbol items
      exact congrArg (fun k : Known => (k.allSymbols, k.symbols, k.assets)) (hack _ _)

/-- A step gives out what is new, and nothing else. -/
theorem known_step (e : Event) (w : World) :
    (step settings slices e w).1.allSymbols = w.allSymbols ++ fresh w e ∧
    (step settings slices e w).1.symbols = w.symbols ++ fresh w e ∧
    (step settings slices e w).1.assets = w.assets ++ announced w e := by
  cases e with
  | exchangeInfoAck items discard =>
    have hall := includeNew_fst w.allSymbols (createSymbols discard items)
    rw [announced_none rfl, List.append_nil]
    simp only [step, onExchangeInfoAck, fresh, Event.asked]
    by_cases hnew : (includeNew w.allSymbols (createSymbols discard items)).2 = []
    · simp [seqAll, hnew, hall]
    · have hknown := known_symbolsUpdate settings slices
        (includeNew w.allSymbols (createSymbols discard items)).2
        { w with allSymbols := (includeNew w.allSymbols (createSymbols discard items)).1 }
      rw [if_neg hnew]
      refine ⟨?_, congrArg Known.symbols hknown, congrArg Known.assets hknown⟩
      exact (congrArg Known.allSymbols hknown).trans hall
  | assetIndexAck symbols =>
    have hall := includeNew_fst w.assets symbols
    rw [fresh_none rfl, List.append_nil, List.append_nil]
    simp only [step, onAssetIndexAck, announced, Event.assets]
    split
    · exact ⟨rfl, rfl, hall⟩
    · exact ⟨rfl, rfl, hall⟩
  | subscribe symbols =>
    have hall := includeNew_fst w.allSymbols symbols
    have hknown := known_symbolsUpdate settings slices (includeNew w.allSymbols symbols).2
      { w with allSymbols := (includeNew w.allSymbols symbols).1 }
    rw [announced_none rfl, List.append_nil]
    simp only [step, onSubscribe, fresh, Event.asked]
    refine ⟨?_, congrArg Known.symbols hknown, congrArg Known.assets hknown⟩
    exact (congrArg Known.allSymbols hknown).trans hall
  | restTimer n =>
    have hframe := frame_guarded (fun w => decide (w.restStatus = .ready)) (known_checkRequestQueue n) w
    simp only [Prod.mk.injEq] at hframe
    rw [fresh_none rfl, announced_none rfl]
    simpa [step] using hframe
  | klineAnswer n answer =>
    have hframe := known_getKlineAck settings n answer w
    simp only [Prod.mk.injEq] at hframe
    rw [fresh_none rfl, announced_none rfl]
    simpa [step] using hframe
  | _ =>
    rw [fresh_none rfl, announced_none rfl]
    simp [step, onRow]

/-! ### What a connection sees -/

/-- The connection, if it is there. -/
def view (key : Key) (w : World) : Option MarketData := (w.rows key.kind)[key.index]?

/-- What the connection puts out. -/
def ofKey (key : Key) : Output → Option MarketData.Output
  | .stream key' o => if key' = key then some o else none
  | _ => none

variable {key : Key} {w : World}

theorem shows_onRow {f : Action (List MarketData) (ℕ × MarketData.Output)}
    {g : Action (Option MarketData) MarketData.Output}
    (h : Shows (·[key.index]?) (Row.own key.index) (w.rows key.kind) f g) :
    Shows (view key) (ofKey key) w (onRow key.kind f) g := by
  refine ⟨?_, ?_⟩
  · simpa [view, onRow] using h.1
  · have hpick : (ofKey key) ∘ (fun o : ℕ × MarketData.Output => .stream ⟨key.kind, o.1⟩ o.2)
        = Row.own key.index := by
      funext o
      cases key
      simp [ofKey, Row.own]
    rw [onRow, List.filterMap_map, hpick]
    exact h.2

theorem shows_onRow_other {kind : MarketData.Kind} (h : kind ≠ key.kind)
    (f : Action (List MarketData) (ℕ × MarketData.Output)) :
    Shows (view key) (ofKey key) w (onRow kind f) skip := by
  refine shows_skip ?_ fun o ho => ?_
  · simp [view, onRow, Ne.symm h]
  · obtain ⟨o', -, rfl⟩ := List.mem_map.mp ho
    cases key
    simp_all [ofKey]

/-- One member of a container takes its turn. -/
theorem shows_turn (key : Key) (key' : Key) (f : MarketData.Act) :
    Shows (view key) (ofKey key) w (onRow key'.kind (Row.member key'.index f))
      (if key' = key then lift f else skip) := by
  split
  next heq =>
    subst heq
    exact shows_onRow (Row.shows_member _ f _)
  next hne =>
    by_cases hkind : key'.kind = key.kind
    · have hindex : key'.index ≠ key.index := by
        intro hindex
        cases key
        cases key'
        simp_all
      rw [hkind]
      exact shows_onRow (Row.shows_member_other hindex f _)
    · exact shows_onRow_other hkind _

/-- The members of a container take their turns. -/
theorem shows_every (key : Key) (kind : MarketData.Kind) (f : MarketData.Act) :
    Shows (view key) (ofKey key) w (onRow kind (Row.every f))
      (if kind = key.kind then lift f else skip) := by
  split
  next heq =>
    subst heq
    exact shows_onRow (Row.shows_every _ f _)
  next hne => exact shows_onRow_other hne _

/-- An action that leaves the connections alone. -/
theorem shows_hidden {f : Act} (hrows : (f w).1.rows = w.rows)
    (hout : ∀ o ∈ (f w).2, ofKey key o = none) : Shows (view key) (ofKey key) w f skip :=
  shows_skip (by rw [view, hrows]; rfl) hout

theorem shows_after {f f' : Act} {g : Action (Option MarketData) MarketData.Output}
    (hrows : (f w).1.rows = w.rows) (hout : ∀ o ∈ (f w).2, ofKey key o = none)
    (h : Shows (view key) (ofKey key) (f w).1 f' g) : Shows (view key) (ofKey key) w (seq f f') g := by
  have hseq := shows_seq (shows_hidden hrows hout) h
  rwa [skip_seq] at hseq

theorem shows_createStream (key : Key) (kind : MarketData.Kind) (w : World) :
    Shows (view key) (ofKey key) w (createStream kind)
      (appear (kind = key.kind ∧ key.index = (w.rows kind).length)
        (MarketData.create (w.streamId + 1) key.index) [.start]) := by
  refine shows_after rfl (by simp) ?_
  by_cases hkind : kind = key.kind
  · subst hkind
    refine shows_congr (shows_onRow (Row.shows_push _ _ _ _)) ?_
    by_cases hindex : key.index = (w.rows key.kind).length <;> simp [hindex, appear_false]
  · rw [decide_eq_false (by simp [hkind]), appear_false]
    exact shows_onRow_other hkind _

/-- A connection may be among those that are created. -/
theorem shows_creates (key : Key) (kind : MarketData.Kind) : ∀ (k : ℕ) (w : World), ∃ streamId,
    Shows (view key) (ofKey key) w (seqAll (List.replicate k (createStream kind)))
      (appear (kind = key.kind ∧ key.index < (w.rows kind).length + k)
        (MarketData.create streamId key.index) [.start])
  | 0, w => by
      refine ⟨0, shows_congr (shows_skip rfl (by simp [seqAll])) ?_⟩
      cases hview : view key w with
      | some s => rfl
      | none =>
        have hindex : ¬ (kind = key.kind ∧ key.index < (w.rows kind).length + 0) := by
          rintro ⟨rfl, hlt⟩
          have hle := List.getElem?_eq_none_iff.mp hview
          omega
        rw [decide_eq_false hindex, appear_false]
  | k + 1, w => by
      obtain ⟨streamId, hrest⟩ := shows_creates key kind k (createStream kind w).1
      have hseq := shows_seq (shows_createStream key kind w) hrest
      have hlength : ((createStream kind w).1.rows kind).length = (w.rows kind).length + 1 := by
        simp [createStream, onRow, Row.push]
      rw [appear_seq, ← Bool.decide_or, hlength] at hseq
      -- the first that is created, or one of the others
      have hsplit : (kind = key.kind ∧ key.index = (w.rows kind).length
          ∨ kind = key.kind ∧ key.index < (w.rows kind).length + 1 + k)
          ↔ kind = key.kind ∧ key.index < (w.rows kind).length + (k + 1) := by
        rw [← and_or_left]
        exact and_congr_right fun _ => by omega
      refine ⟨if kind = key.kind ∧ key.index = (w.rows kind).length then w.streamId + 1 else streamId,
        shows_congr hseq ?_⟩
      rw [decide_eq_decide.mpr hsplit]
      simp only [decide_eq_true_eq]
      split <;> rfl

theorem shows_ensure (key : Key) (kind : MarketData.Kind) (size : ℕ) (w : World) : ∃ streamId,
    Shows (view key) (ofKey key) w (ensure kind size)
      (appear (kind = key.kind ∧ key.index < size) (MarketData.create streamId key.index)
        [.start]) := by
  obtain ⟨streamId, h⟩ := shows_creates key kind (size - (w.rows kind).length) w
  refine ⟨streamId, shows_congr h ?_⟩
  cases hview : view key w with
  | some s => rfl
  | none =>
    have hsize : (kind = key.kind ∧ key.index < (w.rows kind).length + (size - (w.rows kind).length))
        ↔ kind = key.kind ∧ key.index < size := by
      refine and_congr_right ?_
      rintro rfl
      have hle := List.getElem?_eq_none_iff.mp hview
      omega
    rw [decide_eq_decide.mpr hsize]

/-- The connections that there are for so many slices. -/
def Reaches (settings : Settings) (size : ℕ) (key : Key) : Prop :=
  key.index < size ∧ (key.kind = .secondary → settings.ws.enableSecondary)

instance (settings : Settings) (size : ℕ) (key : Key) : Decidable (Reaches settings size key) :=
  inferInstanceAs (Decidable (_ ∧ _))

theorem shows_ensureSymbolSlices (key : Key) (size : ℕ) (w : World) : ∃ streamId,
    Shows (view key) (ofKey key) w (ensureSymbolSlices settings size)
      (appear (Reaches settings size key) (MarketData.create streamId key.index) [.start]) := by
  have hsecondary : ∀ w, ∃ streamId, Shows (view key) (ofKey key) w
      (if settings.ws.enableSecondary then ensure .secondary size else skip)
      (appear (settings.ws.enableSecondary ∧ .secondary = key.kind ∧ key.index < size)
        (MarketData.create streamId key.index) [.start]) := by
    intro w
    split
    next hon => simpa [hon] using shows_ensure key .secondary size w
    next hoff =>
      refine ⟨0, ?_⟩
      rw [decide_eq_false (by simp [hoff]), appear_false]
      exact shows_hidden rfl (by simp)
  obtain ⟨id, hprimary⟩ := shows_ensure key .primary size w
  obtain ⟨id', hsecondary⟩ := hsecondary (ensure .primary size w).1
  obtain ⟨id'', htwo⟩ := shows_ensure key .two size _
  have hseq := shows_seq hprimary (shows_seq hsecondary htwo)
  rw [ensureSymbolSlices, seqAll, seqAll, seqAll, seqAll, seq_skip]
  rw [appear_seq, appear_seq] at hseq
  obtain ⟨kind, index⟩ := key
  cases kind with
  | primary =>
    refine ⟨id, shows_congr hseq ?_⟩
    by_cases hsize : index < size <;> simp [Reaches, hsize, appear_false]
  | secondary =>
    refine ⟨id', shows_congr hseq ?_⟩
    by_cases hsize : index < size <;> by_cases hon : settings.ws.enableSecondary <;>
      simp [Reaches, hsize, hon, appear_false]
  | two =>
    refine ⟨id'', shows_congr hseq ?_⟩
    by_cases hsize : index < size <;> simp [Reaches, hsize, appear_false]

/-- All connections take their turns, container by container. -/
theorem shows_all (key : Key) (f : MarketData.Kind → MarketData.Act) (w : World) :
    Shows (view key) (ofKey key) w
      (seqAll [onRow .primary (Row.every (f .primary)), onRow .secondary (Row.every (f .secondary)),
        onRow .two (Row.every (f .two))])
      (lift (f key.kind)) := by
  have hseq := shows_seq (shows_every key (w := w) .primary (f .primary))
    (shows_seq (shows_every key .secondary (f .secondary)) (shows_every key .two (f .two)))
  rw [seqAll, seqAll, seqAll, seqAll, seq_skip]
  obtain ⟨kind, index⟩ := key
  cases kind <;> simpa [skip_seq, seq_skip] using hseq

/-- What symbols that are new bring about at a connection. -/
def grow (settings : Settings) (slices : Slices) (key : Key) (streamId : UInt16)
    (symbols new : List String) : Action (Option MarketData) MarketData.Output := seq
  (appear (Reaches settings (slices.count (symbols ++ new).length) key)
    (MarketData.create streamId key.index) [.start])
  (lift (MarketData.subscribeFrom settings slices key.kind (symbols ++ new) symbols.length))

theorem shows_symbolsUpdate (key : Key) (new : List String) (w : World) : ∃ streamId,
    Shows (view key) (ofKey key) w (symbolsUpdate settings slices new)
      (grow settings slices key streamId w.symbols new) := by
  obtain ⟨streamId, hensure⟩ := shows_ensureSymbolSlices settings key
    (slices.count (w.symbols ++ new).length) { w with symbols := w.symbols ++ new }
  have hall := fun w' => shows_all key (fun kind =>
    MarketData.subscribeFrom settings slices kind (w.symbols ++ new) w.symbols.length) w'
  have hafter := shows_after (f := modify ({ · with symbols := w.symbols ++ new })) rfl (by simp)
    (shows_seq hensure (hall _))
  exact ⟨streamId, shows_eval hafter rfl⟩

/-- What the event brings about at the connection; `streamId` is its id if it is created. -/
def turn (settings : Settings) (slices : Slices) (key : Key) (streamId : UInt16) (w : World)
    (e : Event) : Action (Option MarketData) MarketData.Output :=
  match e with
  | .exchangeInfoAck _ _ =>
    if fresh w e = [] then skip else grow settings slices key streamId w.symbols (fresh w e)
  | .subscribe _ => grow settings slices key streamId w.symbols (fresh w e)
  | .assetIndexAck _ =>
    if key = ⟨.two, 0⟩ ∧ announced w e ≠ [] then lift (MarketData.announce (announced w e)) else skip
  | .ready key' =>
    if key' = key then lift (MarketData.onReady settings slices key.kind w.symbols) else skip
  | .disconnected key' => if key' = key then lift MarketData.onDisconnected else skip
  | .timer key' n => if key' = key then lift (MarketData.onTimer n) else skip
  | .kline index kline =>
    if ⟨.two, index⟩ = key then lift (MarketData.onKline settings kline) else skip
  | .restStatus _ | .restTimer _ | .klineAnswer _ _ => skip

theorem ofKey_publishItem {discard : String → Bool} {items : List Json.Symbol} :
    ∀ o ∈ items.flatMap (publishItem settings discard), ofKey key o = none := by
  intro o ho
  obtain ⟨item, -, hmem⟩ := List.mem_flatMap.mp ho
  rcases List.mem_cons.mp hmem with rfl | hstatus
  · rfl
  · split at hstatus
    · cases hstatus
    · rw [List.mem_singleton.mp hstatus]
      rfl

theorem shows_checkRequestQueue (key : Key) (n : ℕ) (w : World) :
    Shows (view key) (ofKey key) w (checkRequestQueue n) skip := by
  refine shows_after rfl (by simp) (shows_hidden ?_ ?_)
  · have hrows : Frame World.rows (seqAll ((w.timeSeriesRequestQueue.take n).map getKline)) := by
      refine frame_map fun symbol _ => ?_
      exact fun _ => rfl
    exact hrows _
  · have hsilent : Silent (fun o => ofKey key o ≠ none)
        (seqAll ((w.timeSeriesRequestQueue.take n).map getKline)) := by
      refine silent_map fun symbol _ => ?_
      intro w o ho
      rw [List.mem_singleton.mp ho]
      simp [ofKey]
    exact fun o ho => not_not.mp (hsilent _ o ho)

theorem shows_klineAck (key : Key) (symbol : String) (items : List Json.KlineAckDataItem) (w : World) :
    Shows (view key) (ofKey key) w (klineAck settings symbol items) skip := by
  unfold klineAck
  split
  · exact shows_hidden rfl (by simp)
  · exact shows_hidden rfl (by simp [ofKey])

/-- Seen from a connection, a step is what the event brings about there. -/
theorem shows_step (key : Key) (e : Event) (w : World) : ∃ streamId,
    Shows (view key) (ofKey key) w (step settings slices e) (turn settings slices key streamId w e) := by
  cases e with
  | exchangeInfoAck items discard =>
    obtain ⟨streamId, h⟩ := shows_symbolsUpdate settings slices key
      (includeNew w.allSymbols (createSymbols discard items)).2
      { w with allSymbols := (includeNew w.allSymbols (createSymbols discard items)).1 }
    refine ⟨streamId, shows_after rfl (by simp) (shows_after rfl (ofKey_publishItem settings) ?_)⟩
    rw [seqAll, seqAll, seq_skip]
    by_cases hnew : (includeNew w.allSymbols (createSymbols discard items)).2 = []
    · have hfresh : fresh w (.exchangeInfoAck items discard) = [] := hnew
      rw [if_pos hnew, turn, if_pos hfresh]
      exact shows_hidden (f := skip) rfl (by simp)
    · have hfresh : fresh w (.exchangeInfoAck items discard) ≠ [] := hnew
      rw [if_neg hnew, turn, if_neg hfresh]
      exact h
  | assetIndexAck symbols =>
    refine ⟨0, shows_after rfl (by simp) ?_⟩
    simp only [turn, announced, Event.assets]
    by_cases hnew : (includeNew w.assets symbols).2 = []
    · simpa [hnew] using shows_hidden (f := skip) rfl (by simp)
    · rw [if_neg hnew]
      simpa [assetsUpdate, hnew, eq_comm] using shows_turn key ⟨.two, 0⟩
        (MarketData.announce (includeNew w.assets symbols).2)
  | subscribe symbols =>
    obtain ⟨streamId, h⟩ := shows_symbolsUpdate settings slices key
      (includeNew w.allSymbols symbols).2
      { w with allSymbols := (includeNew w.allSymbols symbols).1 }
    have hafter := shows_after
      (f := modify ({ · with allSymbols := (includeNew w.allSymbols symbols).1 })) rfl (by simp) h
    exact ⟨streamId, shows_eval hafter rfl⟩
  | restTimer n =>
    refine ⟨0, ?_⟩
    by_cases hready : w.restStatus = .ready
    · exact shows_eval (shows_checkRequestQueue key n w) (by simp [step, guarded, hready])
    · exact shows_eval (shows_hidden (f := skip) rfl (by simp)) (by simp [step, guarded, hready])
  | klineAnswer n answer =>
    refine ⟨0, ?_⟩
    cases hfind : w.klines.find n with
    | none =>
      exact shows_eval (shows_hidden (f := skip) rfl (by simp)) (by simp [step, getKlineAck, hfind])
    | some symbol =>
      have hanswer : Shows (view key) (ofKey key) { w with klines := w.klines.settle n }
          (match answer with
            | none => skip
            | some items => klineAck settings symbol items) skip := by
        cases answer with
        | none => exact shows_hidden rfl (by simp)
        | some items => exact shows_klineAck settings key symbol items _
      exact shows_eval (shows_after (f := modify ({ · with klines := w.klines.settle n })) rfl (by simp)
        hanswer) (by simp only [step, getKlineAck, hfind])
  | restStatus status => exact ⟨0, shows_hidden rfl (by simp [step])⟩
  | ready key' =>
    have h := shows_turn key (w := w) key'
      (MarketData.onReady settings slices key'.kind w.symbols)
    refine ⟨0, shows_congr h ?_⟩
    by_cases heq : key' = key
    · subst heq
      rfl
    · simp [turn, heq]
  | disconnected key' => exact ⟨0, shows_turn key key' _⟩
  | timer key' n => exact ⟨0, shows_turn key key' _⟩
  | kline index kline => exact ⟨0, shows_turn key ⟨.two, index⟩ _⟩

end

end Market
end BinanceFutures
