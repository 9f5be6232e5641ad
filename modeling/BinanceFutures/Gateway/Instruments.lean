import BinanceFutures.Gateway.Settings
import BinanceFutures.Schemes.Machine
import BinanceFutures.Schemes.Watermark
import Mathlib.Algebra.Order.Ring.Int
import Mathlib.Logic.Function.Basic

/-! # Instruments

    The market data connections share one `Instrument` for each symbol. It holds the ids of the book
    ticker and of the depth update that were let through last, and turns down what is older.

        primary   ─ bookTicker 7 ─▶┐                ┌─▶ TopOfBook 7
        secondary ─ bookTicker 7 ─▶┘ tob_update ────┤
                                                    └─▶ turned down

    The sequencer, which puts the depth updates in order, belongs to the server library; it is a
    parameter. The process ends with the event in which a handler throws or logs a fatal error. -/

namespace BinanceFutures
open Machine

structure BookTicker where
  symbol : String
  orderBookUpdateId : UInt64
  bestBidPrice : Double
  bestBidQty : Double
  bestAskPrice : Double
  bestAskQty : Double
  eventTime : Nanos
  transactionTime : Nanos
  deriving DecidableEq

structure DepthUpdateBidsAsksItem where
  price : Double
  qty : Double
  deriving DecidableEq

structure DepthUpdate where
  symbol : String
  firstUpdateId : UInt64
  finalUpdateId : UInt64
  finalUpdateIdInLastStream : UInt64
  bids : List DepthUpdateBidsAsksItem
  asks : List DepthUpdateBidsAsksItem
  eventTime : Nanos
  transactionTime : Nanos
  deriving DecidableEq

structure TopOfBook where
  streamId : UInt16
  exchange : String
  symbol : String
  bidPrice : Double
  bidQuantity : Double
  askPrice : Double
  askQuantity : Double
  updateType : UpdateType
  exchangeTimeUtc : Nanos
  exchangeSequence : UInt64
  sendingTimeUtc : Nanos
  deriving DecidableEq

structure MBPUpdate where
  price : Double
  quantity : Double
  impliedQuantity : Double := nan
  deriving DecidableEq

structure MarketByPriceUpdate where
  streamId : UInt16
  exchange : String
  symbol : String
  bids : List MBPUpdate
  asks : List MBPUpdate
  updateType : UpdateType
  exchangeTimeUtc : Nanos
  exchangeSequence : UInt64
  sendingTimeUtc : Nanos
  deriving DecidableEq

/-- What a sequencer calls back for. -/
inductive Callback where
  | publishUpdate (bids asks : List MBPUpdate)
  | publishSnapshot (bids asks : List MBPUpdate) (sequence : UInt64)
  | requestSnapshot (retries : ℕ)

/-- `market::mbp::Sequencer`. Handing it an update makes it call back, and may end in `BadState`. -/
structure Sequencer (Q : Type) where
  create : Q
  update : Q → List MBPUpdate → List MBPUpdate → (first last previous : UInt64) →
    Q × List Callback × Bool
  clear : Q → Q
  lastSequence : Q → UInt64

structure Instrument (Q : Type) where
  tobLastUpdateId : ℤ := 0
  mbpLastUpdateId : ℤ := 0
  sequencer : Q

namespace Instrument

variable {Q : Type}

/-- `tob_update` -/
def tobUpdate (instrument : Instrument Q) (updateId : ℤ) : Instrument Q × Bool :=
  if updateId < instrument.tobLastUpdateId then (instrument, false)
  else ({ instrument with tobLastUpdateId := updateId }, true)

/-- `mbp_update` -/
def mbpUpdate (instrument : Instrument Q) (updateId : ℤ) : Instrument Q × Bool :=
  if updateId < instrument.mbpLastUpdateId then (instrument, false)
  else ({ instrument with mbpLastUpdateId := updateId }, true)

end Instrument

namespace Instruments

/-- `utils::safe_cast` of a `uint64_t` to an `int64_t`, which throws if the value does not fit. -/
def safeCast (x : UInt64) : Option ℤ := if x.toNat < 2 ^ 63 then some x.toNat else none

/-- The members of `Shared` that the handlers use. -/
structure Shared (Q : Type) where
  instruments : String → Option (Instrument Q) := fun _ => none
  depthRequestQueue : List String := []

/-- A message of a market data stream. -/
inductive Message where
  | bookTicker (m : BookTicker)
  | depthUpdate (m : DepthUpdate)
  deriving DecidableEq

inductive Output where
  /-- A connection is touched by the message that it has received. -/
  | touch (streamId : UInt16) (m : Message)
  | topOfBook (m : TopOfBook)
  /-- A depth update is handed to the sequencer. -/
  | sequence (m : DepthUpdate)
  | marketByPriceUpdate (m : MarketByPriceUpdate)
  | fatal
  | terminate
  deriving DecidableEq

inductive Event (Q : Type) where
  | message (streamId : UInt16) (m : Message)
  /-- `Rest::operator()(DepthAck)`, with what it makes of the sequencer. -/
  | depthAck (symbol : String) (f : Q → Q)

section
variable {Q : Type} (sequencer : Sequencer Q) (settings : Settings)

abbrev Act (Q : Type) := Action (Shared Q) Output

/-- `get_instrument` -/
def getInstrument (shared : Shared Q) (symbol : String) : Instrument Q :=
  (shared.instruments symbol).getD { sequencer := sequencer.create }

def setInstrument (shared : Shared Q) (symbol : String) (instrument : Instrument Q) : Shared Q :=
  { shared with instruments := Function.update shared.instruments symbol (some instrument) }

/-- `operator()(BookTicker)` -/
def bookTicker (streamId : UInt16) (m : BookTicker) : Act Q := fun shared =>
  match safeCast m.orderBookUpdateId with
  | none => (shared, [.touch streamId (.bookTicker m), .terminate])
  | some updateId =>
    let (instrument, accepted) := (getInstrument sequencer shared m.symbol).tobUpdate updateId
    (setInstrument shared m.symbol instrument, .touch streamId (.bookTicker m) ::
      if accepted then
        [.topOfBook {
          streamId, exchange := settings.exchange, symbol := m.symbol
          bidPrice := m.bestBidPrice, bidQuantity := m.bestBidQty
          askPrice := m.bestAskPrice, askQuantity := m.bestAskQty
          updateType := .snapshot, exchangeTimeUtc := m.transactionTime
          exchangeSequence := m.orderBookUpdateId, sendingTimeUtc := m.eventTime }]
      else [])

def toMBPUpdate (item : DepthUpdateBidsAsksItem) : MBPUpdate where
  price := item.price
  quantity := item.qty

/-- `create_update` -/
def createUpdate (streamId : UInt16) (m : DepthUpdate) (bids asks : List MBPUpdate)
    (updateType : UpdateType) (exchangeSequence : UInt64) : MarketByPriceUpdate where
  streamId := streamId
  exchange := settings.exchange
  symbol := m.symbol
  bids := bids
  asks := asks
  updateType := updateType
  exchangeTimeUtc := m.transactionTime
  exchangeSequence := exchangeSequence
  sendingTimeUtc := m.eventTime

/-- A callback of the sequencer, which is at `last` then. -/
def callback (streamId : UInt16) (m : DepthUpdate) (last : UInt64) : Callback → Act Q
  | .publishUpdate bids asks => emit [.marketByPriceUpdate
      (createUpdate settings streamId m bids asks .incremental m.finalUpdateId)]
  | .publishSnapshot bids asks _ => emit [.marketByPriceUpdate
      (createUpdate settings streamId m bids asks .snapshot last)]
  | .requestSnapshot retries => fun shared =>
    if settings.ws.mbpRequestMaxRetries ≠ 0 ∧ settings.ws.mbpRequestMaxRetries < retries then
      (shared, [.fatal])
    else ({ shared with depthRequestQueue := shared.depthRequestQueue ++ [m.symbol] }, [])

/-- The sequencer is handed the update. -/
def sequence (streamId : UInt16) (m : DepthUpdate) (instrument : Instrument Q) : Act Q :=
  let (q, callbacks, badState) := sequencer.update instrument.sequencer (m.bids.map toMBPUpdate)
    (m.asks.map toMBPUpdate) m.firstUpdateId m.finalUpdateId m.finalUpdateIdInLastStream
  seqAll [
    emit [.sequence m],
    modify fun shared => setInstrument shared m.symbol
      { instrument with sequencer := if badState then sequencer.clear q else q },
    seqAll (callbacks.map (callback settings streamId m (sequencer.lastSequence q))),
    modify fun shared =>
      if badState then { shared with depthRequestQueue := shared.depthRequestQueue ++ [m.symbol] }
      else shared]

/-- `operator()(DepthUpdate)` -/
def depthUpdate (streamId : UInt16) (m : DepthUpdate) : Act Q := fun shared =>
  match safeCast m.finalUpdateId with
  | none => (shared, [.touch streamId (.depthUpdate m), .terminate])
  | some updateId =>
    let (instrument, accepted) := (getInstrument sequencer shared m.symbol).mbpUpdate updateId
    seqAll [
      emit [.touch streamId (.depthUpdate m)],
      modify fun shared => setInstrument shared m.symbol instrument,
      if accepted then sequence sequencer settings streamId m instrument else skip] shared

def step : Event Q → Act Q
  | .message streamId (.bookTicker m) => bookTicker sequencer settings streamId m
  | .message streamId (.depthUpdate m) => depthUpdate sequencer settings streamId m
  | .depthAck symbol f => modify fun shared =>
    let instrument := getInstrument sequencer shared symbol
    setInstrument shared symbol { instrument with sequencer := f instrument.sequencer }

end

/-! ### Copies -/

/-- The two kinds of updates that are let through one by one. -/
inductive Kind where | tob | mbp
  deriving DecidableEq

/-- The id of a message of the kind for the symbol. -/
def Message.updateId (kind : Kind) (symbol : String) : Message → Option ℤ
  | .bookTicker m => if kind = .tob ∧ m.symbol = symbol then some m.orderBookUpdateId.toNat else none
  | .depthUpdate m => if kind = .mbp ∧ m.symbol = symbol then some m.finalUpdateId.toNat else none

/-- An update arrives where a connection is touched by it. It is accepted where a book ticker is
    published, or a depth update handed to the sequencer. -/
def moment (kind : Kind) (symbol : String) : Output → Option (Watermark.Moment ℤ)
  | .touch _ m => (m.updateId kind symbol).map .arrives
  | .topOfBook m =>
    if kind = .tob ∧ m.symbol = symbol then some (.passes m.exchangeSequence.toNat) else none
  | .sequence m =>
    if kind = .mbp ∧ m.symbol = symbol then some (.passes m.finalUpdateId.toNat) else none
  | _ => none

/-- What happens to the updates of a kind for a symbol. -/
def moments (kind : Kind) (symbol : String) (out : List Output) : List (Watermark.Moment ℤ) :=
  out.filterMap (moment kind symbol)

/-- Updates are accepted in order, and those that arrive before a newer one has been accepted are
    accepted once. -/
def AcceptsOnce (out : List Output) : Prop :=
  ∀ kind symbol, Watermark.Once (moments kind symbol out)

section
variable {Q : Type}

/-- The ids that arrive with an event. -/
def Event.updateIds (kind : Kind) (symbol : String) : Event Q → List ℤ
  | .message _ m => (m.updateId kind symbol).toList
  | .depthAck .. => []

/-- The ids that arrive, whatever the connection. -/
def received (kind : Kind) (symbol : String) (es : List (Event Q)) : List ℤ :=
  es.flatMap (Event.updateIds kind symbol)

/-- The ids fit, and a copy of an update arrives only after a newer update. -/
def NewerFirst (es : List (Event Q)) : Prop :=
  ∀ kind symbol, (∀ id ∈ received kind symbol es, id < 2 ^ 63) ∧
    Watermark.Fresh (received kind symbol es)

/-- The events of a connection. -/
def Event.of (streamId : UInt16) : Event Q → Bool
  | .message s _ => s = streamId
  | .depthAck .. => false

/-- Every connection delivers a part of the exchange's updates, in their order. -/
def Copies (es : List (Event Q)) : Prop :=
  ∀ kind symbol, ∃ chain : List ℤ, chain.Pairwise (· < ·) ∧
    ∀ streamId, received kind symbol (es.filter (Event.of streamId)) <:+: chain

end

/-- An id that fits. -/
def fits (id : ℤ) : Bool := id < 2 ^ 63

section
variable {Q : Type} (sequencer : Sequencer Q) (settings : Settings) {kind : Kind} {symbol : String}

/-- The id that has been let through last. -/
def lastUpdateId (kind : Kind) (symbol : String) (shared : Shared Q) : ℤ :=
  match kind with
  | .tob => (getInstrument sequencer shared symbol).tobLastUpdateId
  | .mbp => (getInstrument sequencer shared symbol).mbpLastUpdateId

/-- To the action the updates of the ids arrive, and it handles them as a gate would. -/
def Gates (kind : Kind) (symbol : String) (ids : List ℤ) (f : Act Q) : Prop :=
  ∀ shared, moments kind symbol (f shared).2
      = Watermark.history fits (lastUpdateId sequencer kind symbol shared) ids ∧
    lastUpdateId sequencer kind symbol (f shared).1
      = Watermark.mark fits (lastUpdateId sequencer kind symbol shared) ids

theorem moments_append (out out' : List Output) :
    moments kind symbol (out ++ out') = moments kind symbol out ++ moments kind symbol out' :=
  List.filterMap_append

theorem gates_skip : Gates sequencer kind symbol [] skip := fun _ => ⟨rfl, rfl⟩

theorem gates_seq {ids ids' : List ℤ} {f g : Act Q} (hf : Gates sequencer kind symbol ids f)
    (hg : Gates sequencer kind symbol ids' g) :
    Gates sequencer kind symbol (ids ++ ids') (seq f g) := by
  intro shared
  obtain ⟨hmoments, hlast⟩ := hf shared
  obtain ⟨hmoments', hlast'⟩ := hg (f shared).1
  refine ⟨?_, ?_⟩
  · rw [seq_snd, moments_append, hmoments, hmoments', hlast, Watermark.history_append]
  · rw [seq_fst, hlast', hlast, Watermark.mark, Watermark.mark, Watermark.mark, List.foldl_append]

theorem gates_seqAll : ∀ {fs : List (Act Q)}, (∀ f ∈ fs, Gates sequencer kind symbol [] f) →
    Gates sequencer kind symbol [] (seqAll fs)
  | [], _ => gates_skip sequencer
  | f :: _, h => gates_seq sequencer (h f (List.mem_cons_self ..))
      (gates_seqAll fun g hg => h g (List.mem_cons_of_mem _ hg))

/-- The handlers touch one instrument. -/
theorem getInstrument_set (shared : Shared Q) (s : String) (instrument : Instrument Q) :
    getInstrument sequencer (setInstrument shared s instrument) symbol
      = if symbol = s then instrument else getInstrument sequencer shared symbol := by
  unfold getInstrument setInstrument Function.update
  dsimp only
  split
  next => simp
  next => rfl

/-- An id that throws. -/
theorem safeCast_none {id : UInt64} (h : safeCast id = none) : fits id.toNat = false := by
  unfold safeCast at h
  split at h
  · cases h
  next hout =>
    simp only [fits, decide_eq_false_iff_not]
    omega

theorem safeCast_some {id : UInt64} {updateId : ℤ} (h : safeCast id = some updateId) :
    updateId = id.toNat ∧ fits id.toNat = true := by
  unfold safeCast at h
  split at h
  next hin =>
    refine ⟨(Option.some.inj h).symm, ?_⟩
    simp only [fits, decide_eq_true_eq]
    omega
  next => cases h

/-- The gate for one id. -/
theorem history_single (level id : ℤ) :
    Watermark.history fits level [id] = if fits id = true ∧ level ≤ id
        then [.arrives id, .passes id] else [.arrives id] := by
  by_cases h : fits id = true ∧ level ≤ id <;>
    simp [Watermark.history, Watermark.moments, Watermark.Takes, h]

theorem mark_single (level id : ℤ) :
    Watermark.mark fits level [id] = if fits id = true ∧ level ≤ id then id else level := by
  by_cases h : fits id = true ∧ level ≤ id <;>
    simp [Watermark.mark, Watermark.raise, Watermark.Takes, h]

theorem gates_bookTicker (streamId : UInt16) (m : BookTicker) :
    Gates sequencer kind symbol ((Message.bookTicker m).updateId kind symbol).toList
      (bookTicker sequencer settings streamId m) := by
  intro shared
  by_cases hown : kind = .tob ∧ m.symbol = symbol
  · obtain ⟨rfl, rfl⟩ := hown
    simp only [Message.updateId, and_self, if_true, Option.toList_some, history_single, mark_single]
    unfold bookTicker
    cases hcast : safeCast m.orderBookUpdateId with
    | none =>
      rw [safeCast_none hcast]
      simp [moments, moment, Message.updateId]
    | some updateId =>
      obtain ⟨rfl, hfits⟩ := safeCast_some hcast
      rw [hfits]
      by_cases hold : (m.orderBookUpdateId.toNat : ℤ)
          < (getInstrument sequencer shared m.symbol).tobLastUpdateId
      · simp [moments, moment, Message.updateId, lastUpdateId, getInstrument_set,
          Instrument.tobUpdate, hold]
      · simp [moments, moment, Message.updateId, lastUpdateId, getInstrument_set,
          Instrument.tobUpdate, hold, not_lt.mp hold]
  · simp only [Message.updateId, hown, if_false, Option.toList_none]
    unfold bookTicker
    cases hcast : safeCast m.orderBookUpdateId with
    | none => exact ⟨by simp [moments, moment, Message.updateId, hown, Watermark.history], rfl⟩
    | some updateId =>
      refine ⟨?_, ?_⟩
      · dsimp only
        split <;> simp [moments, moment, Message.updateId, hown, Watermark.history]
      · -- the other id of the symbol's instrument, or another instrument
        cases kind with
        | tob =>
          have hne : symbol ≠ m.symbol := fun heq => hown ⟨rfl, heq.symm⟩
          simp [lastUpdateId, getInstrument_set, hne, Watermark.mark]
        | mbp =>
          simp only [lastUpdateId, getInstrument_set, Instrument.tobUpdate, Watermark.mark,
            List.foldl_nil]
          split
          next heq =>
            rw [heq]
            split <;> rfl
          next => rfl

/-- The rest of what a sequencer is handed an update for. -/
theorem gates_callback (streamId : UInt16) (m : DepthUpdate) (last : UInt64) (c : Callback) :
    Gates sequencer kind symbol [] (callback (Q := Q) settings streamId m last c) := by
  intro shared
  cases c with
  | publishUpdate | publishSnapshot => exact ⟨rfl, rfl⟩
  | requestSnapshot retries =>
    dsimp only [callback]
    split
    · exact ⟨rfl, rfl⟩
    · exact ⟨rfl, by cases kind <;> rfl⟩

/-- The sequencer changes nothing about the ids. -/
theorem sequence_effect (kind : Kind) (symbol : String) (streamId : UInt16) (m : DepthUpdate)
    (instrument : Instrument Q)
    (shared : Shared Q) :
    moments kind symbol (sequence sequencer settings streamId m instrument shared).2
      = moments kind symbol [.sequence m] ∧
    lastUpdateId sequencer kind symbol (sequence sequencer settings streamId m instrument shared).1
      = lastUpdateId sequencer kind symbol (setInstrument shared m.symbol instrument) := by
  unfold sequence
  generalize sequencer.update instrument.sequencer (m.bids.map toMBPUpdate)
    (m.asks.map toMBPUpdate) m.firstUpdateId m.finalUpdateId m.finalUpdateIdInLastStream = result
  obtain ⟨q, callbacks, badState⟩ := result
  have hcallbacks : Gates sequencer kind symbol []
      (seqAll (callbacks.map (callback settings streamId m (sequencer.lastSequence q)))) := by
    refine gates_seqAll sequencer fun f hf => ?_
    obtain ⟨c, _, rfl⟩ := List.mem_map.mp hf
    exact gates_callback sequencer settings streamId m _ c
  have hqueue : Gates sequencer kind symbol [] (modify fun shared : Shared Q =>
      if badState then { shared with depthRequestQueue := shared.depthRequestQueue ++ [m.symbol] }
      else shared) := by
    intro shared
    refine ⟨rfl, ?_⟩
    cases badState <;> cases kind <;> rfl
  obtain ⟨hmoments, hlast⟩ := gates_seq sequencer hcallbacks
    (gates_seq sequencer hqueue (gates_skip sequencer))
    (setInstrument shared m.symbol
      { instrument with sequencer := if badState then sequencer.clear q else q })
  refine ⟨?_, ?_⟩
  · dsimp only [seqAll, seq_snd, emit_apply, modify_apply] at hmoments ⊢
    rw [moments_append, List.nil_append]
    rw [show moments kind symbol _ = _ from hmoments]
    simp [Watermark.history]
  · refine hlast.trans ?_
    simp only [Watermark.mark, List.append_nil, List.foldl_nil, lastUpdateId, getInstrument_set]
    cases kind <;> (dsimp only; split <;> rfl)

/-- What a depth update does, but for the queue and the sequencer. -/
theorem depthUpdate_effect (kind : Kind) (symbol : String) (streamId : UInt16) (m : DepthUpdate)
    (shared : Shared Q) {updateId : ℤ}
    (hcast : safeCast m.finalUpdateId = some updateId) :
    moments kind symbol (depthUpdate sequencer settings streamId m shared).2
      = moments kind symbol (.touch streamId (.depthUpdate m) ::
          if updateId < (getInstrument sequencer shared m.symbol).mbpLastUpdateId then []
          else [.sequence m]) ∧
    lastUpdateId sequencer kind symbol (depthUpdate sequencer settings streamId m shared).1
      = lastUpdateId sequencer kind symbol (setInstrument shared m.symbol
          ((getInstrument sequencer shared m.symbol).mbpUpdate updateId).1) := by
  unfold depthUpdate Instrument.mbpUpdate
  rw [hcast]
  dsimp only
  split
  next => exact ⟨rfl, rfl⟩
  next =>
    obtain ⟨hmoments, hlast⟩ := sequence_effect sequencer settings kind symbol streamId m
      { getInstrument sequencer shared m.symbol with mbpLastUpdateId := updateId }
      (setInstrument shared m.symbol
        { getInstrument sequencer shared m.symbol with mbpLastUpdateId := updateId })
    refine ⟨?_, hlast.trans ?_⟩
    · simp only [seqAll, if_true, seq_snd, emit_apply, modify_apply, skip_apply, List.append_nil,
        List.nil_append, List.singleton_append]
      calc moments kind symbol ([.touch streamId (.depthUpdate m)] ++ _)
          = moments kind symbol [.touch streamId (.depthUpdate m)]
            ++ moments kind symbol [.sequence m] := (moments_append _ _).trans (by rw [hmoments])
        _ = _ := (moments_append _ _).symm
    · simp only [lastUpdateId, getInstrument_set]
      cases kind <;> (dsimp only; split <;> rfl)

theorem gates_depthUpdate (streamId : UInt16) (m : DepthUpdate) :
    Gates sequencer kind symbol ((Message.depthUpdate m).updateId kind symbol).toList
      (depthUpdate sequencer settings streamId m) := by
  intro shared
  cases hcast : safeCast m.finalUpdateId with
  | none =>
    have hstep : depthUpdate sequencer settings streamId m shared
        = (shared, [.touch streamId (.depthUpdate m), .terminate]) := by simp [depthUpdate, hcast]
    rw [hstep]
    by_cases hown : kind = .mbp ∧ m.symbol = symbol
    · simp [moments, moment, Message.updateId, hown, history_single, mark_single,
        safeCast_none hcast]
    · simp [moments, moment, Message.updateId, hown, Watermark.history, Watermark.mark]
  | some updateId =>
    obtain ⟨hmoments, hlast⟩ := depthUpdate_effect sequencer settings kind symbol streamId m
      shared hcast
    rw [hmoments, hlast]
    obtain ⟨rfl, hfits⟩ := safeCast_some hcast
    by_cases hown : kind = .mbp ∧ m.symbol = symbol
    · obtain ⟨rfl, rfl⟩ := hown
      simp only [Message.updateId, and_self, if_true, Option.toList_some, history_single,
        mark_single, hfits]
      by_cases hold : (m.finalUpdateId.toNat : ℤ)
          < (getInstrument sequencer shared m.symbol).mbpLastUpdateId
      · simp [moments, moment, Message.updateId, lastUpdateId, getInstrument_set,
          Instrument.mbpUpdate, hold]
      · simp [moments, moment, Message.updateId, lastUpdateId, getInstrument_set,
          Instrument.mbpUpdate, hold, not_lt.mp hold]
    · simp only [Message.updateId, hown, if_false, Option.toList_none]
      refine ⟨?_, ?_⟩
      · split <;> simp [moments, moment, Message.updateId, hown, Watermark.history]
      · cases kind with
        | mbp =>
          have hne : symbol ≠ m.symbol := fun heq => hown ⟨rfl, heq.symm⟩
          simp [lastUpdateId, getInstrument_set, hne, Watermark.mark]
        | tob =>
          simp only [lastUpdateId, getInstrument_set, Instrument.mbpUpdate, Watermark.mark,
            List.foldl_nil]
          split
          next heq =>
            rw [heq]
            split <;> rfl
          next => rfl

theorem gates_step (e : Event Q) :
    Gates sequencer kind symbol (e.updateIds kind symbol) (step sequencer settings e) := by
  cases e with
  | message streamId m =>
    cases m with
    | bookTicker m => exact gates_bookTicker sequencer settings streamId m
    | depthUpdate m => exact gates_depthUpdate sequencer settings streamId m
  | depthAck s f =>
    intro shared
    refine ⟨rfl, ?_⟩
    simp only [step, modify_apply, lastUpdateId, getInstrument_set, Event.updateIds, Watermark.mark,
      List.foldl_nil]
    cases kind <;>
    · dsimp only
      split
      next heq => rw [heq]
      next => rfl

/-- Over a run the instruments handle what arrives as gates would. -/
theorem gates_run : ∀ es : List (Event Q),
    Gates sequencer kind symbol (received kind symbol es) (run (step sequencer settings) es)
  | [] => gates_skip sequencer
  | e :: es => gates_seq sequencer (gates_step sequencer settings e) (gates_run es)

theorem received_nonneg (kind : Kind) (symbol : String) (es : List (Event Q)) :
    ∀ id ∈ received kind symbol es, 0 ≤ id := by
  intro id hid
  obtain ⟨e, _, hmem⟩ := List.mem_flatMap.mp hid
  cases e with
  | depthAck => cases hmem
  | message streamId m =>
    have hm := Option.mem_toList.mp hmem
    cases m <;>
    · dsimp only [Message.updateId] at hm
      split at hm
      · rw [← Option.mem_some_iff.mp hm]
        exact Int.natCast_nonneg _
      · cases hm

/-- EXACT: in a run of the connections, updates are accepted in order and once if and only if every id
    fits and no update arrives while it is still the newest. -/
theorem acceptsOnce_iff (es : List (Event Q)) :
    AcceptsOnce (run (step sequencer settings) es {}).2 ↔ NewerFirst es := by
  refine forall_congr' fun kind => forall_congr' fun symbol => ?_
  have hlast : lastUpdateId sequencer kind symbol ({} : Shared Q) = 0 := by cases kind <;> rfl
  have hrange : ∀ a b, fits a = true → fits b = false → a ≤ b := by
    intro a b ha hb
    simp only [fits, decide_eq_true_eq, decide_eq_false_iff_not] at ha hb
    omega
  have hgates : Gates sequencer kind symbol (received kind symbol es)
      (run (step sequencer settings) es) := gates_run sequencer settings es
  rw [(hgates {}).1, hlast, Watermark.once_iff (received_nonneg kind symbol es) hrange]
  simp [fits]

end

/-- A sequencer that lets every update through. -/
def direct : Sequencer Unit where
  create := ()
  update _ bids asks _ _ _ := ((), [.publishUpdate bids asks], false)
  clear _ := ()
  lastSequence _ := 0

/-- A book ticker. -/
def ticker : BookTicker := ⟨"BTCUSDT", 7, some 1, some 1, some 2, some 1, 1, 1⟩

/-- Both connections deliver it, one right after the other. -/
def backToBack : List (Event Unit) :=
  [.message 1 (.bookTicker ticker), .message 2 (.bookTicker ticker)]

/-- It is published twice. -/
theorem backToBack_twice :
    ¬ ∀ es : List (Event Unit), Copies es → AcceptsOnce (run (step direct {}) es {}).2 := by
  intro h
  have hcopies : Copies backToBack := by
    intro kind symbol
    by_cases hown : kind = .tob ∧ "BTCUSDT" = symbol
    · obtain ⟨rfl, rfl⟩ := hown
      refine ⟨[7], by simp, fun streamId => ?_⟩
      by_cases hprimary : streamId = 1
      · subst hprimary
        exact List.infix_refl _
      · by_cases hsecondary : streamId = 2
        · subst hsecondary
          exact List.infix_refl _
        · simp [backToBack, received, Event.of, Ne.symm hprimary, Ne.symm hsecondary]
    · refine ⟨[], by simp, fun streamId => ?_⟩
      have hnone : ∀ e ∈ backToBack.filter (Event.of streamId), e.updateIds kind symbol = [] := by
        intro e he
        rcases List.mem_pair.mp (List.mem_of_mem_filter he) with rfl | rfl <;>
          simp [Event.updateIds, Message.updateId, ticker, hown]
      rw [received, List.flatMap_eq_nil_iff.mpr hnone]
  have hincreasing := (h backToBack hcopies .tob "BTCUSDT").increasing
  revert hincreasing
  decide

end Instruments
end BinanceFutures
