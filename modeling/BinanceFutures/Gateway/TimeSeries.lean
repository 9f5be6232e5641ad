import BinanceFutures.Gateway.Symbols

/-! # Time series

    The bars of an instrument are published under two names. The exchange sends its own with every kline.
    `Rest` has none in its answer, so it publishes a download under the name it was asked for; that one
    comes from the list of symbols, and has been lower-cased on the way.

        exchangeInfo BTCUSDT ──▶ ReferenceData BTCUSDT
               │ to lower
               ▼
        core::Symbols btcusdt ─▶ MarketData2 ─▶ queue ─▶ get_kline ─▶ answer ─▶ SNAPSHOT    btcusdt
                                                         kline BTCUSDT ───────▶ INCREMENTAL BTCUSDT -/

namespace BinanceFutures
open Machine

namespace MarketData

/-- What strays: a request for a symbol that is not wanted, or an update. -/
def Output.stray (wanted : String → Prop) : Output → Prop
  | .timeSeriesRequest symbol => ¬ wanted symbol
  | .timeSeriesUpdate _ => True
  | _ => False

section
variable {wanted : String → Prop}

theorem stray_enqueue (names : List String) (channel : Channel) :
    Silent (Output.stray wanted) (enqueue names channel) :=
  silent_enqueue (fun _ => id) names channel

theorem stray_status (st : ConnectionStatus) : Silent (Output.stray wanted) (status st) := by
  intro s o ho
  rw [List.mem_singleton.mp ho]
  exact id

theorem stray_modify (f : MarketData → MarketData) :
    Silent (Output.stray wanted) (modify f : Act) := by
  intro s o ho
  cases ho

variable (settings : Settings) (slices : Slices)

theorem stray_subscribeFrom (kind : Kind) {symbols : List String} (startFrom : ℕ)
    (h : ∀ s ∈ symbols, wanted s) :
    Silent (Output.stray wanted) (subscribeFrom settings slices kind symbols startFrom) :=
  silent_subscribeFrom settings (fun _ => id) (fun s hs => not_not.mpr (h s hs)) slices kind startFrom

theorem stray_onReady (kind : Kind) {symbols : List String} (h : ∀ s ∈ symbols, wanted s) :
    Silent (Output.stray wanted) (onReady settings slices kind symbols) := by
  refine silent_seq (stray_status _) (silent_seq (stray_subscribeFrom settings slices kind 0 h)
    (silent_seq ?_ (silent_skip _)))
  cases kind with
  | two => exact silent_guarded _ fun s => stray_enqueue s.assets _ s
  | _ => exact silent_skip _

theorem wanted_of_request {o : Output} {symbol : String} (h : ¬ o.stray wanted)
    (hrequest : o.request = some symbol) : wanted symbol := by
  cases o with
  | timeSeriesRequest symbol' =>
    obtain rfl := Option.some.inj hrequest
    exact not_not.mp h
  | _ => cases hrequest

theorem stray_onDisconnected : Silent (Output.stray wanted) onDisconnected :=
  silent_seq (stray_status _) (stray_modify _)

theorem stray_announce (assets : List String) : Silent (Output.stray wanted) (announce assets) :=
  silent_seq (stray_modify _) (stray_enqueue _ _)

theorem stray_onTimer (n : ℕ) : Silent (Output.stray wanted) (onTimer n) :=
  silent_onTimer (fun _ => id) n

end

end MarketData

namespace Market

/-- The symbol of reference data. -/
def Output.reference : Output → Option String
  | .referenceData m => some m.symbol
  | _ => none

/-- An update of a time series, from either side. -/
def Output.update : Output → Option TimeSeriesUpdate
  | .timeSeriesUpdate m => some m
  | .stream _ (.timeSeriesUpdate m) => some m
  | _ => none

def references (out : List Output) : List String := out.filterMap Output.reference

def updates (out : List Output) : List TimeSeriesUpdate := out.filterMap Output.update

/-- Every update of an instrument carries the symbol of its reference data. -/
def Joined (out : List Output) : Prop :=
  ∀ x ∈ references out, ∀ u ∈ updates out, toLower u.symbol = toLower x → u.symbol = x

/-- The symbols that the exchange lists, those that are discarded among them. -/
def Event.listed : Event → List String
  | .exchangeInfoAck items _ => items.map (·.symbol)
  | _ => []

def listed (es : List Event) : List String := es.flatMap Event.listed

/-- The symbols that the client asks for. -/
def Event.requested : Event → List String
  | .subscribe symbols => symbols
  | _ => []

def requested (es : List Event) : List String := es.flatMap Event.requested

/-- What it takes for the update of a step to name an instrument as it is listed. A kline has the name
    that is listed. A download with klines was asked for by that name, if the client has asked for the
    symbol; if not, it came of the list of the exchange, and the name has no upper case. -/
def Named (settings : Settings) (listed requested : List String) (w : World) : Event → Prop
  | .kline index kline =>
    index < (w.rows .two).length → kline.data.closed ∨ settings.timeSeries.realtime →
      ∀ x ∈ listed, toLower kline.data.symbol = toLower x → kline.data.symbol = x
  | .klineAnswer n (some (_ :: _)) => ∀ symbol, w.klines.find n = some symbol →
      ∀ x ∈ listed, toLower symbol = toLower x →
        if symbol ∈ requested then symbol = x else toLower x = x
  | _ => True

/-! ### Where names come from -/

/-- Every name that is waiting to be asked for is wanted. -/
structure Within (wanted : String → Prop) (w : World) : Prop where
  symbols : ∀ s ∈ w.symbols, wanted s
  queue : ∀ s ∈ w.timeSeriesRequestQueue, wanted s
  klines : ∀ e ∈ w.klines.entries, wanted e.2

theorem within_mono {wanted wanted' : String → Prop} {w : World} (h : ∀ s, wanted s → wanted' s)
    (hw : Within wanted w) : Within wanted' w where
  symbols s hs := h s (hw.symbols s hs)
  queue s hs := h s (hw.queue s hs)
  klines e he := h e.2 (hw.klines e he)

/-- The names that wait are wanted, and nothing has been said of an instrument. -/
structure Tidy (wanted : String → Prop) (out : List Output) (w : World) : Prop where
  within : Within wanted w
  plain : ∀ o ∈ out, o.reference = none ∧ o.update = none

section
variable {wanted : String → Prop}

theorem Tidy.references {out : List Output} {w : World} (h : Tidy wanted out w) :
    references out = [] :=
  List.filterMap_eq_nil_iff.mpr fun o ho => (h.plain o ho).1

theorem Tidy.updates {out : List Output} {w : World} (h : Tidy wanted out w) : updates out = [] :=
  List.filterMap_eq_nil_iff.mpr fun o ho => (h.plain o ho).2

theorem plain_stream {key : Key} {o : MarketData.Output} (h : ¬ o.stray wanted) :
    (Output.stream key o).reference = none ∧ (Output.stream key o).update = none := by
  refine ⟨rfl, ?_⟩
  cases o with
  | timeSeriesUpdate m => exact absurd trivial h
  | _ => rfl

theorem tidy_modify {f : World → World} (hf : ∀ w, Within wanted w → Within wanted (f w)) :
    Keeps (Tidy wanted) (modify f) := by
  intro out w h
  exact ⟨hf w h.within, by simpa using h.plain⟩

theorem tidy_onRow (kind : MarketData.Kind) {f : Action (List MarketData) (ℕ × MarketData.Output)}
    (hf : ∀ row, ∀ o ∈ (f row).2, ¬ o.2.stray wanted) : Keeps (Tidy wanted) (onRow kind f) := by
  intro out w h
  refine ⟨⟨h.within.symbols, fun s hs => ?_, h.within.klines⟩, fun o ho => ?_⟩
  · rcases List.mem_append.mp hs with hold | hnew
    · exact h.within.queue s hold
    · obtain ⟨o, ho, hrequest⟩ := List.mem_filterMap.mp hnew
      exact MarketData.wanted_of_request (hf _ o ho) hrequest
  · rcases List.mem_append.mp ho with hold | hnew
    · exact h.plain o hold
    · obtain ⟨o', hmem, rfl⟩ := List.mem_map.mp hnew
      exact plain_stream (hf _ o' hmem)

theorem tidy_member (kind : MarketData.Kind) (i : ℕ) {f : MarketData.Act}
    (hf : Silent (MarketData.Output.stray wanted) f) :
    Keeps (Tidy wanted) (onRow kind (Row.member i f)) := by
  refine tidy_onRow kind fun row o ho => ?_
  unfold Row.member at ho
  split at ho
  · cases ho
  · obtain ⟨o', hmem, rfl⟩ := List.mem_map.mp ho
    exact hf _ o' hmem

theorem tidy_every (kind : MarketData.Kind) {f : MarketData.Act}
    (hf : Silent (MarketData.Output.stray wanted) f) :
    Keeps (Tidy wanted) (onRow kind (Row.every f)) := by
  refine tidy_onRow kind fun row o ho => ?_
  obtain ⟨⟨s, i⟩, -, hmem⟩ := List.mem_flatMap.mp ho
  obtain ⟨o', hinner, rfl⟩ := List.mem_map.mp hmem
  exact hf s o' hinner

theorem tidy_createStream (kind : MarketData.Kind) : Keeps (Tidy wanted) (createStream kind) := by
  intro out w h
  refine keeps_seq (tidy_modify ?_) (tidy_onRow kind ?_) out w h
  · exact fun w hw => ⟨hw.symbols, hw.queue, hw.klines⟩
  · intro row o ho
    obtain ⟨o', hmem, rfl⟩ := List.mem_map.mp ho
    rw [List.mem_singleton.mp hmem]
    exact id

theorem tidy_ensure (kind : MarketData.Kind) (size : ℕ) :
    Keeps (Tidy wanted) (ensure kind size) := by
  intro out w h
  refine keeps_seqAll (fun f hf => ?_) out w h
  rw [List.eq_of_mem_replicate hf]
  exact tidy_createStream kind

variable (settings : Settings) (slices : Slices)

theorem tidy_ensureSymbolSlices (size : ℕ) :
    Keeps (Tidy wanted) (ensureSymbolSlices settings size) := by
  refine keeps_seqAll fun f hf => ?_
  simp only [List.mem_cons, List.not_mem_nil, or_false] at hf
  rcases hf with rfl | rfl | rfl
  · exact tidy_ensure _ _
  · split
    · exact tidy_ensure _ _
    · exact keeps_skip _
  · exact tidy_ensure _ _

/-- New symbols that are wanted leave nothing behind that is not. -/
theorem tidy_symbolsUpdate {new : List String} (hnew : ∀ s ∈ new, wanted s) :
    Keeps (Tidy wanted) (symbolsUpdate settings slices new) := by
  intro out w h
  have hall : ∀ s ∈ w.symbols ++ new, wanted s := by
    intro s hs
    rcases List.mem_append.mp hs with hold | hs
    · exact h.within.symbols s hold
    · exact hnew s hs
  have hsubscribe : ∀ kind, Keeps (Tidy wanted) (onRow kind (Row.every
      (MarketData.subscribeFrom settings slices kind (w.symbols ++ new) w.symbols.length))) :=
    fun kind => tidy_every kind (MarketData.stray_subscribeFrom settings slices kind _ hall)
  refine keeps_seqAll (fun f hf => ?_) out w h
  simp only [List.mem_cons, List.not_mem_nil, or_false] at hf
  rcases hf with rfl | rfl | rfl | rfl | rfl
  · exact tidy_modify fun w' hw => ⟨hall, hw.queue, hw.klines⟩
  · exact tidy_ensureSymbolSlices settings _
  all_goals exact hsubscribe _

theorem tidy_getKline {symbol : String} (h : wanted symbol) :
    Keeps (Tidy wanted) (getKline symbol) := by
  intro out w hw
  refine ⟨⟨hw.within.symbols, hw.within.queue, fun e he => ?_⟩, fun o ho => ?_⟩
  · rcases List.mem_append.mp he with hold | hentered
    · exact hw.within.klines e hold
    · rw [List.mem_singleton.mp hentered]
      exact h
  · rcases List.mem_append.mp ho with hold | hsent
    · exact hw.plain o hold
    · rw [List.mem_singleton.mp hsent]
      exact ⟨rfl, rfl⟩

theorem tidy_checkRequestQueue (n : ℕ) : Keeps (Tidy wanted) (checkRequestQueue n) := by
  intro out w h
  refine keeps_seq (tidy_modify ?_) (keeps_map fun symbol hdue => ?_) out w h
  · exact fun w' hw => ⟨hw.symbols, fun s hs => h.within.queue s (List.mem_of_mem_drop hs), hw.klines⟩
  · exact tidy_getKline (h.within.queue symbol (List.mem_of_mem_take hdue))

theorem within_settle {w : World} (n : ℕ) (h : Within wanted w) :
    Within wanted { w with klines := w.klines.settle n } :=
  ⟨h.symbols, h.queue, fun e he => h.klines e (Ledger.mem_settle.mp he).1⟩

/-! ### What a step says of an instrument -/

/-- The symbol of the update that the step publishes. -/
def stated (w : World) : Event → Option String
  | .kline index kline =>
    if index < (w.rows .two).length ∧ (kline.data.closed ∨ settings.timeSeries.realtime) then
      some kline.data.symbol
    else none
  | .klineAnswer n (some (_ :: _)) => w.klines.find n
  | _ => none

/-- A step has done what the event says, and takes in wanted names only. -/
structure Told (wanted : String → Prop) (w : World) (e : Event) (r : World × List Output) : Prop where
  within : Within wanted r.1
  references : references r.2 = e.listed
  updates : (updates r.2).map (·.symbol) = (stated settings w e).toList

variable {w : World} {e : Event}

/-- An event that names no instrument. -/
theorem told_of_keeps {f : Act} (hf : Keeps (Tidy wanted) f) (h : Within wanted w)
    (hlisted : e.listed = []) (hstated : stated settings w e = none) :
    Told settings wanted w e (f w) := by
  have htidy : Tidy wanted (f w).2 (f w).1 := hf [] w ⟨h, by simp⟩
  exact ⟨htidy.within, htidy.references.trans hlisted.symm,
    by rw [htidy.updates, hstated, List.map_nil, Option.toList_none]⟩

theorem references_publishItems (discard : String → Bool) (items : List Json.Symbol) :
    references (items.flatMap (publishItem settings discard)) = items.map (·.symbol) := by
  induction items with
  | nil => rfl
  | cons item items ih =>
    rw [references] at ih ⊢
    rw [List.flatMap_cons, List.filterMap_append, ih, publishItem]
    split <;> simp [Output.reference, referenceData]

theorem updates_publishItems (discard : String → Bool) (items : List Json.Symbol) :
    updates (items.flatMap (publishItem settings discard)) = [] := by
  refine List.filterMap_eq_nil_iff.mpr fun o ho => ?_
  obtain ⟨item, -, hmem⟩ := List.mem_flatMap.mp ho
  rcases List.mem_cons.mp hmem with rfl | hstatus
  · rfl
  · split at hstatus
    · cases hstatus
    · rw [List.mem_singleton.mp hstatus]
      rfl

theorem told_exchangeInfoAck {items : List Json.Symbol} {discard : String → Bool}
    (h : Within wanted w) (hfresh : ∀ s ∈ fresh w (.exchangeInfoAck items discard), wanted s) :
    Told settings wanted w (.exchangeInfoAck items discard)
      (step settings slices (.exchangeInfoAck items discard) w) := by
  have hupdate : Keeps (Tidy wanted)
      (if fresh w (.exchangeInfoAck items discard) = [] then skip
        else symbolsUpdate settings slices (fresh w (.exchangeInfoAck items discard))) := by
    split
    · exact keeps_skip _
    · exact tidy_symbolsUpdate settings slices hfresh
  have htidy := keeps_seq hupdate (keeps_skip _) []
    { w with allSymbols := (includeNew w.allSymbols (createSymbols discard items)).1 }
    ⟨⟨h.symbols, h.queue, h.klines⟩, by simp⟩
  -- the items are published first, the connections follow
  have hout : (step settings slices (.exchangeInfoAck items discard) w).2
      = items.flatMap (publishItem settings discard) ++ ([] ++ _) := rfl
  refine ⟨htidy.within, ?_, ?_⟩
  · rw [hout, references, List.filterMap_append]
    exact (congrArg₂ (· ++ ·) (references_publishItems settings discard items)
      htidy.references).trans (List.append_nil _)
  · rw [hout, updates, List.filterMap_append]
    exact congrArg (List.map _)
      (congrArg₂ (· ++ ·) (updates_publishItems settings discard items) htidy.updates)

/-- The download is settled, and its klines are published under the name it was asked for. -/
theorem told_klineAnswer {n : ℕ} {answer : Option (List Json.KlineAckDataItem)}
    (h : Within wanted w) :
    Told settings wanted w (.klineAnswer n answer) (getKlineAck settings n answer w) := by
  unfold getKlineAck
  cases hfind : w.klines.find n with
  | none =>
    refine ⟨h, rfl, ?_⟩
    rcases answer with _ | _ | _ <;> simp [updates, stated, hfind]
  | some symbol =>
    have hsettle := within_settle n h
    rcases answer with _ | _ | ⟨item, items⟩
    · exact ⟨hsettle, rfl, rfl⟩
    · exact ⟨hsettle, rfl, rfl⟩
    · exact ⟨hsettle, rfl, by simp [klineAck, updates, Output.update, stated, hfind]⟩

theorem outputs_onKline (kline : Json.Kline) (s : MarketData) :
    ∃ m : TimeSeriesUpdate, m.symbol = kline.data.symbol ∧
      (MarketData.onKline settings kline s).2 = .touch ::
        if kline.data.closed ∨ settings.timeSeries.realtime then [.timeSeriesUpdate m] else [] := by
  refine ⟨{
    streamId := s.streamId, exchange := settings.exchange, symbol := kline.data.symbol
    interval := settings.timeSeries.interval, origin := .exchange, bars := [MarketData.toBar kline]
    updateType := .incremental, exchangeTimeUtc := kline.eventTime }, rfl,
    congrArg (MarketData.Output.touch :: ·) ?_⟩
  cases kline.data.closed <;> cases settings.timeSeries.realtime <;> rfl

/-- A kline is published under the name that it has, if there is a connection to receive it. -/
theorem told_kline {index : ℕ} {kline : Json.Kline} (h : Within wanted w) :
    Told settings wanted w (.kline index kline)
      (onRow .two (Row.member index (MarketData.onKline settings kline)) w) := by
  cases hrow : (w.rows .two)[index]? with
  | none =>
    have habsent : ¬ index < (w.rows .two).length := by
      have hle := List.getElem?_eq_none_iff.mp hrow
      omega
    refine ⟨⟨h.symbols, by simpa [onRow, Row.member, hrow] using h.queue, h.klines⟩, ?_, ?_⟩
    · simp [onRow, Row.member, hrow, references, Event.listed]
    · simp [onRow, Row.member, updates, stated, habsent]
  | some s =>
    obtain ⟨hlt, -⟩ := List.getElem?_eq_some_iff.mp hrow
    obtain ⟨m, hsymbol, hout⟩ := outputs_onKline settings kline s
    have hrun : Row.member index (MarketData.onKline settings kline) (w.rows .two)
        = ((w.rows .two).set index s,
          (MarketData.onKline settings kline s).2.map fun o => (index, o)) := by
      simp only [Row.member, hrow]
      rfl
    unfold onRow
    rw [hrun, hout]
    by_cases hpublished : kline.data.closed ∨ settings.timeSeries.realtime
    · rw [if_pos hpublished]
      refine ⟨⟨h.symbols, ?_, h.klines⟩, rfl, ?_⟩
      · simpa [MarketData.Output.request] using h.queue
      · rw [stated, if_pos ⟨hlt, hpublished⟩]
        exact congrArg (fun symbol => [symbol]) hsymbol
    · rw [if_neg hpublished]
      refine ⟨⟨h.symbols, ?_, h.klines⟩, rfl, ?_⟩
      · simpa [MarketData.Output.request] using h.queue
      · rw [stated, if_neg fun hboth => hpublished hboth.2]
        rfl

theorem told_step (h : Within wanted w) (hfresh : ∀ s ∈ fresh w e, wanted s) :
    Told settings wanted w e (step settings slices e w) := by
  cases e with
  | exchangeInfoAck items discard => exact told_exchangeInfoAck settings slices h hfresh
  | subscribe symbols =>
    have hmodify : Keeps (Tidy wanted)
        (modify ({ · with allSymbols := (includeNew w.allSymbols symbols).1 })) :=
      tidy_modify fun w' hw => ⟨hw.symbols, hw.queue, hw.klines⟩
    have hstep : step settings slices (.subscribe symbols) w
        = seq (modify ({ · with allSymbols := (includeNew w.allSymbols symbols).1 }))
          (symbolsUpdate settings slices (fresh w (.subscribe symbols))) w := rfl
    rw [hstep]
    exact told_of_keeps settings (keeps_seq hmodify (tidy_symbolsUpdate settings slices hfresh)) h
      rfl rfl
  | assetIndexAck symbols =>
    have hannounce : Keeps (Tidy wanted)
        (if announced w (.assetIndexAck symbols) = [] then skip
          else assetsUpdate (announced w (.assetIndexAck symbols))) := by
      split
      · exact keeps_skip _
      · exact tidy_member .two 0 (MarketData.stray_announce _)
    have hmodify : Keeps (Tidy wanted)
        (modify ({ · with assets := (includeNew w.assets symbols).1 })) :=
      tidy_modify fun w' hw => ⟨hw.symbols, hw.queue, hw.klines⟩
    have hstep : step settings slices (.assetIndexAck symbols) w
        = seq (modify ({ · with assets := (includeNew w.assets symbols).1 }))
          (if announced w (.assetIndexAck symbols) = [] then skip
            else assetsUpdate (announced w (.assetIndexAck symbols))) w := rfl
    rw [hstep]
    exact told_of_keeps settings (keeps_seq hmodify hannounce) h rfl rfl
  | restStatus status =>
    exact told_of_keeps settings (tidy_modify fun w hw => ⟨hw.symbols, hw.queue, hw.klines⟩) h rfl rfl
  | restTimer n =>
    refine told_of_keeps settings (keeps_guarded _ fun out w' _ hw => ?_) h rfl rfl
    exact tidy_checkRequestQueue n out w' hw
  | klineAnswer n answer => exact told_klineAnswer settings h
  | ready key =>
    have hready := tidy_member key.kind key.index
      (MarketData.stray_onReady settings slices key.kind h.symbols)
    rw [step]
    exact told_of_keeps settings hready h rfl rfl
  | disconnected key =>
    exact told_of_keeps settings (tidy_member key.kind key.index MarketData.stray_onDisconnected) h
      rfl rfl
  | timer key n =>
    exact told_of_keeps settings (tidy_member key.kind key.index (MarketData.stray_onTimer n)) h
      rfl rfl
  | kline index kline => exact told_kline settings h

/-! ### Runs -/

variable (streamId : UInt16)

/-- A name that waits is one that the client has asked for, or is in lower case. -/
theorem within_run (es : List Event) : Within (fun s => s ∈ requested es ∨ toLower s = s)
    (run (step settings slices) es { streamId }).1 := by
  induction es using List.reverseRecOn with
  | nil => exact ⟨by simp, by simp, by simp [Ledger.empty]⟩
  | append_singleton es e ih =>
    have hrequested : requested (es ++ [e]) = requested es ++ e.requested := by
      rw [requested, List.flatMap_append, List.flatMap_singleton]
      rfl
    have hmore : ∀ s, s ∈ requested es ∨ toLower s = s → s ∈ requested (es ++ [e]) ∨ toLower s = s := by
      rintro s (hmem | hlower)
      · exact Or.inl (hrequested ▸ List.mem_append_left _ hmem)
      · exact Or.inr hlower
    rw [run_concat_fst]
    refine (told_step settings slices (within_mono hmore ih) fun s hs => ?_).within
    have hasked : s ∈ e.asked := (mem_includeNew.mp hs).1
    cases e with
    | exchangeInfoAck items discard => exact Or.inr (lower_createSymbols hasked)
    | subscribe symbols => exact Or.inl (hrequested ▸ List.mem_append_right _ hasked)
    | _ => cases hasked

/-- Reference data is published of what the exchange lists, and of nothing else. -/
theorem references_run (es : List Event) :
    references (run (step settings slices) es { streamId }).2 = listed es := by
  induction es using List.reverseRecOn with
  | nil => rfl
  | append_singleton es e ih =>
    have htold := told_step settings slices (e := e)
      (within_mono (fun _ _ => trivial) (within_run settings slices streamId es)) fun _ _ => trivial
    rw [run_concat_snd, references, List.filterMap_append, listed, List.flatMap_append,
      List.flatMap_singleton]
    exact congrArg₂ (· ++ ·) ih htold.references

/-- The condition says that the step names every instrument as it is listed. -/
theorem named_iff {listed requested : List String}
    (h : Within (fun s => s ∈ requested ∨ toLower s = s) w) :
    Named settings listed requested w e ↔ ∀ symbol, stated settings w e = some symbol →
      ∀ x ∈ listed, toLower symbol = toLower x → symbol = x := by
  cases e with
  | kline index kline =>
    constructor
    · intro hnamed symbol hstated
      obtain ⟨⟨hthere, hpublished⟩, hsymbol⟩ := Option.ite_none_right_eq_some.mp hstated
      obtain rfl := Option.some.inj hsymbol
      exact hnamed hthere hpublished
    · intro hstated hthere hpublished
      exact hstated _ (if_pos ⟨hthere, hpublished⟩)
  | klineAnswer n answer =>
    rcases answer with _ | _ | ⟨item, items⟩
    · exact iff_of_true trivial fun _ hnone => by cases hnone
    · exact iff_of_true trivial fun _ hnone => by cases hnone
    · refine forall₂_congr fun symbol hfind => forall₂_congr fun x _ => imp_congr_right fun hsame => ?_
      split
      next => exact Iff.rfl
      next hclient =>
        -- the name is in lower case, so it is the listed one if and only if that is, too
        have hlower : toLower symbol = symbol :=
          (h.klines _ (Ledger.mem_of_find hfind)).resolve_left hclient
        rw [← hlower, hsame]
  | _ => exact iff_of_true trivial fun _ hnone => by cases hnone

/-- EXACT: every update of an instrument carries the symbol of its reference data if and only if the
    klines have the names that are listed, and no download is answered for an instrument with upper
    case in its name, unless the client has asked for it by that name. -/
theorem joined_iff (es : List Event) :
    Joined (run (step settings slices) es { streamId }).2
      ↔ ∀ pre e post, es = pre ++ e :: post → Named settings (listed es) (requested pre)
        (run (step settings slices) pre { streamId }).1 e := by
  have hupdates : Joined (run (step settings slices) es { streamId }).2
      ↔ ∀ o ∈ (run (step settings slices) es { streamId }).2, ∀ u, o.update = some u →
        ∀ x ∈ listed es, toLower u.symbol = toLower x → u.symbol = x := by
    rw [Joined, references_run]
    constructor
    · intro h o ho u hu x hx
      exact h x hx u (List.mem_filterMap.mpr ⟨o, ho, hu⟩)
    · intro h x hx u hu
      obtain ⟨o, ho, hu⟩ := List.mem_filterMap.mp hu
      exact h o ho u hu x hx
  rw [hupdates, forall_run_iff, along_iff_split]
  refine forall₂_congr fun pre e => forall₂_congr fun post _ => ?_
  have hwithin := within_run settings slices streamId pre
  have htold := told_step settings slices (e := e) (within_mono (fun _ _ => trivial) hwithin)
    fun _ _ => trivial
  rw [named_iff settings hwithin]
  constructor
  · intro h symbol hstated
    have hmem := Option.mem_toList.mpr hstated
    rw [← htold.updates] at hmem
    obtain ⟨u, hu, rfl⟩ := List.mem_map.mp hmem
    obtain ⟨o, ho, hu⟩ := List.mem_filterMap.mp hu
    exact h o ho u hu
  · intro h o ho u hu
    have hmem := List.mem_map_of_mem (f := (·.symbol)) (List.mem_filterMap.mpr ⟨o, ho, hu⟩)
    rw [← updates, htold.updates] at hmem
    exact h u.symbol (Option.mem_toList.mp hmem)

end

/-- An instrument is listed, and its klines are downloaded. -/
def listedAndDownloaded : List Event :=
  [.exchangeInfoAck [{ symbol := "BTCUSDT" }] fun _ => false, .ready ⟨.two, 0⟩, .restStatus .ready,
    .restTimer 1, .klineAnswer 0 (some [⟨0, some 1, some 1, some 1, some 1, some 1, some 1, 1⟩])]

/-- The download is published under the name of the stream. -/
theorem listedAndDownloaded_apart : ¬ ∀ es : List Event,
    Joined (run (step { download := { timeSeriesLookback := 1 } } (Slices.evenly 40 (by decide))) es
      {}).2 := by
  intro h
  have hreference : "BTCUSDT" ∈ references (run (step { download := { timeSeriesLookback := 1 } }
      (Slices.evenly 40 (by decide))) listedAndDownloaded {}).2 := by decide
  have hupdate : ∃ u ∈ updates (run (step { download := { timeSeriesLookback := 1 } }
      (Slices.evenly 40 (by decide))) listedAndDownloaded {}).2, u.symbol = "btcusdt" := by decide
  obtain ⟨u, hu, hsymbol⟩ := hupdate
  have hsame := h listedAndDownloaded "BTCUSDT" hreference u hu
  rw [hsymbol] at hsame
  revert hsame
  decide

end Market
end BinanceFutures
