import BinanceFutures.Gateway.TimeSeries
import BinanceFutures.Schemes.Settling

/-! # Bars

    A bar changes until its minute is over. The stream says when it is closed; a download does not, and
    has the bar of this minute in it. `Rest` publishes all that it has downloaded as confirmed.

        exchange      open ───── changes ───── closed ══════════════════
                        │                        │              │
        get_kline       ▼ confirmed              ▼ confirmed    │
        kline                                                   ▼ confirmed

    So a bar that is downloaded while it is open is published once more, with other figures. -/

namespace BinanceFutures
open Machine

/-- The figures of a bar. -/
@[ext] structure Candle where
  openPrice : Double
  highPrice : Double
  lowPrice : Double
  closePrice : Double
  baseAmount : Double
  quoteAmount : Double
  numberOfTrades : UInt32
  deriving DecidableEq

def Candle.bar (c : Candle) (beginTime : Nanos) (confirmed : Bool) : Bar where
  beginTimeUtc := beginTime
  confirmed := confirmed
  openPrice := c.openPrice
  highPrice := c.highPrice
  lowPrice := c.lowPrice
  closePrice := c.closePrice
  baseAmount := c.baseAmount
  quoteAmount := c.quoteAmount
  numberOfTrades := c.numberOfTrades

theorem Candle.bar_inj {c c' : Candle} {beginTime beginTime' : Nanos} {confirmed confirmed' : Bool} :
    c.bar beginTime confirmed = c'.bar beginTime' confirmed' ↔
      c = c' ∧ beginTime = beginTime' ∧ confirmed = confirmed' := by
  constructor
  · intro h
    simp only [bar, Bar.mk.injEq] at h
    obtain ⟨hbegin, hconfirmed, hopen, hhigh, hlow, hclose, -, hbase, hquote, htrades, -⟩ := h
    exact ⟨Candle.ext hopen hhigh hlow hclose hbase hquote htrades, hbegin, hconfirmed⟩
  · rintro ⟨rfl, rfl, rfl⟩
    rfl

namespace Json

def KlineAckDataItem.candle (item : KlineAckDataItem) : Candle where
  openPrice := item.openPrice
  highPrice := item.highPrice
  lowPrice := item.lowPrice
  closePrice := item.closePrice
  baseAmount := item.baseAssetVolume
  quoteAmount := item.quoteAssetVolume
  numberOfTrades := item.numberOfTrades

def KlineData.candle (data : KlineData) : Candle where
  openPrice := data.openPrice
  highPrice := data.highPrice
  lowPrice := data.lowPrice
  closePrice := data.closePrice
  baseAmount := data.baseAssetVolume
  quoteAmount := data.quoteAssetVolume
  numberOfTrades := data.numberOfTrades

end Json

namespace Market

open Settling (Reading)

/-- What the exchange says of the bars of an instrument. -/
inductive Report where
  | download (symbol : String) (items : List Json.KlineAckDataItem)
  | increment (kline : Json.Kline)

def Report.symbol : Report → String
  | .download symbol _ => symbol
  | .increment kline => kline.data.symbol

/-- The bars that are published of it. -/
def Report.bars : Report → List Bar
  | .download _ items => items.map toBar
  | .increment kline => [MarketData.toBar kline]

section
variable {τ : Type*} (name : String → String)

/-- The same as readings; `name` tells which symbols are of one instrument. -/
def Report.readings (moment : τ) : Report → List (Reading τ (String × Nanos) Candle)
  | .download symbol items =>
    items.map fun item => ⟨moment, (name symbol, item.beginTime), item.candle, true⟩
  | .increment kline =>
    [⟨moment, (name kline.data.symbol, kline.data.beginTime), kline.data.candle, kline.data.closed⟩]

/-- The bar is in a download, or it is closed. -/
def Report.Closes (key : String × Nanos) : Report → Prop
  | .download symbol items => ∃ item ∈ items, (name symbol, item.beginTime) = key
  | .increment kline => (name kline.data.symbol, kline.data.beginTime) = key ∧ kline.data.closed = true

/-- The bar is open, and the exchange says so. -/
def Report.Opens (key : String × Nanos) : Report → Prop
  | .download _ _ => False
  | .increment kline => (name kline.data.symbol, kline.data.beginTime) = key ∧ kline.data.closed = false

variable [LinearOrder τ] (exchange : Settling τ (String × Nanos) Candle)

/-- The exchange gives the figures of the moment, and calls closed what will not change. -/
def Report.Honest (moment : τ) : Report → Prop
  | .download symbol items =>
    ∀ item ∈ items, exchange.value moment (name symbol, item.beginTime) = item.candle
  | .increment kline =>
    exchange.value moment (name kline.data.symbol, kline.data.beginTime) = kline.data.candle ∧
      (kline.data.closed = true →
        exchange.settled moment (name kline.data.symbol, kline.data.beginTime))

/-- What is downloaded is closed by then. -/
def Report.Settled (moment : τ) : Report → Prop
  | .download symbol items => ∀ item ∈ items, exchange.settled moment (name symbol, item.beginTime)
  | .increment _ => True

end

section
variable (settings : Settings) (slices : Slices)

/-- What the step takes in of the bars of an instrument. -/
def reported (w : World) : Event → Option Report
  | .kline index kline =>
    if index < (w.rows .two).length ∧ (kline.data.closed ∨ settings.timeSeries.realtime) then
      some (.increment kline)
    else none
  | .klineAnswer n (some (item :: items)) =>
    (w.klines.find n).map fun symbol => .download symbol (item :: items)
  | _ => none

/-- What a run takes in; every event has the moment at which the exchange has said it. -/
def received {τ : Type*} : List (τ × Event) → World → List (τ × Report)
  | [], _ => []
  | (moment, e) :: es, w =>
    (reported settings w e).toList.map (fun r => (moment, r))
      ++ received es (step settings slices e w).1

/-- Once a bar has been published as confirmed, every later update of the instrument that has the bar
    has it with the same figures, and confirmed. -/
def Final (name : String → String) (out : List Output) : Prop :=
  (updates out).Pairwise fun u u' => name u'.symbol = name u.symbol →
    ∀ b ∈ u.bars, b.confirmed = true → ∀ b' ∈ u'.bars, b'.beginTimeUtc = b.beginTimeUtc → b' = b

/-! ### What is published -/

/-- The symbol and the bars of an update. -/
def content (u : TimeSeriesUpdate) : String × List Bar := (u.symbol, u.bars)

def Report.content (r : Report) : String × List Bar := (r.symbol, r.bars)

theorem content_klineAnswer (n : ℕ) (answer : Option (List Json.KlineAckDataItem)) (w : World) :
    (updates (getKlineAck settings n answer w).2).map content
      = (reported settings w (.klineAnswer n answer)).toList.map Report.content := by
  cases hfind : w.klines.find n with
  | none => rcases answer with _ | _ | ⟨item, items⟩ <;> simp [getKlineAck, reported, updates, hfind]
  | some symbol =>
    rcases answer with _ | _ | ⟨item, items⟩
    · simp [getKlineAck, reported, updates, hfind]
    · simp [getKlineAck, klineAck, reported, updates, hfind]
    · simp [getKlineAck, klineAck, reported, updates, hfind, Output.update, content, Report.content,
        Report.symbol, Report.bars]

theorem content_kline (index : ℕ) (kline : Json.Kline) (w : World) :
    (updates (onRow .two (Row.member index (MarketData.onKline settings kline)) w).2).map content
      = (reported settings w (.kline index kline)).toList.map Report.content := by
  cases hrow : (w.rows .two)[index]? with
  | none =>
    have habsent : ¬ index < (w.rows .two).length := by
      have hle := List.getElem?_eq_none_iff.mp hrow
      omega
    simp [onRow, Row.member, updates, reported, habsent]
  | some s =>
    obtain ⟨hlt, -⟩ := List.getElem?_eq_some_iff.mp hrow
    cases hclosed : kline.data.closed <;> cases hrealtime : settings.timeSeries.realtime <;>
      simp [onRow, Row.member, updates, reported, hlt, hclosed, hrealtime, MarketData.onKline,
        List.filterMap_cons, Output.update, content, Report.content, Report.symbol, Report.bars]

/-- A step publishes what it takes in. -/
theorem content_step (e : Event) (w : World) :
    (updates (step settings slices e w).2).map content
      = (reported settings w e).toList.map Report.content := by
  have hplain : stated settings w e = none → updates (step settings slices e w).2 = [] := by
    intro hstated
    have hwithin : Within (fun _ => True) w :=
      ⟨fun _ _ => trivial, fun _ _ => trivial, fun _ _ => trivial⟩
    have hnone := (told_step settings slices (e := e) hwithin fun _ _ => trivial).updates
    rw [hstated] at hnone
    exact List.map_eq_nil_iff.mp hnone
  cases e with
  | kline index kline => exact content_kline settings index kline w
  | klineAnswer n answer => exact content_klineAnswer settings n answer w
  | _ =>
    rw [hplain rfl]
    rfl

theorem content_run {τ : Type*} (es : List (τ × Event)) (w : World) :
    (updates (run (step settings slices) (es.map Prod.snd) w).2).map content
      = (received settings slices es w).map fun r => r.2.content := by
  induction es generalizing w with
  | nil => rfl
  | cons e es ih =>
    obtain ⟨moment, e⟩ := e
    rw [List.map_cons, run_cons, seq_snd, updates, List.filterMap_append, List.map_append, received,
      List.map_append]
    refine congrArg₂ (· ++ ·) ?_ (ih _)
    have hstep := content_step settings slices e w
    rw [updates] at hstep
    rw [hstep, List.map_map]
    rfl

/-! ### Readings -/

variable {τ : Type*} (name : String → String)

theorem bars_eq (moment : τ) (r : Report) :
    r.bars = (r.readings name moment).map fun x => x.value.bar x.key.2 x.final := by
  cases r with
  | download symbol items =>
    rw [Report.bars, Report.readings, List.map_map]
    rfl
  | increment kline => rfl

theorem moment_of_mem_readings {moment : τ} {r : Report} {x : Reading τ (String × Nanos) Candle}
    (h : x ∈ r.readings name moment) : x.moment = moment := by
  cases r with
  | download symbol items =>
    obtain ⟨item, -, rfl⟩ := List.mem_map.mp h
    rfl
  | increment kline => rw [List.mem_singleton.mp h]

theorem key_of_mem_readings {moment : τ} {r : Report} {x : Reading τ (String × Nanos) Candle}
    (h : x ∈ r.readings name moment) : x.key.1 = name r.symbol := by
  cases r with
  | download symbol items =>
    obtain ⟨item, -, rfl⟩ := List.mem_map.mp h
    rfl
  | increment kline => rw [List.mem_singleton.mp h]; rfl

/-- Of two updates the second keeps to the first if the readings do. -/
theorem respects_content (moment moment' : τ) (r r' : Report) :
    (name r'.symbol = name r.symbol → ∀ b ∈ r.bars, b.confirmed = true →
        ∀ b' ∈ r'.bars, b'.beginTimeUtc = b.beginTimeUtc → b' = b) ↔
      ∀ x ∈ r.readings name moment, ∀ x' ∈ r'.readings name moment', Settling.Respects x x' := by
  rw [bars_eq name moment r, bars_eq name moment' r']
  constructor
  · intro h x hx x' hx' hfinal hkey
    have hname : name r'.symbol = name r.symbol := by
      rw [← key_of_mem_readings name hx, ← key_of_mem_readings name hx', hkey]
    have hbar := h hname _ (List.mem_map_of_mem hx) hfinal _ (List.mem_map_of_mem hx')
      (congrArg Prod.snd hkey)
    obtain ⟨hvalue, -, hfinal'⟩ := Candle.bar_inj.mp hbar
    exact ⟨hvalue, hfinal'.trans hfinal⟩
  · intro h hname b hb hconfirmed b' hb' hbegin
    obtain ⟨x, hx, rfl⟩ := List.mem_map.mp hb
    obtain ⟨x', hx', rfl⟩ := List.mem_map.mp hb'
    have hkey : x'.key = x.key := by
      refine Prod.ext ?_ hbegin
      rw [key_of_mem_readings name hx, key_of_mem_readings name hx', hname]
    obtain ⟨hvalue, hfinal'⟩ := h x hx x' hx' hconfirmed hkey
    exact Candle.bar_inj.mpr ⟨hvalue, hbegin, hfinal'.trans hconfirmed.symm⟩

/-- What is published is final if what is taken in has the last word. -/
theorem final_iff_lastWord (es : List (τ × Event)) (w : World) :
    Final name (run (step settings slices) (es.map Prod.snd) w).2 ↔
      Settling.LastWord ((received settings slices es w).map fun r => r.2.readings name r.1) := by
  let Keeps : String × List Bar → String × List Bar → Prop := fun c c' => name c'.1 = name c.1 →
    ∀ b ∈ c.2, b.confirmed = true → ∀ b' ∈ c'.2, b'.beginTimeUtc = b.beginTimeUtc → b' = b
  have hout : Final name (run (step settings slices) (es.map Prod.snd) w).2 ↔
      ((received settings slices es w).map fun r => r.2.content).Pairwise Keeps := by
    rw [← content_run, List.pairwise_map]
    rfl
  rw [hout, Settling.LastWord, List.pairwise_map, List.pairwise_map]
  exact List.Pairwise.iff fun (r r' : τ × Report) => respects_content name r.1 r'.1 r.2 r'.2

theorem closes_iff (moment : τ) {r : Report} {key : String × Nanos} :
    r.Closes name key ↔ ∃ x ∈ r.readings name moment, x.key = key ∧ x.final = true := by
  cases r with
  | download symbol items => simp [Report.Closes, Report.readings]
  | increment kline => simp [Report.Closes, Report.readings]

theorem opens_iff (moment : τ) {r : Report} {key : String × Nanos} :
    r.Opens name key ↔ ∃ x ∈ r.readings name moment, x.key = key ∧ x.final = false := by
  cases r with
  | download symbol items => simp [Report.Opens, Report.readings]
  | increment kline => simp [Report.Opens, Report.readings]

/-- The readings are in order unless the second report has a bar open that the first has closed. -/
theorem inOrder_readings (moment moment' : τ) (r r' : Report) :
    (∀ x ∈ r.readings name moment, ∀ x' ∈ r'.readings name moment', Settling.InOrder x x') ↔
      ∀ key, r.Closes name key → ¬ r'.Opens name key := by
  constructor
  · intro h key hcloses hopens
    obtain ⟨x, hx, rfl, hfinal⟩ := (closes_iff name moment).mp hcloses
    obtain ⟨x', hx', hkey, hopen⟩ := (opens_iff name moment').mp hopens
    have hfinal' := h x hx x' hx' hfinal hkey
    rw [hopen] at hfinal'
    cases hfinal'
  · intro h x hx x' hx' hfinal hkey
    by_contra hopen
    refine h x.key ((closes_iff name moment).mpr ⟨x, hx, rfl, hfinal⟩) ?_
    exact (opens_iff name moment').mpr ⟨x', hx', hkey, Bool.eq_false_iff.mpr hopen⟩

theorem realtime_of_reported {e : Event} {w : World} {r : Report} (h : reported settings w e = some r)
    {key : String × Nanos} (hopens : r.Opens name key) : settings.timeSeries.realtime = true := by
  cases e with
  | kline index kline =>
    obtain ⟨⟨-, htaken⟩, hr⟩ := Option.ite_none_right_eq_some.mp h
    obtain rfl := Option.some.inj hr
    exact htaken.resolve_left fun hclosed => by rw [hopens.2] at hclosed; cases hclosed
  | klineAnswer n answer =>
    rcases answer with _ | _ | ⟨item, items⟩
    · cases h
    · cases h
    · obtain ⟨symbol, -, rfl⟩ := Option.map_eq_some_iff.mp h
      exact hopens.elim
  | _ => cases h

/-- Nothing that is open is taken in, unless klines are wanted in real time. -/
theorem realtime_of_opens {es : List (τ × Event)} {w : World} {r : τ × Report}
    (h : r ∈ received settings slices es w) {key : String × Nanos} (hopens : r.2.Opens name key) :
    settings.timeSeries.realtime = true := by
  induction es generalizing w with
  | nil => cases h
  | cons e es ih =>
    rcases List.mem_append.mp h with hfirst | hrest
    · obtain ⟨r', hr', rfl⟩ := List.mem_map.mp hfirst
      exact realtime_of_reported settings name (Option.mem_toList.mp hr') hopens
    · exact ih hrest

/-- BUG: a bar that has been downloaded is not final if it is published again with other figures. -/
theorem not_final_of_download {es : List (τ × Event)} {w : World} {moment moment' : τ}
    {symbol : String} {items : List Json.KlineAckDataItem} {r : Report}
    (h : [(moment, .download symbol items), (moment', r)].Sublist (received settings slices es w))
    {item : Json.KlineAckDataItem} (hitem : item ∈ items)
    {x : Reading τ (String × Nanos) Candle} (hx : x ∈ r.readings name moment')
    (hkey : x.key = (name symbol, item.beginTime)) (hchanged : x.value ≠ item.candle) :
    ¬ Final name (run (step settings slices) (es.map Prod.snd) w).2 := by
  rw [final_iff_lastWord]
  refine Settling.not_lastWord (h.map _) (List.mem_map_of_mem hitem) hx fun hrespects => ?_
  exact hchanged (hrespects rfl hkey).1

variable [LinearOrder τ] {exchange : Settling τ (String × Nanos) Candle}

theorem reads_of_honest {moment : τ} {r : Report} (h : r.Honest name exchange moment)
    {x : Reading τ (String × Nanos) Candle} (hx : x ∈ r.readings name moment) : exchange.Reads x := by
  cases r with
  | download symbol items =>
    obtain ⟨item, hitem, rfl⟩ := List.mem_map.mp hx
    exact h item hitem
  | increment kline =>
    rw [List.mem_singleton.mp hx]
    exact h.1

/-- The readings are steady if the exchange's bars are. -/
theorem steady_readings (moment moment' : τ) (r r' : Report) :
    (∀ x ∈ r.readings name moment, ∀ x' ∈ r'.readings name moment', exchange.Steady x x') ↔
      ∀ key, r.Closes name key → r'.Closes name key →
        exchange.value moment' key = exchange.value moment key := by
  constructor
  · intro h key hcloses hcloses'
    obtain ⟨x, hx, rfl, hfinal⟩ := (closes_iff name moment).mp hcloses
    obtain ⟨x', hx', hkey, hfinal'⟩ := (closes_iff name moment').mp hcloses'
    have hvalue := h x hx x' hx' hfinal hfinal' hkey
    rwa [moment_of_mem_readings name hx, moment_of_mem_readings name hx'] at hvalue
  · intro h x hx x' hx' hfinal hfinal' hkey
    rw [moment_of_mem_readings name hx, moment_of_mem_readings name hx']
    exact h x.key ((closes_iff name moment).mpr ⟨x, hx, rfl, hfinal⟩)
      ((closes_iff name moment').mpr ⟨x', hx', hkey, hfinal'⟩)

theorem sound_of_settled {moment : τ} {r : Report} (h : r.Honest name exchange moment)
    (hsettled : r.Settled name exchange moment) {x : Reading τ (String × Nanos) Candle}
    (hx : x ∈ r.readings name moment) : exchange.Sound x := by
  cases r with
  | download symbol items =>
    obtain ⟨item, hitem, rfl⟩ := List.mem_map.mp hx
    exact fun _ => hsettled item hitem
  | increment kline =>
    rw [List.mem_singleton.mp hx]
    exact h.2

/-- Where all that is downloaded is closed by then, the exchange's bars are steady. -/
theorem steady_of_settled {reports : List (τ × Report)} (h : ∀ r ∈ reports, r.2.Honest name exchange r.1)
    (hsettled : ∀ r ∈ reports, r.2.Settled name exchange r.1) :
    reports.Pairwise fun r r' => ∀ key, r.2.Closes name key → r'.2.Closes name key →
      exchange.value r'.1 key = exchange.value r.1 key := by
  refine List.pairwise_of_forall_mem_list fun r hr r' hr' => ?_
  rw [← steady_readings]
  exact fun _ hx _ hx' => Settling.steady_of_sound (sound_of_settled name (h r hr) (hsettled r hr) hx)
    (sound_of_settled name (h r' hr') (hsettled r' hr') hx')

/-- EXACT: what has been published as confirmed is final if and only if the exchange has not changed a bar
    between two moments at which it is downloaded or received as closed, and, in real time, no kline says
    that a bar is open after the bar has been downloaded or received as closed. -/
theorem final_iff (es : List (τ × Event)) (streamId : UInt16)
    (hhonest : ∀ r ∈ received settings slices es { streamId }, r.2.Honest name exchange r.1) :
    Final name (run (step settings slices) (es.map Prod.snd) { streamId }).2 ↔
      ((received settings slices es { streamId }).Pairwise fun r r' =>
        ∀ key, r.2.Closes name key → r'.2.Closes name key →
          exchange.value r'.1 key = exchange.value r.1 key) ∧
      (settings.timeSeries.realtime = true →
        (received settings slices es { streamId }).Pairwise fun r r' =>
          ∀ key, r.2.Closes name key → ¬ r'.2.Opens name key) := by
  have hreads : ∀ xs ∈ (received settings slices es { streamId }).map (fun r => r.2.readings name r.1),
      ∀ x ∈ xs, exchange.Reads x := by
    intro xs hxs x hx
    obtain ⟨r, hr, rfl⟩ := List.mem_map.mp hxs
    exact reads_of_honest name (hhonest r hr) hx
  rw [final_iff_lastWord, Settling.lastWord_iff hreads, List.pairwise_map, List.pairwise_map, and_comm]
  refine and_congr ?_ ?_
  · exact List.Pairwise.iff fun (r r' : τ × Report) => steady_readings name r.1 r'.1 r.2 r'.2
  · have horder := List.Pairwise.iff (l := received settings slices es { streamId })
      fun (r r' : τ × Report) => inOrder_readings name r.1 r'.1 r.2 r'.2
    refine horder.trans ⟨fun h _ => h, fun h => ?_⟩
    by_cases hrealtime : settings.timeSeries.realtime = true
    · exact h hrealtime
    · -- no kline is open
      refine List.pairwise_of_forall_mem_list fun r _ r' hr' key _ hopens => ?_
      exact hrealtime (realtime_of_opens settings slices name hr' hopens)

end

/-- The figures of a bar that is open, and of the bar when it is closed. -/
def young : Candle := ⟨some 1, some 1, some 1, some 1, some 1, some 1, 1⟩

def old : Candle := ⟨some 1, some 2, some 1, some 2, some 3, some 4, 2⟩

/-- The bars are closed from moment 2 on. -/
def closing : Settling ℕ (String × Nanos) Candle where
  value moment _ := if moment < 2 then young else old
  settled moment _ := 2 ≤ moment
  value_eq := by
    intro t t' _ hle hsettled
    rw [if_neg (by omega), if_neg (by omega)]

/-- The bar is downloaded at the moment, and then received as it was closed. -/
def downloaded (moment : ℕ) : List (ℕ × Event) :=
  let c := closing.value moment ("BTCUSDT", 0)
  [(0, .subscribe ["BTCUSDT"]), (0, .ready ⟨.two, 0⟩), (0, .restStatus .ready), (0, .restTimer 1),
    (moment, .klineAnswer 0 (some [⟨0, c.openPrice, c.highPrice, c.lowPrice, c.closePrice,
      c.baseAmount, c.quoteAmount, c.numberOfTrades⟩])),
    (2, .kline 0 ⟨2, 0, "BTCUSDT", some 1, some 2, some 2, some 1, some 3, 2, true, some 4⟩)]

theorem received_downloaded (moment : ℕ) : ∃ item : Json.KlineAckDataItem, ∃ kline : Json.Kline,
    received { download := { timeSeriesLookback := 1 } } (Slices.evenly 40 (by decide))
      (downloaded moment) {} = [(moment, .download "BTCUSDT" [item]), (2, .increment kline)] ∧
    item.beginTime = 0 ∧ item.candle = closing.value moment ("BTCUSDT", 0) ∧
    kline.data.symbol = "BTCUSDT" ∧ kline.data.beginTime = 0 ∧ kline.data.candle = old :=
  ⟨_, _, rfl, rfl, rfl, rfl, rfl, rfl⟩

theorem honest_downloaded (moment : ℕ) :
    ∀ r ∈ received { download := { timeSeriesLookback := 1 } } (Slices.evenly 40 (by decide))
      (downloaded moment) {}, r.2.Honest id closing r.1 := by
  obtain ⟨item, kline, hreceived, -, hcandle, -, -, hclosed⟩ := received_downloaded moment
  rw [hreceived]
  simp [Report.Honest, closing, hcandle, hclosed]

/-- The bar is still open at moment 1. -/
theorem downloaded_open :
    (∀ r ∈ received { download := { timeSeriesLookback := 1 } } (Slices.evenly 40 (by decide))
      (downloaded 1) {}, r.2.Honest id closing r.1) ∧
    ¬ Final id (run (step { download := { timeSeriesLookback := 1 } } (Slices.evenly 40 (by decide)))
      ((downloaded 1).map Prod.snd) {}).2 := by
  refine ⟨honest_downloaded 1, ?_⟩
  obtain ⟨item, kline, hreceived, hitem, hcandle, hsymbol, hbegin, hclosed⟩ := received_downloaded 1
  have hsublist : [((1 : ℕ), Report.download "BTCUSDT" [item]), (2, .increment kline)].Sublist
      (received { download := { timeSeriesLookback := 1 } } (Slices.evenly 40 (by decide))
        (downloaded 1) {}) := by rw [hreceived]
  refine not_final_of_download _ _ id hsublist (List.mem_singleton_self _) (List.mem_singleton_self _)
    ?_ ?_
  · simp [hsymbol, hbegin, hitem]
  · simp only [hclosed, hcandle]
    decide

/-- At moment 2 it is closed. -/
theorem downloaded_closed :
    Final id (run (step { download := { timeSeriesLookback := 1 } } (Slices.evenly 40 (by decide)))
      ((downloaded 2).map Prod.snd) {}).2 := by
  have hsettled : ∀ r ∈ received { download := { timeSeriesLookback := 1 } }
      (Slices.evenly 40 (by decide)) (downloaded 2) {}, r.2.Settled id closing r.1 := by
    obtain ⟨item, kline, hreceived, -⟩ := received_downloaded 2
    rw [hreceived]
    simp [Report.Settled, closing]
  refine (final_iff _ _ id _ 0 (honest_downloaded 2)).mpr
    ⟨steady_of_settled id (honest_downloaded 2) hsettled, fun hrealtime => ?_⟩
  cases hrealtime

end Market
end BinanceFutures
