import BinanceFutures.Gateway.Subscriptions

/-! # Assets

    Some channels are not tied to the slice of a connection: those of the asset indices, and the channel
    of all forced orders. The first `MarketData2` has them all, and queues them from three places.

        announced    the new assets, also when it is not ready; nobody hears of them when it is not there
        ready        all assets that it holds, and the forced orders
        subscribe    the forced orders once more, whenever its slice gains a symbol

    What is queued while it is not ready goes out when it is, unless the connection is lost before. -/

namespace BinanceFutures
open Machine

namespace MarketData

/-- The connection is lost, and its queue with it. -/
def Output.lost : Output → Bool
  | .streamStatus .disconnected => true
  | _ => false

/-- What has been put out since the connection was lost last. -/
def connected (out : List Output) : List Output := Trace.since Output.lost out

/-- How often the channel of all forced orders is queued. -/
def orders (out : List Output) : ℕ := out.countP fun
  | .queued s => s.channel = .forceOrder
  | _ => false

/-- How often it should be. -/
def orderCount (settings : Settings) : ℕ := if settings.misc.subscribeForceOrder then 1 else 0

theorem orders_append (out out' : List Output) : orders (out ++ out') = orders out + orders out' :=
  List.countP_append

@[simp] theorem orders_nil : orders [] = 0 := rfl

@[simp] theorem orders_enqueue (names : List String) (c : Channel) (s : MarketData) :
    orders (enqueue names c s).2 = if c = .forceOrder then 1 else 0 := by
  simp [orders, enqueue, List.countP_singleton]

theorem orders_enqueueAll (names : List String) : ∀ {cs : List Channel}, .forceOrder ∉ cs →
    ∀ s, orders (seqAll (cs.map (enqueue names)) s).2 = 0
  | [], _, _ => rfl
  | c :: cs, h, s => by
      rw [List.mem_cons, not_or] at h
      rw [List.map_cons, seqAll, seq_snd, orders_append, orders_enqueue, if_neg (Ne.symm h.1),
        orders_enqueueAll names h.2]

section
variable (settings : Settings) (slices : Slices)

theorem forceOrder_notMem (kind : Kind) : .forceOrder ∉ kind.channels settings := by
  cases kind <;> simp [Kind.channels, channels, channels2]

theorem assetIndex_notMem (kind : Kind) : .assetIndex ∉ kind.channels settings := by
  cases kind <;> simp [Kind.channels, channels, channels2]

theorem orders_extra (symbols : List String) (s : MarketData) :
    orders (extra settings symbols s).2 = if s.index = 0 then orderCount settings else 0 := by
  have hrequests : orders (symbols.map .timeSeriesRequest) = 0 := by
    rw [orders, List.countP_eq_zero]
    intro o ho
    obtain ⟨symbol, -, rfl⟩ := List.mem_map.mp ho
    simp
  rw [extra, seq_snd, orders_append]
  have hfirst : ∀ b : Bool, orders ((if b then emit (symbols.map .timeSeriesRequest) else skip : Act) s).2
      = 0 ∧ ((if b then emit (symbols.map .timeSeriesRequest) else skip : Act) s).1 = s := by
    intro b
    cases b with
    | false => exact ⟨rfl, rfl⟩
    | true => exact ⟨hrequests, rfl⟩
  obtain ⟨hnone, hsame⟩ := hfirst (settings.download.timeSeriesLookback ≠ 0)
  simp only [decide_eq_true_eq] at hnone hsame
  rw [hnone, hsame, Nat.zero_add, guarded, orderCount]
  by_cases hindex : s.index = 0 <;> by_cases hon : settings.misc.subscribeForceOrder <;>
    simp [hindex, hon]

theorem orders_subscribe (symbols : List String) (s : MarketData) :
    orders (subscribe settings .two symbols s).2
      = if symbols ≠ [] ∧ s.index = 0 then orderCount settings else 0 := by
  unfold subscribe
  split
  next hnil => simp [hnil]
  next hsome =>
    have hchannels : Quiet (seqAll ((Kind.two.channels settings).map (enqueue symbols))) := by
      refine quiet_seqAll fun f hf => ?_
      obtain ⟨channel, -, rfl⟩ := List.mem_map.mp hf
      exact quiet_enqueue symbols channel
    rw [seq_snd, orders_append, orders_enqueueAll symbols (forceOrder_notMem settings .two),
      orders_extra, index_quiet hchannels]
    simp [hsome]

/-! ### What is kept -/

/-- The connection holds every asset that has been announced. If it is ready, each has been queued once
    since it was lost last, and so have the forced orders; if it is not, its queue holds what has been
    announced since. -/
structure Kept (symbols announced : List String) (out : List Output) (s : MarketData) : Prop where
  index : s.index = 0
  sliced : 0 < slices.count symbols.length
  held : s.assets = announced.map toLower
  nodup : s.assets.Nodup
  once : s.ready →
    named .assetIndex (connected out) = s.assets ∧ orders (connected out) = orderCount settings
  idle : ¬ s.ready → orders (connected out) = 0 ∧
    (s.subscribeQueue = [] → named .assetIndex (connected out) = []) ∧
    (s.subscribeQueue ≠ [] → ∃ asset ∈ s.assets, asset ∈ named .assetIndex (connected out))

variable {settings slices} {symbols announced : List String} {out : List Output} {s : MarketData}

theorem connected_quiet {f : Act} (hf : Quiet f) (out : List Output) (s : MarketData) :
    connected (out ++ (f s).2) = connected out ++ (f s).2 := by
  refine Trace.since_append fun o ho => ?_
  have hturns := hf.2 s o ho
  cases o with
  | streamStatus status => exact absurd rfl hturns
  | _ => rfl

theorem assets_quiet {f : Act} (hf : Quiet f) (s : MarketData) : (f s).1.assets = s.assets :=
  congrArg (fun p : ConnectionStatus × ℕ × List String => p.2.2) (hf.1 s)

/-- An action that queues neither assets nor forced orders. -/
theorem kept_quiet {f : Act} (hf : Quiet f) (hnamed : named .assetIndex (f s).2 = [])
    (horders : orders (f s).2 = 0)
    (hqueue : ¬ s.ready → (f s).1.subscribeQueue = s.subscribeQueue)
    (h : Kept settings slices symbols announced out s) :
    Kept settings slices symbols announced (out ++ (f s).2) (f s).1 where
  index := (index_quiet hf s).trans h.index
  sliced := h.sliced
  held := (assets_quiet hf s).trans h.held
  nodup := (assets_quiet hf s).symm ▸ h.nodup
  once hready := by
    rw [ready_quiet hf] at hready
    rw [connected_quiet hf, named_append, hnamed, List.append_nil, orders_append, horders,
      Nat.add_zero, assets_quiet hf]
    exact h.once hready
  idle hready := by
    rw [ready_quiet hf] at hready
    rw [connected_quiet hf, named_append, hnamed, List.append_nil, orders_append, horders,
      Nat.add_zero, assets_quiet hf, hqueue hready]
    exact h.idle hready

theorem named_subscribeFrom_asset (symbols : List String) (startFrom : ℕ) (s : MarketData) :
    named .assetIndex (subscribeFrom settings slices .two symbols startFrom s).2 = [] := by
  unfold subscribeFrom
  split
  · rw [named_subscribe, if_neg (assetIndex_notMem settings .two)]
  · rfl

theorem orders_subscribeFrom (symbols : List String) (startFrom : ℕ) (s : MarketData) :
    orders (subscribeFrom settings slices .two symbols startFrom s).2
      = if s.ready ∧ slices.slice s.index startFrom symbols ≠ [] ∧ s.index = 0
        then orderCount settings else 0 := by
  unfold subscribeFrom
  by_cases hready : s.ready = true
  · simp [hready, orders_subscribe]
  · simp [hready]

theorem kept_create (streamId : UInt16) (hsliced : 0 < slices.count symbols.length) :
    Kept settings slices symbols [] [.start] (create streamId 0) where
  index := rfl
  sliced := hsliced
  held := rfl
  nodup := List.nodup_nil
  once hready := by simp [create, ready] at hready
  idle _ := ⟨rfl, fun _ => rfl, fun hqueue => absurd rfl hqueue⟩

/-- Symbols that become known, if they do not have the forced orders queued once more. -/
theorem kept_subscribeFrom (new : List String)
    (hcalm : s.ready → settings.misc.subscribeForceOrder →
      slices.slice 0 symbols.length (symbols ++ new) = [])
    (h : Kept settings slices symbols announced out s) :
    Kept settings slices (symbols ++ new) announced
      (out ++ (subscribeFrom settings slices .two (symbols ++ new) symbols.length s).2)
      (subscribeFrom settings slices .two (symbols ++ new) symbols.length s).1 := by
  have hcount : slices.count symbols.length ≤ slices.count (symbols ++ new).length :=
    slices.count_mono (by rw [List.length_append]; omega)
  have hgrown : Kept settings slices (symbols ++ new) announced out s :=
    { h with sliced := Nat.lt_of_lt_of_le h.sliced hcount }
  refine kept_quiet (quiet_subscribeFrom settings slices .two _ _) (named_subscribeFrom_asset _ _ s)
    ?_ (fun hready => by rw [subscribeFrom, if_neg hready]) hgrown
  rw [orders_subscribeFrom, h.index]
  split
  next hcond =>
    by_cases hon : settings.misc.subscribeForceOrder = true
    · exact absurd (hcalm hcond.1 hon) hcond.2.1
    · simp [orderCount, hon]
  next => rfl

theorem orders_onTimer (n : ℕ) (s : MarketData) : orders (onTimer n s).2 = 0 :=
  List.countP_eq_zero.mpr (silent_onTimer (by simp) n s)

theorem kept_onTimer (n : ℕ) (h : Kept settings slices symbols announced out s) :
    Kept settings slices symbols announced (out ++ (onTimer n s).2) (onTimer n s).1 := by
  refine kept_quiet (quiet_onTimer n) (named_onTimer _ n s) (orders_onTimer n s) (fun hready => ?_) h
  rw [onTimer, guarded, if_neg hready]

theorem kept_onKline (kline : Json.Kline) (h : Kept settings slices symbols announced out s) :
    Kept settings slices symbols announced (out ++ (onKline settings kline s).2)
      (onKline settings kline s).1 := by
  refine kept_quiet (quiet_onKline settings kline) (named_onKline settings _ kline s) ?_
    (fun _ => rfl) h
  unfold onKline
  split <;> rfl

theorem kept_onDisconnected (h : Kept settings slices symbols announced out s) :
    Kept settings slices symbols announced (out ++ (onDisconnected s).2) (onDisconnected s).1 := by
  have hsince : connected (out ++ (onDisconnected s).2) = [] := Trace.since_mark rfl
  exact {
    h with
    once := fun hready => by simp [onDisconnected, status, ready] at hready
    idle := fun _ => by
      rw [hsince]
      exact ⟨rfl, fun _ => rfl, fun hqueue => absurd rfl hqueue⟩ }

theorem connected_announce (new : List String) (out : List Output) (s : MarketData) :
    connected (out ++ (announce new s).2) = connected out ++ (announce new s).2 := by
  refine Trace.since_append fun o ho => ?_
  rw [List.mem_singleton.mp ho]
  rfl

theorem named_announce (new : List String) (s : MarketData) :
    named .assetIndex (announce new s).2 = new.map toLower := by
  rw [announce, seq_snd, modify_apply, List.nil_append, named_enqueue, if_pos rfl]

theorem orders_announce (new : List String) (s : MarketData) : orders (announce new s).2 = 0 := by
  rw [announce, seq_snd, modify_apply, List.nil_append, orders_enqueue, if_neg (by simp)]

/-- An announcement, of assets that differ from those announced before. -/
theorem kept_announce {new : List String} (hnew : new ≠ [])
    (hnodup : ((announced ++ new).map toLower).Nodup)
    (h : Kept settings slices symbols announced out s) :
    Kept settings slices symbols (announced ++ new) (out ++ (announce new s).2)
      (announce new s).1 := by
  have hheld : (announce new s).1.assets = (announced ++ new).map toLower := by
    rw [List.map_append, ← h.held]
    rfl
  refine ⟨h.index, h.sliced, hheld, hheld ▸ hnodup, fun hready => ?_, fun hready => ?_⟩
  · obtain ⟨hnamed, horders⟩ := h.once hready
    rw [connected_announce, named_append, named_announce, orders_append, orders_announce, hnamed,
      horders]
    exact ⟨rfl, rfl⟩
  · obtain ⟨asset, rest, rfl⟩ := List.exists_cons_of_ne_nil hnew
    rw [connected_announce, named_append, named_announce, orders_append, orders_announce,
      (h.idle hready).1]
    refine ⟨rfl, fun hqueue => ?_, fun _ => ⟨toLower asset, ?_, by simp⟩⟩
    · simp [announce, enqueue] at hqueue
    · simp [announce, enqueue]

/-- All assets that the connection holds. -/
def queueAssets : Act := guarded (·.assets ≠ []) fun s => enqueue s.assets .assetIndex s

theorem quiet_queueAssets : Quiet queueAssets :=
  quiet_guarded _ ⟨fun s => (quiet_enqueue s.assets _).1 s, fun s => (quiet_enqueue s.assets _).2 s⟩

theorem named_queueAssets (s : MarketData) : named .assetIndex (queueAssets s).2 = s.assets := by
  unfold queueAssets guarded
  split
  · rw [named_enqueue, if_pos rfl]
  next hnil =>
    have hassets : s.assets = [] := by simpa using hnil
    rw [hassets]
    rfl

theorem orders_queueAssets (s : MarketData) : orders (queueAssets s).2 = 0 := by
  unfold queueAssets guarded
  split
  · rw [orders_enqueue, if_neg (by simp)]
  · rfl

/-- The connection becomes ready: it queues all assets that it holds, and the forced orders. -/
theorem onReady_spec (settings : Settings) (symbols : List String) (out : List Output)
    (hindex : s.index = 0) (hsliced : 0 < slices.count symbols.length) :
    (onReady settings slices .two symbols s).1.ready = true ∧
    (onReady settings slices .two symbols s).1.index = s.index ∧
    (onReady settings slices .two symbols s).1.assets = s.assets ∧
    connected (out ++ (onReady settings slices .two symbols s).2)
      = connected out ++ (onReady settings slices .two symbols s).2 ∧
    named .assetIndex (onReady settings slices .two symbols s).2 = s.assets ∧
    orders (onReady settings slices .two symbols s).2 = orderCount settings := by
  let first : MarketData := { s with connectionStatus := .ready }
  have hsubscribe := quiet_subscribeFrom settings slices .two symbols 0
  have hrest : Quiet (seq (subscribeFrom settings slices .two symbols 0) (seq queueAssets skip)) :=
    quiet_seq hsubscribe (quiet_seq quiet_queueAssets quiet_skip)
  have hassets := assets_quiet hsubscribe first
  have hslice : slices.slice first.index 0 symbols ≠ [] := by
    rw [show first.index = 0 from hindex]
    exact slices.slice_ne_nil hsliced
  refine ⟨(ready_quiet hrest first).trans rfl, index_quiet hrest first, assets_quiet hrest first,
    ?_, ?_, ?_⟩
  · refine Trace.since_append fun o ho => ?_
    rcases List.mem_cons.mp ho with rfl | hlater
    · rfl
    · have hturns := hrest.2 first o hlater
      cases o with
      | streamStatus status => exact absurd rfl hturns
      | _ => rfl
  · have hnamed : named .assetIndex ((subscribeFrom settings slices .two symbols 0 first).2
        ++ ((queueAssets (subscribeFrom settings slices .two symbols 0 first).1).2 ++ [])) = s.assets := by
      rw [named_append, named_append, named_subscribeFrom_asset, named_queueAssets, named_nil,
        List.nil_append, List.append_nil, hassets]
    exact hnamed
  · have horders : orders ((subscribeFrom settings slices .two symbols 0 first).2
        ++ ((queueAssets (subscribeFrom settings slices .two symbols 0 first).1).2 ++ []))
          = orderCount settings := by
      rw [orders_append, orders_append, orders_subscribeFrom, orders_queueAssets, orders_nil]
      exact if_pos ⟨rfl, hslice, hindex⟩
    exact horders

/-- The connection becomes ready, with nothing queued that would be queued again. -/
theorem kept_onReady (hready : s.ready → s.assets = [] ∧ ¬ settings.misc.subscribeForceOrder)
    (hidle : ¬ s.ready → s.subscribeQueue = [])
    (h : Kept settings slices symbols announced out s) :
    Kept settings slices symbols announced (out ++ (onReady settings slices .two symbols s).2)
      (onReady settings slices .two symbols s).1 := by
  obtain ⟨hnow, hindex, hassets, hsince, hnamed, horders⟩ :=
    onReady_spec settings symbols out h.index h.sliced
  have hbefore : named .assetIndex (connected out) = [] ∧ orders (connected out) = 0 := by
    by_cases hs : s.ready = true
    · obtain ⟨hnamed', horders'⟩ := h.once hs
      obtain ⟨hnil, hoff⟩ := hready hs
      exact ⟨hnamed'.trans hnil, horders'.trans (if_neg hoff)⟩
    · exact ⟨(h.idle hs).2.1 (hidle hs), (h.idle hs).1⟩
  refine ⟨hindex.trans h.index, h.sliced, hassets.trans h.held, hassets ▸ h.nodup, fun _ => ?_,
    fun hnot => absurd hnow hnot⟩
  rw [hsince, named_append, orders_append, hbefore.1, hbefore.2, hnamed, horders, hassets]
  exact ⟨rfl, Nat.zero_add _⟩

/-! ### What is queued twice -/

/-- A slice that grows while the connection is ready has the forced orders queued once more. -/
theorem orders_twice (new : List String) (hready : s.ready = true)
    (hon : settings.misc.subscribeForceOrder)
    (hslice : slices.slice 0 symbols.length (symbols ++ new) ≠ [])
    (h : Kept settings slices symbols announced out s) :
    orders (connected
      (out ++ (subscribeFrom settings slices .two (symbols ++ new) symbols.length s).2)) = 2 := by
  rw [connected_quiet (quiet_subscribeFrom settings slices .two _ _), orders_append,
    (h.once hready).2, orders_subscribeFrom, h.index, if_pos ⟨hready, hslice, rfl⟩]
  simp [orderCount, hon]

/-- Becoming ready with something queued queues it once more. -/
theorem onReady_twice
    (hbad : ¬ ((s.ready → s.assets = [] ∧ ¬ settings.misc.subscribeForceOrder) ∧
      (¬ s.ready → s.subscribeQueue = [])))
    (h : Kept settings slices symbols announced out s) :
    (∃ asset ∈ s.assets, 1 < (named .assetIndex
      (connected (out ++ (onReady settings slices .two symbols s).2))).count asset) ∨
    settings.misc.subscribeForceOrder ∧
      1 < orders (connected (out ++ (onReady settings slices .two symbols s).2)) := by
  obtain ⟨-, -, -, hsince, hnamed, horders⟩ := onReady_spec settings symbols out h.index h.sliced
  rw [hsince, named_append, orders_append, hnamed, horders]
  have hpos : ∀ asset ∈ s.assets, 0 < s.assets.count asset := fun _ => List.count_pos_iff.mpr
  by_cases hready : s.ready = true
  · obtain ⟨hnamed', horders'⟩ := h.once hready
    rw [hnamed', horders']
    by_cases hassets : s.assets = []
    · right
      have hon : settings.misc.subscribeForceOrder = true := by
        by_contra hoff
        exact hbad ⟨fun _ => ⟨hassets, hoff⟩, fun hnot => absurd hready hnot⟩
      exact ⟨hon, by simp [orderCount, hon]⟩
    · left
      obtain ⟨asset, hasset⟩ := List.exists_mem_of_ne_nil _ hassets
      have hcount := hpos asset hasset
      exact ⟨asset, hasset, by rw [List.count_append]; omega⟩
  · left
    have hqueue : s.subscribeQueue ≠ [] := by
      intro hnil
      exact hbad ⟨fun hyes => absurd hyes hready, fun _ => hnil⟩
    obtain ⟨asset, hasset, hmem⟩ := (h.idle hready).2.2 hqueue
    have hcount := hpos asset hasset
    have hbefore := List.count_pos_iff.mpr hmem
    exact ⟨asset, hasset, by rw [List.count_append]; omega⟩

end

end MarketData

namespace Market
open MarketData (named connected orders Kept)

/-- The connection that has the channels of the assets. -/
def first : Key := ⟨.two, 0⟩

section
variable (settings : Settings) (slices : Slices)

/-- No announced asset is lost: the first connection holds each. In its session each has been queued
    once, and so have the forced orders if they are wanted. -/
structure AssetsQueued (out : List Output) (w : World) : Prop where
  held : ∀ asset ∈ w.assets, ∃ s, view first w = some s ∧ s.assets.count (toLower asset) = 1
  queued : ∀ s, view first w = some s → s.ready → ∀ asset ∈ w.assets,
    (named .assetIndex (connected (out.filterMap (ofKey first)))).count (toLower asset) = 1
  ordered : ∀ s, view first w = some s → s.ready → settings.misc.subscribeForceOrder →
    orders (connected (out.filterMap (ofKey first))) = 1

/-- The condition on a step. Assets are announced when the first connection is there, and differ in more
    than case. It becomes ready when nothing is queued. Its slice does not grow while it is ready, if
    forced orders are wanted. -/
def Orderly (w : World) (e : Event) : Prop :=
  match e with
  | .exchangeInfoAck _ _ | .subscribe _ => ∀ s, view first w = some s → s.ready →
    settings.misc.subscribeForceOrder →
      slices.slice 0 w.symbols.length (w.symbols ++ fresh w e) = []
  | .assetIndexAck _ => announced w e ≠ [] →
    (view first w).isSome ∧ ((w.assets ++ announced w e).map toLower).Nodup
  | .ready key => key = first → ∀ s, view first w = some s →
    (s.ready → s.assets = [] ∧ ¬ settings.misc.subscribeForceOrder) ∧
    (¬ s.ready → s.subscribeQueue = [])
  | _ => True

/-- What the first connection keeps, or that nothing has been announced while it is not there. -/
def Good (symbols announced : List String) (out : List MarketData.Output) :
    Option MarketData → Prop
  | none => out = [] ∧ announced = []
  | some s => Kept settings slices symbols announced out s

theorem good_grow (streamId : UInt16) {symbols announced new : List String}
    {out : List MarketData.Output} {t : Option MarketData}
    (hcalm : ∀ s, t = some s → s.ready → settings.misc.subscribeForceOrder →
      slices.slice 0 symbols.length (symbols ++ new) = [])
    (h : Good settings slices symbols announced out t) :
    Good settings slices (symbols ++ new) announced
      (out ++ (grow settings slices first streamId symbols new t).2)
      (grow settings slices first streamId symbols new t).1 := by
  cases t with
  | some s => exact MarketData.kept_subscribeFrom new (hcalm s rfl) h
  | none =>
    obtain ⟨rfl, rfl⟩ := h
    by_cases hreaches : Reaches settings (slices.count (symbols ++ new).length) first
    · -- it is created, and not ready
      have hgrow : grow settings slices first streamId symbols new none
          = (some (MarketData.create streamId 0), [.start]) := by
        rw [grow, decide_eq_true hreaches]
        rfl
      rw [hgrow]
      exact MarketData.kept_create streamId hreaches.1
    · simp only [grow, decide_eq_false hreaches, appear_false]
      exact ⟨rfl, rfl⟩

/-- Nothing is new, and the connection reacts, if it is there. -/
theorem good_lift {symbols announced : List String} {out : List MarketData.Output}
    {t : Option MarketData} (h : Good settings slices symbols announced out t) {p : Prop} [Decidable p]
    {f : MarketData.Act}
    (hf : p → ∀ s, t = some s → Kept settings slices symbols announced out s →
      Kept settings slices symbols announced (out ++ (f s).2) (f s).1) :
    Good settings slices symbols announced
      (out ++ ((if p then lift f else skip : Action _ _) t).2)
      ((if p then lift f else skip : Action _ _) t).1 := by
  split
  next hp =>
    cases t with
    | none => simpa [lift] using h
    | some s => exact hf hp s rfl h
  next =>
    rw [skip_apply, List.append_nil]
    exact h

theorem good_turn (streamId : UInt16) {w : World} {e : Event} {out : List MarketData.Output}
    (he : Orderly settings slices w e)
    (h : Good settings slices w.symbols w.assets out (view first w)) :
    Good settings slices (w.symbols ++ fresh w e) (w.assets ++ announced w e)
      (out ++ (turn settings slices first streamId w e (view first w)).2)
      (turn settings slices first streamId w e (view first w)).1 := by
  have hskip : fresh w e = [] → announced w e = [] →
      Good settings slices (w.symbols ++ fresh w e) (w.assets ++ announced w e)
        (out ++ ((skip : Action _ MarketData.Output) (view first w)).2) (view first w) := by
    intro hfresh hannounced
    rw [hfresh, hannounced, List.append_nil, List.append_nil, skip_apply, List.append_nil]
    exact h
  cases e with
  | exchangeInfoAck items discard =>
    rw [turn]
    split
    next hnil => exact hskip hnil (announced_none rfl)
    next =>
      rw [announced_none rfl, List.append_nil]
      exact good_grow settings slices streamId he h
  | subscribe symbols =>
    rw [announced_none rfl, List.append_nil]
    exact good_grow settings slices streamId he h
  | assetIndexAck symbols =>
    rw [turn]
    split
    next hnew =>
      obtain ⟨hsome, hnodup⟩ := he hnew.2
      obtain ⟨s, hview⟩ := Option.isSome_iff_exists.mp hsome
      rw [hview] at h ⊢
      rw [fresh_none rfl, List.append_nil]
      exact MarketData.kept_announce hnew.2 hnodup h
    next hnone =>
      have hnil : announced w (.assetIndexAck symbols) = [] := by
        by_contra hne
        exact hnone ⟨rfl, hne⟩
      exact hskip (fresh_none rfl) hnil
  | ready key' =>
    rw [fresh_none rfl, announced_none rfl, List.append_nil, List.append_nil]
    exact good_lift settings slices h fun heq s hview hkept =>
      MarketData.kept_onReady (he heq s hview).1 (he heq s hview).2 hkept
  | disconnected key' =>
    rw [fresh_none rfl, announced_none rfl, List.append_nil, List.append_nil]
    exact good_lift settings slices h fun _ s _ hkept => MarketData.kept_onDisconnected hkept
  | timer key' n =>
    rw [fresh_none rfl, announced_none rfl, List.append_nil, List.append_nil]
    exact good_lift settings slices h fun _ s _ hkept => MarketData.kept_onTimer n hkept
  | kline index kline =>
    rw [fresh_none rfl, announced_none rfl, List.append_nil, List.append_nil]
    exact good_lift settings slices h fun _ s _ hkept => MarketData.kept_onKline kline hkept
  | restStatus | restTimer | klineAnswer => exact hskip (fresh_none rfl) (announced_none rfl)

/-- A step that meets the condition keeps what is kept. -/
theorem good_step {w : World} {e : Event} {out : List Output} (he : Orderly settings slices w e)
    (h : Good settings slices w.symbols w.assets (out.filterMap (ofKey first)) (view first w)) :
    Good settings slices (step settings slices e w).1.symbols (step settings slices e w).1.assets
      ((out ++ (step settings slices e w).2).filterMap (ofKey first))
      (view first (step settings slices e w).1) := by
  obtain ⟨-, hsymbols, hassets⟩ := known_step settings slices e w
  obtain ⟨streamId, hstate, hout⟩ := shows_step settings slices first e w
  rw [hsymbols, hassets, List.filterMap_append, hstate, hout]
  exact good_turn settings slices streamId he h

/-- What is kept is what is wanted. -/
theorem assetsQueued_of_good {w : World} {out : List Output}
    (h : Good settings slices w.symbols w.assets (out.filterMap (ofKey first)) (view first w)) :
    AssetsQueued settings out w := by
  cases hview : view first w with
  | none =>
    rw [hview] at h
    have hassets : w.assets = [] := h.2
    exact ⟨by simp [hassets], by simp [hview], by simp [hview]⟩
  | some s =>
    rw [hview] at h
    have hcount : ∀ asset ∈ w.assets, s.assets.count (toLower asset) = 1 := by
      intro asset hasset
      refine List.count_eq_one_of_mem h.nodup ?_
      rw [h.held]
      exact List.mem_map_of_mem hasset
    refine ⟨fun asset hasset => ⟨s, hview, hcount asset hasset⟩, ?_, ?_⟩
    · intro s' hs' hready asset hasset
      obtain rfl : s = s' := Option.some.inj (hview.symm.trans hs')
      rw [(h.once hready).1]
      exact hcount asset hasset
    · intro s' hs' hready hon
      obtain rfl : s = s' := Option.some.inj (hview.symm.trans hs')
      rw [(h.once hready).2]
      exact if_pos hon

/-- New symbols in the slice while forced orders are wanted. -/
theorem lose_grow (streamId : UInt16) {symbols announced new : List String}
    {out : List MarketData.Output} {s : MarketData} (hready : s.ready = true)
    (hon : settings.misc.subscribeForceOrder)
    (hslice : slices.slice 0 symbols.length (symbols ++ new) ≠ [])
    (h : Kept settings slices symbols announced out s) :
    ∃ s', (grow settings slices first streamId symbols new (some s)).1 = some s' ∧ s'.ready ∧
      orders (connected (out ++ (grow settings slices first streamId symbols new (some s)).2)) = 2 := by
  have hquiet := MarketData.quiet_subscribeFrom settings slices .two (symbols ++ new) symbols.length
  exact ⟨_, rfl, (MarketData.ready_quiet hquiet s).trans hready,
    MarketData.orders_twice new hready hon hslice h⟩

/-- Assets that nobody hears of, or two of them with the same channel. -/
theorem lose_announce {symbols announced new : List String} {out : List MarketData.Output}
    {t : Option MarketData} (hnew : new ≠ [])
    (hbad : ¬ (t.isSome ∧ ((announced ++ new).map toLower).Nodup))
    (h : Good settings slices symbols announced out t) :
    ∃ asset ∈ announced ++ new, ∀ s, (lift (MarketData.announce new) t).1 = some s →
      s.assets.count (toLower asset) ≠ 1 := by
  by_contra hall
  push Not at hall
  cases t with
  | none =>
    obtain ⟨asset, hasset⟩ := List.exists_mem_of_ne_nil _ hnew
    obtain ⟨s, hs, -⟩ := hall asset (List.mem_append_right _ hasset)
    cases hs
  | some s =>
    refine hbad ⟨rfl, List.nodup_iff_count_eq_one.mpr fun a ha => ?_⟩
    obtain ⟨asset, hasset, rfl⟩ := List.mem_map.mp ha
    obtain ⟨s', hs', hcount⟩ := hall asset hasset
    obtain rfl := Option.some.inj hs'
    rw [List.map_append, ← h.held]
    exact hcount

/-- A step that misses the condition loses what is wanted. -/
theorem not_assetsQueued_step {w : World} {e : Event} {out : List Output}
    (he : ¬ Orderly settings slices w e)
    (h : Good settings slices w.symbols w.assets (out.filterMap (ofKey first)) (view first w)) :
    ¬ AssetsQueued settings (out ++ (step settings slices e w).2) (step settings slices e w).1 := by
  obtain ⟨-, hsymbols, hassets⟩ := known_step settings slices e w
  obtain ⟨streamId, hstate, hout⟩ := shows_step settings slices first e w
  rintro ⟨hheld, hqueued, hordered⟩
  rw [List.filterMap_append, hout] at hqueued hordered
  rw [hstate] at hheld hqueued hordered
  rw [hassets] at hheld hqueued
  -- the slice grows
  have hgrow : (∃ s, view first w = some s ∧ s.ready ∧ settings.misc.subscribeForceOrder ∧
      slices.slice 0 w.symbols.length (w.symbols ++ fresh w e) ≠ []) →
      turn settings slices first streamId w e
        ≠ grow settings slices first streamId w.symbols (fresh w e) := by
    rintro ⟨s, hview, hready, hon, hslice⟩ hturn
    rw [hturn, hview] at hordered
    rw [hview] at h
    obtain ⟨s', hs', hready', htwice⟩ := lose_grow settings slices streamId hready hon hslice h
    have hone := hordered s' hs' hready' hon
    omega
  cases e with
  | exchangeInfoAck items discard =>
    rw [Orderly] at he
    push Not at he
    obtain ⟨s, hview, hready, hon, hslice⟩ := he
    have hnew : fresh w (.exchangeInfoAck items discard) ≠ [] := by
      intro hnil
      rw [hnil, List.append_nil, slices.slice_length] at hslice
      exact hslice rfl
    exact hgrow ⟨s, hview, hready, hon, hslice⟩ (if_neg hnew)
  | subscribe symbols =>
    rw [Orderly] at he
    push Not at he
    exact hgrow he rfl
  | assetIndexAck symbols =>
    rw [Orderly, Classical.not_imp] at he
    obtain ⟨hnew, hbad⟩ := he
    have hturn : turn settings slices first streamId w (.assetIndexAck symbols)
        = lift (MarketData.announce (announced w (.assetIndexAck symbols))) := if_pos ⟨rfl, hnew⟩
    rw [hturn] at hheld
    obtain ⟨asset, hasset, hlost⟩ := lose_announce settings slices hnew hbad h
    obtain ⟨s, hs, hcount⟩ := hheld asset hasset
    exact hlost s hs hcount
  | ready key =>
    rw [Orderly, Classical.not_imp] at he
    obtain ⟨rfl, hbad⟩ := he
    obtain ⟨s, hbad⟩ := not_forall.mp hbad
    obtain ⟨hview, hbad⟩ := Classical.not_imp.mp hbad
    have hturn : turn settings slices first streamId w (.ready first)
        = lift (MarketData.onReady settings slices .two w.symbols) := by
      rw [turn, if_pos rfl]
      rfl
    rw [hturn, hview, announced_none rfl, List.append_nil] at hqueued
    rw [hturn, hview] at hordered
    rw [hview] at h
    have hready := (MarketData.onReady_spec settings w.symbols (out.filterMap (ofKey first)) h.index
      h.sliced).1
    rcases MarketData.onReady_twice hbad h with ⟨asset, hasset, htwice⟩ | ⟨hon, htwice⟩
    · rw [h.held] at hasset
      obtain ⟨announced, hannounced, rfl⟩ := List.mem_map.mp hasset
      exact absurd (hqueued _ rfl hready announced hannounced) (Nat.ne_of_gt htwice)
    · exact absurd (hordered _ rfl hready hon) (Nat.ne_of_gt htwice)
  | _ => exact he trivial

/-- EXACT: in every state that a run reaches, no asset is lost and every channel is queued once in the
    session of the first connection, if and only if every step meets the condition. -/
theorem assetsQueued_iff (streamId : UInt16) (es : List Event) :
    (∀ pre, pre <+: es → AssetsQueued settings (run (step settings slices) pre { streamId }).2
      (run (step settings slices) pre { streamId }).1)
    ↔ Along (step settings slices) (Orderly settings slices) es { streamId } := by
  refine exact_condition
    (I := fun out w => Good settings slices w.symbols w.assets (out.filterMap (ofKey first))
      (view first w)) ?_ ?_ ?_ (show Good settings slices [] [] [] none from ⟨rfl, rfl⟩) es
  · exact fun out w e h he => good_step settings slices he h
  · exact fun out w h => assetsQueued_of_good settings slices h
  · exact fun out w e h he => not_assetsQueued_step settings slices he h

end

/-- An asset is announced after the first connection has been created, and before it is ready. -/
def earlyAnnouncement : List Event :=
  [.exchangeInfoAck [{ symbol := "BTCUSDT" }] fun _ => false, .assetIndexAck ["BTCUSD"], .ready first]

/-- It is queued twice in the session. -/
theorem earlyAnnouncement_twice : ¬ ∀ es : List Event,
    AssetsQueued {} (run (step {} (Slices.evenly 40 (by decide))) es {}).2
      (run (step {} (Slices.evenly 40 (by decide))) es {}).1 := by
  intro h
  have hready : (view first (run (step {} (Slices.evenly 40 (by decide))) earlyAnnouncement {}).1).map
      (·.ready) = some true := by decide
  obtain ⟨s, hview, hready⟩ := Option.map_eq_some_iff.mp hready
  have hone := (h earlyAnnouncement).queued s hview hready "BTCUSD" (by decide)
  revert hone
  decide

end Market
end BinanceFutures
