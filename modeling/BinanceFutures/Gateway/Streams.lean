import BinanceFutures.Gateway.Assets
import BinanceFutures.Gateway.Wire
import Mathlib.Data.List.Count

/-! # Streams

    What the exchange is asked for on the connections. The timer sends from the front of the queue, so
    what has been queued since the connection was lost is what has been sent, followed by what waits.

        queued   s₁ s₂ s₃ s₄ s₅
        sent     s₁ s₂ s₃         ─▶ exchange
        queue             s₄ s₅

    Read back by the exchange, it names every symbol of the slice once on each channel of the
    connection: if the connection becomes ready only when it is not, and the symbols are names. -/

namespace BinanceFutures
open Machine

/-! ### What is queued and sent -/

namespace MarketData

def Output.request? : Output → Option Subscription
  | .queued s => some s
  | _ => none

def Output.text? : Output → Option String
  | .sendText message => some message
  | _ => none

/-- What goes into the queue. -/
def requested (out : List Output) : List Subscription := out.filterMap Output.request?

/-- What is sent. -/
def texts (out : List Output) : List String := out.filterMap Output.text?

theorem requested_append (out out' : List Output) :
    requested (out ++ out') = requested out ++ requested out' := List.filterMap_append

theorem texts_append (out out' : List Output) : texts (out ++ out') = texts out ++ texts out' :=
  List.filterMap_append

theorem named_eq (channel : Channel) : ∀ out : List Output, named channel out
    = (requested out).flatMap fun s => if s.channel = channel then s.names else []
  | [] => rfl
  | o :: out => by
      have hrest := named_eq channel out
      rw [named] at hrest
      cases o <;> simp [named, requested, Output.names, Output.request?, List.filterMap_cons, hrest]

/-- What the action puts out goes into the queue or elsewhere, and nothing is sent. -/
structure Queues (f : Act) : Prop where
  queued : ∀ s, (f s).1.subscribeQueue = s.subscribeQueue ++ requested (f s).2
  unsent : ∀ s, texts (f s).2 = []
  unbroken : Silent (fun o => o.lost = true) f

theorem queues_skip : Queues skip := ⟨fun s => by simp [requested], fun _ => rfl, silent_skip _⟩

theorem queues_seq {f g : Act} (hf : Queues f) (hg : Queues g) : Queues (seq f g) where
  queued s := by
    rw [seq_fst, seq_snd, hg.queued, hf.queued, requested_append, List.append_assoc]
  unsent s := by rw [seq_snd, texts_append, hf.unsent, hg.unsent, List.append_nil]
  unbroken := silent_seq hf.unbroken hg.unbroken

theorem queues_seqAll : ∀ {fs : List Act}, (∀ f ∈ fs, Queues f) → Queues (seqAll fs)
  | [], _ => queues_skip
  | f :: _, h => queues_seq (h f (by simp)) (queues_seqAll fun g hg => h g (List.mem_cons_of_mem f hg))

theorem queues_guarded {f : Act} (b : MarketData → Bool) (hf : Queues f) : Queues (guarded b f) where
  queued s := by
    unfold guarded
    split
    · exact hf.queued s
    · simp [requested]
  unsent s := by
    unfold guarded
    split
    · exact hf.unsent s
    · rfl
  unbroken := silent_guarded b hf.unbroken

theorem queues_enqueue (names : List String) (channel : Channel) : Queues (enqueue names channel) :=
  ⟨fun _ => rfl, fun _ => rfl, silent_enqueue (by simp [Output.lost]) names channel⟩

/-- Things that are put out and have nothing to do with the queue. -/
theorem queues_of_silent {f : Act} (hqueue : Frame (·.subscribeQueue) f)
    (hout : Silent (fun o => o.request?.isSome ∨ o.text?.isSome ∨ o.lost = true) f) : Queues f where
  queued s := by
    have hnone : requested (f s).2 = [] := by
      refine List.filterMap_eq_nil_iff.mpr fun o ho => ?_
      simpa using fun hsome => hout s o ho (Or.inl hsome)
    rw [hnone, List.append_nil]
    exact hqueue s
  unsent s := by
    refine List.filterMap_eq_nil_iff.mpr fun o ho => ?_
    simpa using fun hsome => hout s o ho (Or.inr (Or.inl hsome))
  unbroken := silent_mono (fun _ h => Or.inr (Or.inr h)) hout

section
variable (settings : Settings) (slices : Slices)

theorem queues_extra (symbols : List String) : Queues (extra settings symbols) := by
  refine queues_seq ?_ (queues_guarded _ (queues_enqueue [] .forceOrder))
  split
  · refine queues_of_silent (fun _ => rfl) fun s o ho => ?_
    obtain ⟨symbol, -, rfl⟩ := List.mem_map.mp ho
    simp [Output.request?, Output.text?, Output.lost]
  · exact queues_skip

theorem queues_subscribe (kind : Kind) (symbols : List String) :
    Queues (subscribe settings kind symbols) := by
  unfold subscribe
  split
  · exact queues_skip
  · refine queues_seq (queues_seqAll fun f hf => ?_) ?_
    · obtain ⟨channel, -, rfl⟩ := List.mem_map.mp hf
      exact queues_enqueue symbols channel
    · cases kind with
      | two => exact queues_extra settings symbols
      | _ => exact queues_skip

theorem queues_subscribeFrom (kind : Kind) (symbols : List String) (startFrom : ℕ) :
    Queues (subscribeFrom settings slices kind symbols startFrom) := by
  have hslice : ∀ s : MarketData,
      Queues (subscribe settings kind (slices.slice s.index startFrom symbols)) :=
    fun s => queues_subscribe settings kind _
  have heq : ∀ s : MarketData, ∃ f, subscribeFrom settings slices kind symbols startFrom s = f s ∧
      Queues f := by
    intro s
    unfold subscribeFrom
    split
    · exact ⟨_, rfl, hslice s⟩
    · exact ⟨skip, rfl, queues_skip⟩
  refine ⟨fun s => ?_, fun s => ?_, fun s => ?_⟩ <;>
    · obtain ⟨f, hf, hqueues⟩ := heq s
      rw [hf]
      first | exact hqueues.queued s | exact hqueues.unsent s | exact hqueues.unbroken s

theorem queues_onReady (kind : Kind) (symbols : List String) :
    Queues (onReady settings slices kind symbols) := by
  refine queues_seq ?_ (queues_seq (queues_subscribeFrom settings slices kind symbols 0)
    (queues_seq ?_ queues_skip))
  · refine queues_of_silent (fun _ => rfl) fun s o ho => ?_
    rw [List.mem_singleton.mp ho]
    simp [Output.request?, Output.text?, Output.lost]
  · cases kind with
    | two => exact queues_guarded _ ⟨fun _ => rfl, fun _ => rfl, fun s =>
        (queues_enqueue s.assets .assetIndex).unbroken s⟩
    | _ => exact queues_skip

theorem queues_announce (assets : List String) : Queues (announce assets) :=
  queues_seq (queues_of_silent (fun _ => rfl) fun _ _ ho => absurd ho List.not_mem_nil)
    (queues_enqueue _ _)

theorem queues_onKline (kline : Json.Kline) : Queues (onKline settings kline) := by
  refine queues_of_silent (fun _ => rfl) (silent_onKline settings ?_ ?_ kline) <;>
    simp [Output.request?, Output.text?, Output.lost]

end

/-! ### Subscriptions of a connection -/

/-- What a connection may ask for: a channel of its kind, or what only the first `MarketData2` asks
    for. -/
def Proper (settings : Settings) (kind : Kind) (index : ℕ) (assets : List String) (s : Subscription) :
    Prop :=
  s.names ≠ [] ∧ s.channel ∈ kind.channels settings ∨
  (kind = .two ∧ index = 0) ∧
    (s.names ≠ [] ∧ s.channel = .assetIndex ∧ (∀ name ∈ s.names, name ∈ assets) ∨
      s.names = [] ∧ s.channel = .forceOrder)

theorem asks_of_proper {settings : Settings} {kind : Kind} {index : ℕ} {assets : List String}
    {s : Subscription} (h : Proper settings kind index assets s) : s.Asks := by
  rcases h with ⟨hnames, -⟩ | ⟨-, ⟨hnames, -⟩ | ⟨-, horder⟩⟩
  · exact Or.inr hnames
  · exact Or.inr hnames
  · exact Or.inl horder

/-- The exchange counts a symbol as often as it has been queued. -/
theorem count_asked {settings : Settings} {kind : Kind} {index : ℕ} {assets : List String}
    {s : Subscription} (h : Proper settings kind index assets s) {channel : Channel}
    (hchannel : channel ∈ kind.channels settings) (symbol : String) :
    s.asked.count (symbol.toList, channel.name.toList)
      = (if s.channel = channel then s.names else []).count symbol := by
  have hall : s.channel ∈ Channel.all settings := by
    rcases h with ⟨-, hmem⟩ | ⟨-, ⟨-, hasset, -⟩ | ⟨-, horder⟩⟩
    · exact Channel.mem_all hmem
    · simp [Channel.all, hasset]
    · simp [Channel.all, horder]
  by_cases horder : s.channel = .forceOrder
  · have hasked : s.asked = [("!forceOrder".toList, "arr".toList)] := by
      simp only [Subscription.asked, horder]
    have hne : s.channel ≠ channel := by
      rintro rfl
      exact forceOrder_notMem settings kind (horder ▸ hchannel)
    rw [if_neg hne, hasked, List.count_nil, List.count_eq_zero, List.mem_singleton]
    exact fun heq => Channel.name_ne_arr channel (Prod.mk.inj heq).2
  · rw [Subscription.asked_of_ne horder]
    by_cases hsame : s.channel = channel
    · rw [if_pos hsame, hsame]
      exact List.count_map_of_injective s.names (fun name => (name.toList, channel.name.toList))
        (fun a b hab => String.toList_injective (Prod.mk.inj hab).1) symbol
    · rw [if_neg hsame, List.count_nil, List.count_eq_zero]
      rintro hmem
      obtain ⟨name, -, heq⟩ := List.mem_map.mp hmem
      have hname : channel.name = s.channel.name := String.toList_injective (Prod.mk.inj heq).2.symm
      exact hsame (Channel.eq_of_name (Channel.mem_all hchannel) hall hname).symm

theorem count_askedAll {settings : Settings} {kind : Kind} {index : ℕ} {assets : List String}
    {channel : Channel} (hchannel : channel ∈ kind.channels settings) (symbol : String) :
    ∀ {subs : List Subscription}, (∀ s ∈ subs, Proper settings kind index assets s) →
      (subs.flatMap Subscription.asked).count (symbol.toList, channel.name.toList)
        = (subs.flatMap fun s => if s.channel = channel then s.names else []).count symbol
  | [], _ => rfl
  | s :: subs, h => by
      rw [List.flatMap_cons, List.flatMap_cons, List.count_append, List.count_append,
        count_asked (h s (by simp)) hchannel,
        count_askedAll hchannel symbol fun s' hs' => h s' (List.mem_cons_of_mem s hs')]

/-- What the action queues is what the connection may ask for. -/
def AllProper (settings : Settings) (kind : Kind) (assets : List String) (f : Act) : Prop :=
  ∀ s : MarketData, ∀ sub ∈ requested (f s).2, Proper settings kind s.index assets sub

section
variable {settings : Settings} {slices : Slices} {kind : Kind} {assets : List String}

theorem allProper_skip : AllProper settings kind assets skip := fun _ _ hsub => by cases hsub

theorem allProper_of_silent {f : Act} (h : Silent (fun o => o.request?.isSome) f) :
    AllProper settings kind assets f := by
  intro s sub hsub
  obtain ⟨o, ho, hrequest⟩ := List.mem_filterMap.mp hsub
  exact absurd (Option.isSome_iff_exists.mpr ⟨sub, hrequest⟩) (h s o ho)

theorem allProper_seq {f g : Act} (hindex : Frame (·.index) f) (hf : AllProper settings kind assets f)
    (hg : AllProper settings kind assets g) : AllProper settings kind assets (seq f g) := by
  intro s sub hsub
  rw [seq_snd, requested_append] at hsub
  rcases List.mem_append.mp hsub with hfirst | hsecond
  · exact hf s sub hfirst
  · have hproper := hg (f s).1 sub hsecond
    rwa [show (f s).1.index = s.index from hindex s] at hproper

theorem allProper_enqueue {names : List String} {channel : Channel}
    (hnames : names ≠ []) (hchannel : channel ∈ kind.channels settings) :
    AllProper settings kind assets (enqueue names channel) := by
  intro s sub hsub
  obtain rfl := List.mem_singleton.mp hsub
  exact Or.inl ⟨hnames, hchannel⟩

theorem allProper_enqueueAll {names : List String} (hnames : names ≠ []) : ∀ {cs : List Channel},
    (∀ c ∈ cs, c ∈ kind.channels settings) →
      AllProper settings kind assets (seqAll (cs.map (enqueue names)))
  | [], _ => allProper_skip
  | c :: _, h => allProper_seq (fun _ => rfl) (allProper_enqueue hnames (h c (by simp)))
      (allProper_enqueueAll hnames fun c' hc' => h c' (List.mem_cons_of_mem c hc'))

theorem allProper_extra (symbols : List String) :
    AllProper settings .two assets (extra settings symbols) := by
  refine allProper_seq ?_ (allProper_of_silent ?_) fun s sub hsub => ?_
  · split <;> exact fun _ => rfl
  · split
    · intro s o ho
      obtain ⟨symbol, -, rfl⟩ := List.mem_map.mp ho
      simp [Output.request?]
    · exact silent_skip _
  · unfold guarded at hsub
    split at hsub
    next hfirst =>
      obtain rfl := List.mem_singleton.mp hsub
      exact Or.inr ⟨⟨rfl, (of_decide_eq_true hfirst).1⟩, Or.inr ⟨rfl, rfl⟩⟩
    next => cases hsub

theorem allProper_subscribe (symbols : List String) :
    AllProper settings kind assets (subscribe settings kind symbols) := by
  unfold subscribe
  split
  · exact allProper_skip
  next hne =>
    refine allProper_seq (frame_map fun channel _ => ?_) (allProper_enqueueAll hne fun _ h => h) ?_
    · exact fun _ => rfl
    · cases kind with
      | two => exact allProper_extra symbols
      | _ => exact allProper_skip

theorem allProper_subscribeFrom (symbols : List String) (startFrom : ℕ) :
    AllProper settings kind assets (subscribeFrom settings slices kind symbols startFrom) := by
  intro s
  unfold subscribeFrom
  split
  · exact allProper_subscribe _ s
  · exact allProper_skip s

theorem connected_queues {f : Act} (hf : Queues f) (out : List Output) (s : MarketData) :
    connected (out ++ (f s).2) = connected out ++ (f s).2 :=
  Trace.since_append fun o ho => Bool.eq_false_iff.mpr (hf.unbroken s o ho)

/-- What has been queued since the connection was lost has been sent in this order, or waits. -/
def Sent (out : List Output) (s : MarketData) : Prop :=
  (requested (connected out)).map Subscription.message
    = texts (connected out) ++ s.subscribeQueue.map Subscription.message

theorem sent_queues {f : Act} (hf : Queues f) : Keeps Sent f := by
  intro out s h
  rw [Sent, connected_queues hf, requested_append, texts_append, hf.unsent, hf.queued, List.map_append,
    List.map_append, List.append_nil, h, List.append_assoc]

theorem connected_onTimer (n : ℕ) (out : List Output) (s : MarketData) :
    connected (out ++ (onTimer n s).2) = connected out ++ (onTimer n s).2 :=
  Trace.since_append fun o ho =>
    Bool.eq_false_iff.mpr (silent_onTimer (p := fun o => o.lost = true) (by simp [Output.lost]) n s o ho)

theorem requested_onTimer (n : ℕ) (s : MarketData) : requested (onTimer n s).2 = [] := by
  refine List.filterMap_eq_nil_iff.mpr fun o ho => ?_
  simpa using silent_onTimer (p := fun o => o.request?.isSome) (by simp [Output.request?]) n s o ho

theorem sent_onTimer (n : ℕ) : Keeps Sent (onTimer n) := by
  intro out s h
  rw [Sent, connected_onTimer, requested_append, requested_onTimer, List.append_nil, h, texts_append,
    List.append_assoc]
  congr 1
  unfold onTimer guarded
  split
  · have htexts : texts ((s.subscribeQueue.take n).map fun sub => .sendText sub.message)
        = (s.subscribeQueue.take n).map Subscription.message := by
      rw [texts, List.filterMap_map]
      exact List.filterMap_eq_map (f := Subscription.message) ▸ rfl
    rw [htexts, ← List.map_append, List.take_append_drop]
  · rfl

theorem connected_onDisconnected (out : List Output) (s : MarketData) :
    connected (out ++ (onDisconnected s).2) = [] := Trace.since_mark rfl

theorem sent_onDisconnected : Keeps Sent onDisconnected := by
  intro out s _
  rw [Sent, connected_onDisconnected]
  rfl

/-- What has been queued is what the connection may ask for, and its assets have been announced. -/
structure Drawn (settings : Settings) (kind : Kind) (announced : List String) (out : List Output)
    (s : MarketData) : Prop where
  proper : ∀ sub ∈ requested (connected out), Proper settings kind s.index s.assets sub
  first : s.assets ≠ [] → s.index = 0
  held : ∀ asset ∈ s.assets, ∃ a ∈ announced, toLower a = asset

/-- What has been queued on each channel is the slice, if the connection is ready. -/
structure Listed (settings : Settings) (slices : Slices) (kind : Kind) (index : ℕ)
    (symbols : List String) (out : List Output) (s : MarketData) : Prop where
  position : s.index = index
  lists : ∀ channel, channel ≠ .assetIndex → MarketData.named channel (connected out)
    = if s.ready ∧ channel ∈ kind.channels settings then slices.slice index 0 symbols else []

/-- An action that leaves the assets alone. -/
theorem drawn_quiet {f : Act} {announced : List String} (hf : Quiet f)
    (hproper : ∀ assets, AllProper settings kind assets f) :
    Keeps (Drawn settings kind announced) f := by
  rintro out s ⟨hall, hfirst, hheld⟩
  have hassets := assets_quiet hf s
  have hindex := index_quiet hf s
  refine ⟨fun sub hsub => ?_, fun hne => ?_, fun asset hasset => hheld asset (hassets ▸ hasset)⟩
  · rw [connected_quiet hf, requested_append] at hsub
    rw [hassets, hindex]
    rcases List.mem_append.mp hsub with hbefore | hnow
    · exact hall sub hbefore
    · exact hproper _ s sub hnow
  · rw [hassets] at hne
    exact hindex.trans (hfirst hne)

theorem drawn_onDisconnected {announced : List String} :
    Keeps (Drawn settings kind announced) onDisconnected := by
  rintro out s ⟨-, hfirst, hheld⟩
  refine ⟨fun sub hsub => ?_, hfirst, hheld⟩
  rw [connected_onDisconnected] at hsub
  cases hsub

theorem drawn_announce {announced new : List String} (hnew : new ≠ []) :
    Triple (fun out s => Drawn settings .two announced out s ∧ s.index = 0) (announce new)
      (Drawn settings .two (announced ++ new)) := by
  rintro out s ⟨⟨hall, -, hheld⟩, hindex⟩
  have hassets : (announce new s).1.assets = s.assets ++ new.map toLower := rfl
  refine ⟨fun sub hsub => ?_, fun _ => hindex, fun asset hasset => ?_⟩
  · rw [connected_announce, requested_append] at hsub
    rw [hassets]
    rcases List.mem_append.mp hsub with hbefore | hnow
    · rcases hall sub hbefore with hown | ⟨hkind, ⟨hne, hchannel, hmem⟩ | horder⟩
      · exact Or.inl hown
      · exact Or.inr ⟨hkind, Or.inl ⟨hne, hchannel, fun name hname =>
          List.mem_append_left _ (hmem name hname)⟩⟩
      · exact Or.inr ⟨hkind, Or.inr horder⟩
    · obtain rfl := List.mem_singleton.mp hnow
      exact Or.inr ⟨⟨rfl, hindex⟩, Or.inl ⟨by simpa using hnew, rfl, fun name hname =>
        List.mem_append_right _ hname⟩⟩
  · rw [hassets] at hasset
    rcases List.mem_append.mp hasset with hbefore | hnow
    · obtain ⟨a, ha, heq⟩ := hheld asset hbefore
      exact ⟨a, List.mem_append_left _ ha, heq⟩
    · obtain ⟨a, ha, heq⟩ := List.mem_map.mp hnow
      exact ⟨a, List.mem_append_right _ ha, heq⟩

theorem drawn_onReady {announced : List String} (symbols : List String) :
    Keeps (Drawn settings kind announced) (onReady settings slices kind symbols) := by
  have hstatus : Keeps (Drawn settings kind announced) (status .ready) := by
    rintro out s ⟨hall, hfirst, hheld⟩
    refine ⟨fun sub hsub => hall sub ?_, hfirst, hheld⟩
    have hsince : connected (out ++ [.streamStatus .ready]) = connected out ++ [.streamStatus .ready] :=
      Trace.since_append (by simp [Output.lost])
    rw [status, hsince, requested_append] at hsub
    simpa [requested, Output.request?] using hsub
  refine keeps_seq hstatus (keeps_seq (drawn_quiet (quiet_subscribeFrom settings slices kind symbols 0)
    fun _ => allProper_subscribeFrom symbols 0) (keeps_seq ?_ (keeps_skip _)))
  cases kind with
  | two =>
    refine keeps_guarded _ fun out s hassets h => ?_
    have hquiet := quiet_enqueue s.assets .assetIndex
    have hne : s.assets ≠ [] := of_decide_eq_true hassets
    refine ⟨fun sub hsub => ?_, h.first, h.held⟩
    rw [connected_quiet hquiet, requested_append] at hsub
    rcases List.mem_append.mp hsub with hbefore | hnow
    · exact h.proper sub hbefore
    · obtain rfl := List.mem_singleton.mp hnow
      exact Or.inr ⟨⟨rfl, h.first hne⟩, Or.inl ⟨hne, rfl, fun _ h => h⟩⟩
  | _ => exact keeps_skip _

variable {index : ℕ} {symbols : List String}

/-- An action that queues no symbols. -/
theorem listed_quiet {f : Act} (hf : Quiet f)
    (hnamed : ∀ channel, channel ≠ .assetIndex → ∀ s, named channel (f s).2 = []) :
    Keeps (Listed settings slices kind index symbols) f := by
  rintro out s ⟨hindex, h⟩
  refine ⟨(index_quiet hf s).trans hindex, fun channel hchannel => ?_⟩
  rw [connected_quiet hf, named_append, hnamed channel hchannel, List.append_nil, ready_quiet hf,
    h channel hchannel]

theorem listed_enqueue (names : List String) :
    Keeps (Listed settings slices kind index symbols) (enqueue names .assetIndex) :=
  listed_quiet (quiet_enqueue names .assetIndex) fun channel hchannel s => by
    rw [named_enqueue, if_neg (Ne.symm hchannel)]

theorem listed_subscribeFrom (new : List String) :
    Triple (Listed settings slices kind index symbols)
      (subscribeFrom settings slices kind (symbols ++ new) symbols.length)
      (Listed settings slices kind index (symbols ++ new)) := by
  rintro out s ⟨rfl, h⟩
  have hquiet := quiet_subscribeFrom settings slices kind (symbols ++ new) symbols.length
  refine ⟨index_quiet hquiet s, fun channel hchannel => ?_⟩
  rw [connected_quiet hquiet, named_append, h channel hchannel, ready_quiet hquiet, subscribeFrom]
  by_cases hready : s.ready = true
  · rw [if_pos hready, named_subscribe, slices.slice_append]
    by_cases hmem : channel ∈ kind.channels settings <;> simp [hready, hmem]
  · simp [hready]

theorem listed_onDisconnected :
    Keeps (Listed settings slices kind index symbols) onDisconnected := by
  rintro out s ⟨hindex, -⟩
  refine ⟨hindex, fun channel _ => ?_⟩
  rw [connected_onDisconnected, if_neg (by simp [onDisconnected, status, ready])]
  rfl

/-- The connection has become ready, and nothing has been queued. -/
def Fresh (index : ℕ) (out : List Output) (s : MarketData) : Prop :=
  s.index = index ∧ s.ready ∧ ∀ channel, channel ≠ .assetIndex → named channel (connected out) = []

theorem fresh_status : Triple
    (fun out s => Listed settings slices kind index symbols out s ∧ ¬ s.ready) (status .ready)
    (Fresh index) := by
  rintro out s ⟨⟨hindex, h⟩, hready⟩
  refine ⟨hindex, rfl, fun channel hchannel => ?_⟩
  have hsince : connected (out ++ [.streamStatus .ready]) = connected out ++ [.streamStatus .ready] :=
    Trace.since_append (by simp [Output.lost])
  rw [status, hsince, named_append, h channel hchannel]
  simp [hready, named, Output.names]

theorem listed_subscribeAll :
    Triple (Fresh index) (subscribeFrom settings slices kind symbols 0)
      (Listed settings slices kind index symbols) := by
  rintro out s ⟨rfl, hready, hnone⟩
  have hquiet := quiet_subscribeFrom settings slices kind symbols 0
  refine ⟨index_quiet hquiet s, fun channel hchannel => ?_⟩
  rw [connected_quiet hquiet, named_append, hnone channel hchannel, List.nil_append,
    ready_quiet hquiet, subscribeFrom, if_pos hready, named_subscribe]
  simp [hready]

/-- The connection becomes ready, and was not ready before. -/
theorem listed_onReady : Triple
    (fun out s => Listed settings slices kind index symbols out s ∧ ¬ s.ready)
    (onReady settings slices kind symbols) (Listed settings slices kind index symbols) := by
  refine triple_seq fresh_status (triple_seq listed_subscribeAll (keeps_seq ?_ (keeps_skip _)))
  cases kind with
  | two => exact keeps_guarded _ fun out s _ h => listed_enqueue s.assets out s h
  | _ => exact keeps_skip _

theorem listed_announce (new : List String) :
    Keeps (Listed settings slices kind index symbols) (announce new) := by
  refine keeps_seq (fun out s h => ?_) (listed_enqueue _)
  rw [modify_apply, List.append_nil]
  exact ⟨h.position, h.lists⟩

/-! ### All of it -/

/-- What a connection has queued, sent, and holds. -/
structure Flows (settings : Settings) (slices : Slices) (kind : Kind) (index : ℕ)
    (symbols announced : List String) (out : List Output) (s : MarketData) : Prop where
  sent : Sent out s
  drawn : Drawn settings kind announced out s
  listed : Listed settings slices kind index symbols out s

variable {announced : List String}

/-- What is named on a channel of the kind is in the slice. -/
theorem Flows.mem_slice {out : List Output} {s : MarketData} {sub : Subscription} {name : String}
    (h : Flows settings slices kind index symbols announced out s)
    (hsub : sub ∈ requested (connected out)) (hname : name ∈ sub.names)
    (hchannel : sub.channel ∈ kind.channels settings) :
    s.ready ∧ name ∈ slices.slice index 0 symbols := by
  have hasset : sub.channel ≠ .assetIndex := by
    intro heq
    exact assetIndex_notMem settings kind (heq ▸ hchannel)
  have hnamed : name ∈ named sub.channel (connected out) := by
    rw [named_eq]
    exact List.mem_flatMap.mpr ⟨sub, hsub, by simpa using hname⟩
  rw [h.listed.lists _ hasset] at hnamed
  by_cases hready : s.ready = true
  · exact ⟨hready, by simpa [hready, hchannel] using hnamed⟩
  · simp [hready] at hnamed

theorem flows_create (streamId : UInt16) :
    Flows settings slices kind index symbols announced [.start] (create streamId index) where
  sent := rfl
  drawn := ⟨fun _ hsub => absurd hsub List.not_mem_nil, fun hne => absurd rfl hne,
    fun _ hasset => absurd hasset List.not_mem_nil⟩
  listed := ⟨rfl, fun channel _ => by
    rw [if_neg (by simp [create, ready])]
    rfl⟩

theorem flows_subscribeFrom (new : List String) :
    Triple (Flows settings slices kind index symbols announced)
      (subscribeFrom settings slices kind (symbols ++ new) symbols.length)
      (Flows settings slices kind index (symbols ++ new) announced) := fun out s h => {
  sent := sent_queues (queues_subscribeFrom settings slices kind _ _) out s h.sent
  drawn := drawn_quiet (quiet_subscribeFrom settings slices kind _ _)
    (fun _ => allProper_subscribeFrom _ _) out s h.drawn
  listed := listed_subscribeFrom new out s h.listed }

theorem flows_onReady (out : List Output) (s : MarketData) (hready : ¬ s.ready)
    (h : Flows settings slices kind index symbols announced out s) :
    Flows settings slices kind index symbols announced
      (out ++ (onReady settings slices kind symbols s).2)
      (onReady settings slices kind symbols s).1 where
  sent := sent_queues (queues_onReady settings slices kind symbols) out s h.sent
  drawn := drawn_onReady symbols out s h.drawn
  listed := listed_onReady out s ⟨h.listed, hready⟩

theorem flows_onDisconnected :
    Keeps (Flows settings slices kind index symbols announced) onDisconnected := fun out s h =>
  ⟨sent_onDisconnected out s h.sent, drawn_onDisconnected out s h.drawn,
    listed_onDisconnected out s h.listed⟩

theorem flows_announce {new : List String} (hnew : new ≠ []) :
    Triple (Flows settings slices .two 0 symbols announced) (announce new)
      (Flows settings slices .two 0 symbols (announced ++ new)) := fun out s h =>
  ⟨sent_queues (queues_announce new) out s h.sent, drawn_announce hnew out s ⟨h.drawn, h.listed.position⟩,
    listed_announce new out s h.listed⟩

/-- Assets that the connection does not hear of. -/
theorem flows_mono {new : List String} {out : List Output} {s : MarketData}
    (h : Flows settings slices kind index symbols announced out s) :
    Flows settings slices kind index symbols (announced ++ new) out s :=
  ⟨h.sent, ⟨h.drawn.proper, h.drawn.first, fun asset hasset =>
    (h.drawn.held asset hasset).imp fun _ ha => ⟨List.mem_append_left _ ha.1, ha.2⟩⟩, h.listed⟩

theorem flows_onTimer (n : ℕ) :
    Keeps (Flows settings slices kind index symbols announced) (onTimer n) := fun out s h => {
  sent := sent_onTimer n out s h.sent
  drawn := drawn_quiet (quiet_onTimer n)
    (fun _ => allProper_of_silent (silent_onTimer (by simp [Output.request?]) n)) out s h.drawn
  listed := listed_quiet (quiet_onTimer n) (fun channel _ s => named_onTimer channel n s) out s
    h.listed }

theorem flows_onKline (kline : Json.Kline) :
    Keeps (Flows settings slices kind index symbols announced) (onKline settings kline) :=
  fun out s h => {
  sent := sent_queues (queues_onKline settings kline) out s h.sent
  drawn := drawn_quiet (quiet_onKline settings kline)
    (fun _ => allProper_of_silent (silent_onKline settings (by simp [Output.request?])
      (by simp [Output.request?]) kline)) out s h.drawn
  listed := listed_quiet (quiet_onKline settings kline)
    (fun channel _ s => named_onKline settings channel kline s) out s h.listed }

end

end MarketData

/-! ### The exchange -/

namespace Market
open MarketData (named connected texts Flows)

/-- What has been sent since the connection was lost, and what waits to be sent. -/
def onWire (key : Key) (out : List Output) (w : World) : List String :=
  texts (connected (out.filterMap (ofKey key)))
    ++ (((view key w).map (·.subscribeQueue)).getD []).map Subscription.message

/-- What the exchange reads of it. -/
def asked (key : Key) (out : List Output) (w : World) : List (List Char × List Char) :=
  (onWire key out w).flatMap Subscription.read

/-- The connection becomes ready when it is not, and what is named has a name. -/
def Timely (w : World) (e : Event) : Prop :=
  (∀ name ∈ e.asked ++ e.assets, Subscription.IsName name) ∧
  match e with
  | .ready key => ∀ s, view key w = some s → ¬ s.ready
  | _ => True

section
variable (settings : Settings) (slices : Slices) (key : Key)

/-- What the connection has queued, sent and holds, if it is there. -/
abbrev Flowing (symbols announced : List String) : List MarketData.Output → Option MarketData → Prop :=
  IfThere (Flows settings slices key.kind key.index symbols announced)

theorem flowing_grow (streamId : UInt16) (symbols new announced : List String) :
    Triple (Flowing settings slices key symbols announced)
      (grow settings slices key streamId symbols new)
      (Flowing settings slices key (symbols ++ new) announced) :=
  triple_seq (keeps_appear (MarketData.flows_create streamId))
    (triple_lift (MarketData.flows_subscribeFrom new))

theorem flowing_turn (streamId : UInt16) {w : World} {e : Event} (he : Timely w e)
    {out : List MarketData.Output}
    (h : Flowing settings slices key w.symbols w.assets out (view key w)) :
    Flowing settings slices key (w.symbols ++ fresh w e) (w.assets ++ announced w e)
      (out ++ (turn settings slices key streamId w e (view key w)).2)
      (turn settings slices key streamId w e (view key w)).1 := by
  have hskip : fresh w e = [] → announced w e = [] →
      Flowing settings slices key (w.symbols ++ fresh w e) (w.assets ++ announced w e)
        (out ++ ((skip : Action _ MarketData.Output) (view key w)).2) (view key w) := by
    intro hfresh hannounced
    rw [hfresh, hannounced, List.append_nil, List.append_nil, skip_apply, List.append_nil]
    exact h
  -- nothing is new, and one of the connections reacts
  have hif : ∀ {p : Prop} [Decidable p] {f : MarketData.Act}, fresh w e = [] → announced w e = [] →
      (p → ∀ s, view key w = some s →
        Flows settings slices key.kind key.index w.symbols w.assets out s →
        Flows settings slices key.kind key.index w.symbols w.assets (out ++ (f s).2) (f s).1) →
      Flowing settings slices key (w.symbols ++ fresh w e) (w.assets ++ announced w e)
        (out ++ ((if p then lift f else skip : Action _ _) (view key w)).2)
        ((if p then lift f else skip : Action _ _) (view key w)).1 := by
    intro p _ f hfresh hannounced hf
    split
    next hp =>
      rw [hfresh, hannounced, List.append_nil, List.append_nil]
      cases hview : view key w with
      | none =>
        rw [hview] at h
        simpa [lift, IfThere] using h
      | some s =>
        rw [hview] at h
        exact hf hp s hview h
    next => exact hskip hfresh hannounced
  cases e with
  | exchangeInfoAck items discard =>
    rw [turn]
    split
    next hnil => exact hskip hnil (announced_none rfl)
    next =>
      rw [announced_none rfl, List.append_nil]
      exact flowing_grow settings slices key streamId _ _ _ out _ h
  | subscribe symbols =>
    rw [announced_none rfl, List.append_nil]
    exact flowing_grow settings slices key streamId _ _ _ out _ h
  | assetIndexAck symbols =>
    rw [turn]
    split
    next hnew =>
      obtain ⟨rfl, hne⟩ := hnew
      rw [fresh_none rfl, List.append_nil]
      exact triple_lift (MarketData.flows_announce hne) out _ h
    next hnone =>
      rw [fresh_none rfl, List.append_nil, skip_apply, List.append_nil]
      cases hview : view key w with
      | none =>
        rw [hview] at h
        exact h
      | some s =>
        rw [hview] at h
        exact MarketData.flows_mono h
  | ready key' =>
    exact hif (fresh_none rfl) (announced_none rfl) fun heq s hview hflows =>
      MarketData.flows_onReady out s (he.2 s (heq ▸ hview)) hflows
  | disconnected key' =>
    exact hif (fresh_none rfl) (announced_none rfl) fun _ s _ hflows =>
      MarketData.flows_onDisconnected out s hflows
  | timer key' n =>
    exact hif (fresh_none rfl) (announced_none rfl) fun _ s _ hflows =>
      MarketData.flows_onTimer n out s hflows
  | kline index kline =>
    exact hif (fresh_none rfl) (announced_none rfl) fun _ s _ hflows =>
      MarketData.flows_onKline kline out s hflows
  | restStatus | restTimer | klineAnswer => exact hskip (fresh_none rfl) (announced_none rfl)

/-- The connections carry what has been queued, and what is known has a name. -/
structure Carried (out : List Output) (w : World) : Prop where
  flowing : ∀ key, Flowing settings slices key w.symbols w.assets (out.filterMap (ofKey key)) (view key w)
  symbols : ∀ symbol ∈ w.symbols, Subscription.IsName symbol
  assets : ∀ asset ∈ w.assets, Subscription.IsName asset

theorem carried_step {w : World} {e : Event} {out : List Output} (he : Timely w e)
    (h : Carried settings slices out w) :
    Carried settings slices (out ++ (step settings slices e w).2) (step settings slices e w).1 := by
  obtain ⟨-, hsymbols, hassets⟩ := known_step settings slices e w
  constructor
  · intro key
    obtain ⟨streamId, hstate, hout⟩ := shows_step settings slices key e w
    rw [hsymbols, hassets, List.filterMap_append, hstate, hout]
    exact flowing_turn settings slices key streamId he (h.flowing key)
  · intro symbol hsymbol
    rw [hsymbols] at hsymbol
    rcases List.mem_append.mp hsymbol with hold | hnew
    · exact h.symbols symbol hold
    · exact he.1 symbol (List.mem_append_left _ (mem_includeNew.mp hnew).1)
  · intro asset hasset
    rw [hassets] at hasset
    rcases List.mem_append.mp hasset with hold | hnew
    · exact h.assets asset hold
    · exact he.1 asset (List.mem_append_right _ (mem_includeNew.mp hnew).1)

/-- What the exchange is asked for, up to what waits to be sent. -/
structure Covered (out : List Output) (w : World) : Prop where
  /-- Every symbol of the slice of a connection that is ready, once on each of its channels. -/
  once : ∀ key s, view key w = some s → ∀ channel ∈ key.kind.channels settings, ∀ symbol : String,
    (asked key out w).count (symbol.toList, channel.name.toList)
      = if s.ready ∧ symbol ∈ slices.slice key.index 0 w.symbols then 1 else 0
  /-- Nothing else but what only the first `MarketData2` asks for. -/
  only : ∀ key s, view key w = some s → ∀ stream ∈ asked key out w,
    (s.ready ∧ ∃ symbol ∈ slices.slice key.index 0 w.symbols, ∃ channel ∈ key.kind.channels settings,
      stream = (symbol.toList, channel.name.toList)) ∨
    key = first ∧ ((∃ asset ∈ w.assets, stream = ((toLower asset).toList, "assetIndex".toList)) ∨
      stream = ("!forceOrder".toList, "arr".toList))

variable {settings slices} {key} {out : List Output} {w : World} {s : MarketData}

/-- Everything that is on the wire is read back. -/
theorem asked_eq (h : Carried settings slices out w) (hview : view key w = some s) :
    Flows settings slices key.kind key.index w.symbols w.assets (out.filterMap (ofKey key)) s ∧
    asked key out w = (MarketData.requested (connected (out.filterMap (ofKey key)))).flatMap
      Subscription.asked := by
  have hflows : Flows settings slices key.kind key.index w.symbols w.assets
      (out.filterMap (ofKey key)) s := by
    have hthere := h.flowing key
    rwa [hview] at hthere
  have hnamed : ∀ sub ∈ MarketData.requested (connected (out.filterMap (ofKey key))), ∀ name ∈ sub.names,
      Subscription.IsName name := by
    intro sub hsub name hname
    rcases hflows.drawn.proper sub hsub with ⟨-, hchannel⟩ | ⟨-, ⟨-, -, hmem⟩ | ⟨hnil, -⟩⟩
    · exact h.symbols name (slices.mem_of_mem_slice (hflows.mem_slice hsub hname hchannel).2)
    · obtain ⟨a, ha, rfl⟩ := hflows.drawn.held name (hmem name hname)
      exact Subscription.isName_toLower (h.assets a ha)
    · rw [hnil] at hname
      cases hname
  refine ⟨hflows, ?_⟩
  rw [asked, onWire, hview, Option.map_some, Option.getD_some, ← hflows.sent, List.flatMap_map]
  refine List.flatMap_congr fun sub hsub => ?_
  exact Subscription.read_message (MarketData.asks_of_proper (hflows.drawn.proper sub hsub))
    (hnamed sub hsub)

theorem covered_of_carried (h : Carried settings slices out w) (hnodup : w.symbols.Nodup) :
    Covered settings slices out w where
  once key s hview channel hchannel symbol := by
    obtain ⟨hflows, hasked⟩ := asked_eq h hview
    have hasset : channel ≠ .assetIndex := by
      rintro rfl
      exact MarketData.assetIndex_notMem settings key.kind hchannel
    rw [hasked, MarketData.count_askedAll hchannel symbol hflows.drawn.proper, ← MarketData.named_eq,
      hflows.listed.lists channel hasset]
    by_cases hready : s.ready = true
    · simp [hready, hchannel, (slices.nodup_slice hnodup).count]
    · simp [hready]
  only key s hview stream hstream := by
    obtain ⟨hflows, hasked⟩ := asked_eq h hview
    rw [hasked] at hstream
    obtain ⟨sub, hsub, hmem⟩ := List.mem_flatMap.mp hstream
    have hfirst : key.kind = .two → s.index = 0 → key = first := fun hkind hindex =>
      Key.ext hkind (hflows.listed.position.symm.trans hindex)
    rcases hflows.drawn.proper sub hsub with
      ⟨-, hchannel⟩ | ⟨⟨htwo, hindex⟩, ⟨-, hasset, hheld⟩ | ⟨-, horder⟩⟩
    · have horder : sub.channel ≠ .forceOrder := by
        intro heq
        exact MarketData.forceOrder_notMem settings key.kind (heq ▸ hchannel)
      rw [Subscription.asked_of_ne horder] at hmem
      obtain ⟨name, hname, rfl⟩ := List.mem_map.mp hmem
      obtain ⟨hready, hslice⟩ := hflows.mem_slice hsub hname hchannel
      exact Or.inl ⟨hready, name, hslice, sub.channel, hchannel, rfl⟩
    · rw [Subscription.asked_of_ne (by simp [hasset]), hasset] at hmem
      obtain ⟨name, hname, rfl⟩ := List.mem_map.mp hmem
      obtain ⟨a, ha, rfl⟩ := hflows.drawn.held name (hheld name hname)
      exact Or.inr ⟨hfirst htwo hindex, Or.inl ⟨a, ha, rfl⟩⟩
    · simp only [Subscription.asked, horder, List.mem_singleton] at hmem
      exact Or.inr ⟨hfirst htwo hindex, Or.inr hmem⟩

theorem carried_run {streamId : UInt16} {es : List Event}
    (hes : Along (step settings slices) Timely es { streamId }) :
    Carried settings slices (run (step settings slices) es { streamId }).2
      (run (step settings slices) es { streamId }).1 := by
  have hinit : Carried settings slices [] ({ streamId } : World) := by
    refine ⟨fun _ => rfl, ?_, ?_⟩ <;> simp
  have hrun := keeps_along (fun out w e h he => carried_step settings slices he h) hinit hes
  simpa using hrun

/-- CORRECT: in every state that a run reaches, the texts that have been sent on a connection since it
    was lost, and those that wait, ask the exchange for every symbol of its slice, once on each of its
    channels, and for nothing that does not belong to it. -/
theorem covered_run (settings : Settings) (slices : Slices) (streamId : UInt16) {es : List Event}
    (hes : Along (step settings slices) Timely es { streamId }) :
    Covered settings slices (run (step settings slices) es { streamId }).2
      (run (step settings slices) es { streamId }).1 :=
  covered_of_carried (carried_run hes) (registered_run settings slices streamId es).nodup

end

/-- A connection becomes ready, is lost, and becomes ready again when there are more symbols. -/
def recovered : List Event :=
  [.exchangeInfoAck [{ symbol := "BTCUSDT" }] fun _ => false, .assetIndexAck ["BTCUSD"],
    .ready ⟨.two, 0⟩, .timer ⟨.two, 0⟩ 2, .disconnected ⟨.two, 0⟩, .subscribe ["ethusdt"],
    .ready ⟨.two, 0⟩, .timer ⟨.two, 0⟩ 2]

theorem covered_recovered : Covered {} (Slices.evenly 40 (by decide))
    (run (step {} (Slices.evenly 40 (by decide))) recovered {}).2
    (run (step {} (Slices.evenly 40 (by decide))) recovered {}).1 := by
  refine covered_run {} (Slices.evenly 40 (by decide)) 0 ?_
  refine ⟨⟨?_, trivial⟩, ⟨?_, trivial⟩, ⟨?_, ?_⟩, ⟨?_, trivial⟩, ⟨?_, trivial⟩, ⟨?_, trivial⟩,
    ⟨?_, ?_⟩, ⟨?_, trivial⟩, trivial⟩
  all_goals decide

end Market
end BinanceFutures
