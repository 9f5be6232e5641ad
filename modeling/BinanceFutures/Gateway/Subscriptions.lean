import BinanceFutures.Gateway.Symbols
import BinanceFutures.Schemes.Trace

/-! # Subscriptions

    Symbols become known while connections come and go. A connection that is ready has queued, since it
    became ready, the symbols of its slice once on each of its channels; what it has queued follows the
    list of symbols as the list grows.

        ready          all that the slice holds         Ready ── slice i, from 0
        ready          what the slice gains             SymbolsUpdate ── slice i, from the old length
        not ready      nothing

    The slices share no symbol, and only one kind of connection has a channel for trades. -/

namespace BinanceFutures
open Machine

namespace MarketData

/-- What has been queued in the session: the slice, once on each channel, if the connection is ready.
    Assets are another matter. -/
def Follows (settings : Settings) (slices : Slices) (kind : Kind) (index : ℕ) (symbols : List String)
    (out : List Output) (s : MarketData) : Prop :=
  s.index = index ∧ ∀ channel, channel ≠ .assetIndex →
    named channel (Trace.since Output.turns out)
      = if s.ready ∧ channel ∈ kind.channels settings then slices.slice index 0 symbols else []

section
variable {settings : Settings} {slices : Slices} {kind : Kind} {index : ℕ} {symbols : List String}

theorem since_quiet {f : Act} (hf : Quiet f) (out : List Output) (s : MarketData) :
    Trace.since Output.turns (out ++ (f s).2) = Trace.since Output.turns out ++ (f s).2 :=
  Trace.since_append fun o ho => Bool.eq_false_iff.mpr (hf.2 s o ho)

theorem ready_quiet {f : Act} (hf : Quiet f) (s : MarketData) : (f s).1.ready = s.ready :=
  congrArg (fun p : ConnectionStatus × ℕ × List String => decide (p.1 = .ready)) (hf.1 s)

theorem index_quiet {f : Act} (hf : Quiet f) (s : MarketData) : (f s).1.index = s.index :=
  congrArg (fun p : ConnectionStatus × ℕ × List String => p.2.1) (hf.1 s)

/-- An action that queues no symbols. -/
theorem follows_quiet {f : Act} (hf : Quiet f)
    (hnamed : ∀ channel, channel ≠ .assetIndex → ∀ s, named channel (f s).2 = []) :
    Keeps (Follows settings slices kind index symbols) f := by
  rintro out s ⟨hindex, h⟩
  refine ⟨(index_quiet hf s).trans hindex, fun channel hchannel => ?_⟩
  rw [since_quiet hf, named_append, hnamed channel hchannel, List.append_nil, ready_quiet hf,
    h channel hchannel]

theorem follows_enqueue (names : List String) :
    Keeps (Follows settings slices kind index symbols) (enqueue names .assetIndex) :=
  follows_quiet (quiet_enqueue names .assetIndex) fun channel hchannel s => by
    rw [named_enqueue, if_neg (Ne.symm hchannel)]

/-- What is queued when symbols become known: what the slice gains. -/
theorem follows_subscribeFrom (new : List String) :
    Triple (Follows settings slices kind index symbols)
      (subscribeFrom settings slices kind (symbols ++ new) symbols.length)
      (Follows settings slices kind index (symbols ++ new)) := by
  rintro out s ⟨rfl, h⟩
  have hquiet := quiet_subscribeFrom settings slices kind (symbols ++ new) symbols.length
  refine ⟨index_quiet hquiet s, fun channel hchannel => ?_⟩
  rw [since_quiet hquiet, named_append, h channel hchannel, ready_quiet hquiet, subscribeFrom]
  by_cases hready : s.ready = true
  · rw [if_pos hready, named_subscribe, slices.slice_append]
    by_cases hmem : channel ∈ kind.channels settings <;> simp [hready, hmem]
  · simp [hready]

/-- A session begins: nothing has been queued in it. -/
def Begun (index : ℕ) (ready : Bool) (out : List Output) (s : MarketData) : Prop :=
  s.index = index ∧ s.ready = ready ∧ Trace.since Output.turns out = []

theorem begun_status (st : ConnectionStatus) :
    Triple (Follows settings slices kind index symbols) (status st)
      (Begun index (st = .ready)) := by
  rintro out s ⟨hindex, -⟩
  exact ⟨hindex, rfl, Trace.since_mark rfl⟩

theorem follows_begun {out : List Output} {s : MarketData} (h : Begun index false out s) :
    Follows settings slices kind index symbols out s := by
  obtain ⟨hindex, hready, hsince⟩ := h
  exact ⟨hindex, fun channel _ => by simp [hready, hsince]⟩

theorem follows_onDisconnected :
    Keeps (Follows settings slices kind index symbols) onDisconnected := by
  refine triple_seq (begun_status .disconnected) fun out s h => follows_begun ?_
  rw [modify_apply, List.append_nil]
  exact h

/-- What is queued when the connection becomes ready: all that the slice holds. -/
theorem follows_subscribeAll :
    Triple (Begun index true) (subscribeFrom settings slices kind symbols 0)
      (Follows settings slices kind index symbols) := by
  rintro out s ⟨rfl, hready, hsince⟩
  have hquiet := quiet_subscribeFrom settings slices kind symbols 0
  refine ⟨index_quiet hquiet s, fun channel _ => ?_⟩
  rw [since_quiet hquiet, hsince, List.nil_append, ready_quiet hquiet, subscribeFrom, if_pos hready,
    named_subscribe]
  simp [hready]

theorem follows_onReady :
    Keeps (Follows settings slices kind index symbols) (onReady settings slices kind symbols) := by
  refine triple_seq (begun_status .ready) (triple_seq follows_subscribeAll (keeps_seq ?_ (keeps_skip _)))
  cases kind with
  | two => exact keeps_guarded _ fun out s _ h => follows_enqueue s.assets out s h
  | _ => exact keeps_skip _

theorem follows_announce (assets : List String) :
    Keeps (Follows settings slices kind index symbols) (announce assets) := by
  refine keeps_seq (fun out s h => ?_) (follows_enqueue _)
  rw [modify_apply, List.append_nil]
  exact h

theorem follows_onTimer (n : ℕ) : Keeps (Follows settings slices kind index symbols) (onTimer n) :=
  follows_quiet (quiet_onTimer n) fun channel _ s => named_onTimer channel n s

theorem follows_onKline (kline : Json.Kline) :
    Keeps (Follows settings slices kind index symbols) (onKline settings kline) :=
  follows_quiet (quiet_onKline settings kline) fun channel _ s => named_onKline settings channel kline s

theorem follows_create (streamId : UInt16) :
    Follows settings slices kind index symbols [.start] (create streamId index) := by
  refine ⟨rfl, fun channel _ => ?_⟩
  rw [if_neg (by simp [create, ready])]
  rfl

end

end MarketData

namespace Market
open MarketData (named)

/-- What a connection has put out since it became ready or was lost. -/
def session (key : Key) (out : List Output) : List MarketData.Output :=
  Trace.since MarketData.Output.turns (out.filterMap (ofKey key))

section
variable (settings : Settings) (slices : Slices) (key : Key)

/-- The connection follows the symbols, if it is there. -/
abbrev Follows (symbols : List String) : List MarketData.Output → Option MarketData → Prop :=
  IfThere (MarketData.Follows settings slices key.kind key.index symbols)

theorem follows_grow (streamId : UInt16) (symbols new : List String) :
    Triple (Follows settings slices key symbols) (grow settings slices key streamId symbols new)
      (Follows settings slices key (symbols ++ new)) :=
  triple_seq (keeps_appear (MarketData.follows_create streamId))
    (triple_lift (MarketData.follows_subscribeFrom new))

theorem follows_turn (streamId : UInt16) (w : World) (e : Event) :
    Triple (Follows settings slices key w.symbols) (turn settings slices key streamId w e)
      (Follows settings slices key (w.symbols ++ fresh w e)) := by
  -- nothing is new, and one of the connections reacts
  have hif : ∀ {p : Prop} [Decidable p] {f : MarketData.Act}, fresh w e = [] →
      Keeps (MarketData.Follows settings slices key.kind key.index w.symbols) f →
      Triple (Follows settings slices key w.symbols) (if p then lift f else skip)
        (Follows settings slices key (w.symbols ++ fresh w e)) := by
    intro p _ f hnone hf
    rw [hnone, List.append_nil]
    split
    · exact triple_lift hf
    · exact keeps_skip _
  cases e with
  | exchangeInfoAck items discard =>
    rw [turn]
    split
    next hnil =>
      rw [hnil, List.append_nil]
      exact keeps_skip _
    next => exact follows_grow settings slices key streamId _ _
  | subscribe symbols => exact follows_grow settings slices key streamId _ _
  | assetIndexAck symbols => exact hif (fresh_none rfl) (MarketData.follows_announce _)
  | ready key' => exact hif (fresh_none rfl) MarketData.follows_onReady
  | disconnected key' => exact hif (fresh_none rfl) MarketData.follows_onDisconnected
  | timer key' n => exact hif (fresh_none rfl) (MarketData.follows_onTimer n)
  | kline index kline => exact hif (fresh_none rfl) (MarketData.follows_onKline kline)
  | restStatus | restTimer | klineAnswer =>
    rw [fresh_none rfl, List.append_nil]
    exact keeps_skip _

/-- The connections of every slice are there, and each follows the symbols. -/
structure Attended (out : List Output) (w : World) : Prop where
  follows : ∀ key, Follows settings slices key w.symbols (out.filterMap (ofKey key)) (view key w)
  there : ∀ key, Reaches settings (slices.count w.symbols.length) key → (view key w).isSome

theorem there_turn (streamId : UInt16) (w : World) (e : Event) (t : Option MarketData)
    (ht : Reaches settings (slices.count w.symbols.length) key → t.isSome)
    (hreaches : Reaches settings (slices.count (w.symbols ++ fresh w e).length) key) :
    (turn settings slices key streamId w e t).1.isSome := by
  have hgrow : (grow settings slices key streamId w.symbols (fresh w e) t).1.isSome := by
    rw [grow, seq_fst, isSome_lift, isSome_appear, decide_eq_true hreaches, Bool.or_true]
  have hskip : fresh w e = [] → t.isSome := by
    intro hnone
    rw [hnone, List.append_nil] at hreaches
    exact ht hreaches
  have hif : ∀ {p : Prop} [Decidable p] {f : MarketData.Act}, fresh w e = [] →
      ((if p then lift f else skip : Action _ _) t).1.isSome := by
    intro p _ f hnone
    split
    · rw [isSome_lift]
      exact hskip hnone
    · exact hskip hnone
  cases e with
  | exchangeInfoAck items discard =>
    rw [turn]
    split
    next hnil => exact hskip hnil
    next => exact hgrow
  | subscribe symbols => exact hgrow
  | restStatus | restTimer | klineAnswer => exact hskip (fresh_none rfl)
  | _ => exact hif (fresh_none rfl)

theorem attended_step (e : Event) : Keeps (Attended settings slices) (step settings slices e) := by
  intro out w h
  have hsymbols := (known_step settings slices e w).2.1
  constructor
  · intro key
    obtain ⟨streamId, hshows⟩ := shows_step settings slices key e w
    rw [hsymbols]
    exact triple_of_shows hshows (follows_turn settings slices key streamId w e) (h.follows key)
  · intro key hreaches
    obtain ⟨streamId, hstate, -⟩ := shows_step settings slices key e w
    rw [hsymbols] at hreaches
    rw [hstate]
    exact there_turn settings slices key streamId w e _ (h.there key) hreaches

theorem attended_run (streamId : UInt16) (es : List Event) :
    Attended settings slices (run (step settings slices) es { streamId }).2
      (run (step settings slices) es { streamId }).1 := by
  refine keeps_run (attended_step settings slices) es [] _ ⟨fun _ => rfl, fun key hreaches => ?_⟩
  -- a list without symbols has no slices
  have hcount : slices.bound key.index < 0 := slices.lt_count.mp hreaches.1
  exact absurd hcount (Nat.not_lt_zero _)

end

/-! ### Channels for trades -/

/-- The connections that subscribe to trades. -/
def tradeKind (settings : Settings) : MarketData.Kind :=
  if settings.ws.subscribeTradeDetails then .primary else .two

/-- How often the trades of the symbol are queued, as such or aggregated. -/
def trades (symbol : String) (out : List MarketData.Output) : ℕ :=
  (named .trade out).count symbol + (named .aggTrade out).count symbol

section
variable {settings : Settings} {slices : Slices}

theorem mem_channels_trade {kind : MarketData.Kind} :
    .trade ∈ kind.channels settings ↔ kind = .primary ∧ settings.ws.subscribeTradeDetails := by
  cases kind <;> simp [MarketData.Kind.channels, MarketData.channels, MarketData.channels2]

theorem mem_channels_aggTrade {kind : MarketData.Kind} :
    .aggTrade ∈ kind.channels settings ↔ kind = .two ∧ ¬ settings.ws.subscribeTradeDetails := by
  cases kind <;> simp [MarketData.Kind.channels, MarketData.channels, MarketData.channels2]

/-- What has been queued in the session of a connection, whether it is there or not. -/
theorem named_session {key : Key} {channel : Channel} {out : List Output} {w : World}
    (h : Follows settings slices key w.symbols (out.filterMap (ofKey key)) (view key w))
    (hchannel : channel ≠ .assetIndex) :
    named channel (session key out)
      = if (view key w).any (·.ready) ∧ channel ∈ key.kind.channels settings
        then slices.slice key.index 0 w.symbols else [] := by
  cases hview : view key w with
  | none =>
    rw [hview] at h
    simp [session, show out.filterMap (ofKey key) = [] from h]
  | some s =>
    rw [hview] at h
    simpa [session] using h.2 channel hchannel

end

/-- Of what is known at the end of a run, everything has been queued where it belongs. -/
structure Subscribed (settings : Settings) (slices : Slices) (es : List Event) (out : List Output)
    (w : World) : Prop where
  /-- What is known is what the events have asked for, each symbol once. -/
  known : w.symbols.Nodup ∧ ∀ symbol, symbol ∈ w.symbols ↔ ∃ e ∈ es, symbol ∈ e.asked
  /-- In the session of a connection that is ready, the symbols of its slice have been queued once on
      each of its channels, and no others. -/
  once : ∀ key s, view key w = some s → s.ready → ∀ channel ∈ key.kind.channels settings, ∀ symbol,
    (named channel (session key out)).count symbol
      = if symbol ∈ slices.slice key.index 0 w.symbols then 1 else 0
  /-- Nothing has been queued for a connection that is not ready. -/
  idle : ∀ key s, view key w = some s → ¬ s.ready → ∀ channel, channel ≠ .assetIndex →
    named channel (session key out) = []
  /-- Every symbol is in one slice, and the connections of the slice are there. -/
  attended : ∀ symbol ∈ w.symbols, ∃! i, symbol ∈ slices.slice i 0 w.symbols ∧
    ∀ kind, (kind = .secondary → settings.ws.enableSecondary) → (view ⟨kind, i⟩ w).isSome
  /-- The trades of a symbol have been queued for one connection, once in its session, and for none of
      the others. -/
  traded : ∀ symbol ∈ w.symbols, ∃ i s, view ⟨tradeKind settings, i⟩ w = some s ∧
    ∀ key, trades symbol (session key out)
      = if key = ⟨tradeKind settings, i⟩ ∧ s.ready then 1 else 0

section
variable (settings : Settings) (slices : Slices) {out : List Output} {w : World}

theorem once_of_attended (hattended : Attended settings slices out w) (hnodup : w.symbols.Nodup)
    {key : Key} {channel : Channel} (hchannel : channel ≠ .assetIndex) (symbol : String) :
    (named channel (session key out)).count symbol
      = if ((view key w).any (·.ready) ∧ channel ∈ key.kind.channels settings)
          ∧ symbol ∈ slices.slice key.index 0 w.symbols then 1 else 0 := by
  rw [named_session (hattended.follows key) hchannel]
  by_cases hon : (view key w).any (·.ready) ∧ channel ∈ key.kind.channels settings
  · rw [if_pos hon, (slices.nodup_slice hnodup).count]
    simp [hon]
  · simp [hon]

/-- The connections for trades: one for each symbol. -/
theorem traded_of_attended (hattended : Attended settings slices out w) (hnodup : w.symbols.Nodup)
    {symbol : String} (hsymbol : symbol ∈ w.symbols) :
    ∃ i s, view ⟨tradeKind settings, i⟩ w = some s ∧ ∀ key, trades symbol (session key out)
      = if key = ⟨tradeKind settings, i⟩ ∧ s.ready then 1 else 0 := by
  obtain ⟨i, hcount, hslice⟩ := slices.exists_slice hsymbol
  have hkind : tradeKind settings ≠ .secondary := by
    unfold tradeKind
    split <;> simp
  obtain ⟨s, hview⟩ := Option.isSome_iff_exists.mp
    (hattended.there ⟨tradeKind settings, i⟩ ⟨hcount, fun h => absurd h hkind⟩)
  -- of the kind for trades, only the connection of the slice has the symbol
  have honly : ∀ key : Key, ((view key w).any (·.ready) ∧ key.kind = tradeKind settings)
      ∧ symbol ∈ slices.slice key.index 0 w.symbols ↔ key = ⟨tradeKind settings, i⟩ ∧ s.ready := by
    rintro ⟨kind, index⟩
    constructor
    · rintro ⟨⟨hready, rfl⟩, hmem⟩
      obtain rfl : index = i := slices.slice_unique hnodup hmem hslice
      rw [hview] at hready
      exact ⟨rfl, hready⟩
    · rintro ⟨heq, hready⟩
      obtain ⟨rfl, rfl⟩ := Key.mk.inj heq
      rw [hview]
      exact ⟨⟨hready, rfl⟩, hslice⟩
  refine ⟨i, s, hview, fun key => ?_⟩
  rw [trades, once_of_attended settings slices hattended hnodup (by simp),
    once_of_attended settings slices hattended hnodup (by simp)]
  refine Eq.trans ?_ (if_congr (honly key) rfl rfl)
  simp only [mem_channels_trade, mem_channels_aggTrade, tradeKind]
  by_cases hdetails : settings.ws.subscribeTradeDetails <;> simp [hdetails]

theorem subscribed_of_attended {es : List Event} (hattended : Attended settings slices out w)
    (hnodup : w.symbols.Nodup) (hasked : ∀ symbol, symbol ∈ w.symbols ↔ ∃ e ∈ es, symbol ∈ e.asked) :
    Subscribed settings slices es out w where
  known := ⟨hnodup, hasked⟩
  once key s hview hready channel hchannel symbol := by
    have hasset : channel ≠ .assetIndex := by
      rintro rfl
      obtain ⟨kind, index⟩ := key
      cases kind <;>
        simp [MarketData.Kind.channels, MarketData.channels, MarketData.channels2] at hchannel
    rw [once_of_attended settings slices hattended hnodup hasset, hview]
    simp [hready, hchannel]
  idle key s hview hready channel hchannel := by
    rw [named_session (hattended.follows key) hchannel, hview]
    simp [hready]
  attended symbol hsymbol := by
    obtain ⟨i, hcount, hslice⟩ := slices.exists_slice hsymbol
    refine ⟨i, ⟨hslice, fun kind hkind => hattended.there ⟨kind, i⟩ ⟨hcount, hkind⟩⟩, ?_⟩
    rintro j ⟨hj, -⟩
    exact slices.slice_unique hnodup hj hslice
  traded symbol hsymbol := traded_of_attended settings slices hattended hnodup hsymbol

/-- In every state that a run reaches, whatever the order of its events: what has been asked for is known,
    each connection that is ready has queued its symbols once in its session, and each symbol is traded on
    one connection. -/
theorem subscribed_run (streamId : UInt16) (es : List Event) :
    Subscribed settings slices es (run (step settings slices) es { streamId }).2
      (run (step settings slices) es { streamId }).1 :=
  subscribed_of_attended settings slices (attended_run settings slices streamId es)
    (registered_run settings slices streamId es).nodup (mem_symbols_run settings slices streamId es)

end

/-- The exchange lists an instrument, the primary connection becomes ready, and then the client asks for
    another instrument. -/
def askedLate : List Event := [
  .exchangeInfoAck [{ symbol := "BTCUSDT" }] fun _ => false, .ready ⟨.primary, 0⟩,
  .subscribe ["ethusdt"]]

/-- Both have been queued once for the quotes of the connection. -/
theorem askedLate_queued : ∀ symbol ∈ ["btcusdt", "ethusdt"],
    (named .bookTicker (session ⟨.primary, 0⟩
      (run (step {} (Slices.evenly 40 (by decide))) askedLate {}).2)).count symbol = 1 := by
  have hready : (view ⟨.primary, 0⟩ (run (step {} (Slices.evenly 40 (by decide))) askedLate {}).1).any
      (·.ready) = true := by decide
  have hslice : (Slices.evenly 40 (by decide)).slice 0 0
      (run (step {} (Slices.evenly 40 (by decide))) askedLate {}).1.symbols
        = ["btcusdt", "ethusdt"] := by decide
  intro symbol hsymbol
  obtain ⟨s, hview, hs⟩ := (Option.any_eq_true _ _).mp hready
  rw [(subscribed_run {} (Slices.evenly 40 (by decide)) 0 askedLate).once ⟨.primary, 0⟩ s hview hs
    .bookTicker (by decide) symbol, hslice, if_pos hsymbol]

end Market
end BinanceFutures
