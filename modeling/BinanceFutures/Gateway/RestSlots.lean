import BinanceFutures.Gateway.Batches

/-! # Slots served over REST

    A slot that `check_request_queue` serves is in flight until an answer commits it. `Settled` says
    that this cannot go wrong: whatever is in flight waits for an answer that is still outstanding, and
    an answer commits no slot but its own.

        served ──▶ in flight ── the last answer of the batch ──▶ committed

    The callbacks of `stale_orders` and `trades` may issue no request at all; then the slot is in flight
    with nothing to wait for. `settled_iff` says that nothing else goes wrong. -/

namespace BinanceFutures.RestStream
open Machine

section
variable {R : LimitRequest} (settings : Settings)

/-- The slot's last batch has an answer outstanding. -/
def Waiting (out : List Output) (w : World R) (c : Slot) : Prop :=
  ∃ n ∈ lastBatch c out, ∃ call, (n, call) ∈ w.stream.calls.entries

/-- Unless the process has ended: a slot of the stream in flight has an answer of its last batch
    outstanding, and no answer has committed a slot but its own. -/
def Settled (out : List Output) (s : World R × Bool) : Prop :=
  s.2 = true ∨
    (∀ c ∈ s.1.stream.kind.slots, s.1.request.inFlight c = true → Waiting out s.1 c) ∧
      ∀ c call, Output.commit c call ∈ out → call.slot = some c

/-- The callback of the slot issues a request. -/
def Asks (d : Dispatcher) (w : World R) : Slot → Prop
  | .staleOrders => ∃ key ∈ w.request.detailsStaleOrders, (d.findOrderById key.1 key.2).isSome = true
  | .trades => w.stream.kind ≠ .restTrade ∧ settings.download.symbols ≠ []
  | _ => True

/-- Every callback that the turn runs issues a request. -/
def Issues (s : World R × Bool) : Turn → Prop
  | .own (.timer now refresh gate d) => s.2 = false → refresh = true → isReady s.1 = true →
    ∀ c ∈ s.1.stream.kind.slots, s.1.request.served c now (gate c) = true → Asks settings d s.1 c
  | _ => True

/-- A timer that serves no stale orders issues requests, if it serves no trades or can ask for them. -/
theorem issues_timer {w : World R} {now : Nanos} {refresh : Bool} {gate : Slot → Bool} {d : Dispatcher}
    (hstale : w.request.served .staleOrders now (gate .staleOrders) = false)
    (htrades : w.stream.kind ≠ .restTrade ∧ settings.download.symbols ≠ [] ∨
      w.request.served .trades now (gate .trades) = false) :
    Issues settings (w, false) (.own (.timer now refresh gate d)) := by
  rintro - - - c - hserved
  cases c with
  | balances | positions | positionsPm | openOrders => trivial
  | trades => exact htrades.resolve_right (by simp [hserved])
  | staleOrders =>
    rw [hstale] at hserved
    cases hserved

/-! ### The invariant -/

/-- The invariant. `owed` is the slot of a call whose answer is being handled and has not committed
    yet. -/
structure Sound (kind : Kind) (owed : Option Slot) (out : List Output) (w : World R) : Prop where
  kind_eq : w.stream.kind = kind
  /-- A slot in flight waits. -/
  waits : ∀ c ∈ kind.slots, some c ≠ owed → w.request.inFlight c = true → Waiting out w c
  /-- A batch is of its slot. -/
  own : ∀ c n call, n ∈ lastBatch c out → (n, call) ∈ w.stream.calls.entries → call.slot = some c
  /-- A batch has been issued. -/
  old : ∀ c n, n ∈ lastBatch c out → n < w.stream.calls.next
  /-- The counter counts the outstanding stale orders. -/
  counter : w.stream.downloadStaleOrdersCounter =
    w.stream.calls.count (onSlot .staleOrders) + if owed = some .staleOrders then 1 else 0
  /-- No stale order is outstanding unless the slot is in flight. -/
  idle : w.request.inFlight .staleOrders = false → w.stream.downloadStaleOrdersCounter = 0
  /-- The outstanding stale orders are of the last batch. -/
  batch : ∀ n call, (n, call) ∈ w.stream.calls.entries → call.slot = some .staleOrders →
    n ∈ lastBatch .staleOrders out
  /-- `RestTrade` asks for no trades. -/
  noTrades : kind = .restTrade → owed ≠ some .trades ∧
    ∀ n call, (n, call) ∈ w.stream.calls.entries → call.slot ≠ some .trades
  commits : ∀ c call, Output.commit c call ∈ out → call.slot = some c

variable {kind : Kind} {owed : Option Slot}

theorem Sound.tallied {out : List Output} {w : World R} (h : Sound kind owed out w) :
    Tallied kind owed out w where
  kind_eq := h.kind_eq
  counter := h.counter
  batched := {
    own := h.own
    old := h.old
    batch := h.batch
    idle := by
      intro hflight
      have hcounter := h.counter
      rw [h.idle hflight] at hcounter
      have hzero : w.stream.calls.count (onSlot .staleOrders) = 0 := by omega
      refine ⟨fun howed => ?_, count_onSlot_eq_zero.mp hzero⟩
      rw [if_pos howed] at hcounter
      omega }

/-- The invariant is what is said of the stale orders, and more about the others. -/
theorem sound_of_tallied {out : List Output} {w : World R} (h : Tallied kind owed out w)
    (hwaits : ∀ c ∈ kind.slots, some c ≠ owed → w.request.inFlight c = true → Waiting out w c)
    (hnoTrades : kind = .restTrade → owed ≠ some .trades ∧
      ∀ n call, (n, call) ∈ w.stream.calls.entries → call.slot ≠ some .trades)
    (hcommits : ∀ c call, Output.commit c call ∈ out → call.slot = some c) : Sound kind owed out w where
  kind_eq := h.kind_eq
  waits := hwaits
  own := h.batched.own
  old := h.batched.old
  counter := h.counter
  idle := by
    intro hflight
    obtain ⟨howed, hnone⟩ := h.batched.idle hflight
    rw [h.counter, count_onSlot_eq_zero.mpr hnone, if_neg howed]
  batch := h.batched.batch
  noTrades := hnoTrades
  commits := hcommits

/-- What has nothing to do with slots does no harm. -/
theorem sound_of_tame {loud : Bool} {f : Act R} (hf : Tame loud f) : Keeps (Sound kind owed) f := by
  intro out w h
  have haside := hf.aside w
  refine sound_of_tallied ((tallied_kept kind).tame hf owed out w h.tallied) ?_ ?_ ?_
  · intro c hc howed hflight
    rw [haside.request_eq] at hflight
    obtain ⟨n, hn, call, hmem⟩ := h.waits c hc howed hflight
    rw [Waiting, lastBatch_quiet c fun o ho => quiet_of_ordinary (haside.ordinary o ho), haside.calls_eq]
    exact ⟨n, hn, call, Ledger.mem_enterAll_of_mem hmem _⟩
  · intro hkind
    refine ⟨(h.noTrades hkind).1, fun n call hmem => ?_⟩
    rw [haside.calls_eq] at hmem
    rcases Ledger.mem_enterAll hmem with hold | ⟨-, hnew⟩
    · exact (h.noTrades hkind).2 n call hold
    · rw [slot_of_ordinary haside.ordinary hnew]
      nofun
  · intro c call hmem
    rcases List.mem_append.mp hmem with hold | hnew
    · exact h.commits c call hold
    · exact absurd (haside.ordinary _ hnew) (by simp [Output.ordinary])

/-! ### Answers -/

/-- The answered call leaves the ledger, and its slot is owed a commit. -/
theorem settle_sound {n : ℕ} {call : Call} {out : List Output} {w : World R}
    (h : Sound kind none out w) (hmem : (n, call) ∈ w.stream.calls.entries) :
    Sound kind call.slot out { w with stream.calls := w.stream.calls.settle n } := by
  refine sound_of_tallied ((tallied_kept kind).settle h.tallied hmem) ?_ ?_ h.commits
  · intro c hc howed hflight
    obtain ⟨n', hn', call', hmem'⟩ := h.waits c hc (by simp) hflight
    refine ⟨n', hn', call', Ledger.mem_settle.mpr ⟨hmem', ?_⟩⟩
    -- were it the answered call, the slot would be the one that is owed
    rintro rfl
    rw [← h.own c n' call hn' hmem] at howed
    exact howed rfl
  · intro hkind
    exact ⟨(h.noTrades hkind).2 n call hmem,
      fun n' call' hmem' => (h.noTrades hkind).2 n' call' (Ledger.mem_settle.mp hmem').1⟩

/-- The commit of the slot that is owed, where it leaves the stale orders as they should be. -/
theorem commit_sound {c : Slot} {call : Call} (hcall : call.slot = some c) (now : Nanos)
    {out : List Output} {w w₁ : World R} (h : Sound kind call.slot out w)
    (hcalls : w₁.stream.calls = w.stream.calls) (hrequest : w₁.request = w.request)
    (htallied : Tallied kind none (out ++ (commit c call now w₁).2) (commit c call now w₁).1) :
    Sound kind none (out ++ (commit c call now w₁).2) (commit c call now w₁).1 := by
  refine sound_of_tallied htallied ?_ (fun hkind => ⟨nofun, ?_⟩) ?_
  · intro c' hc' _ hflight
    simp only [commit, Request.inFlight_commit, Bool.and_eq_true, decide_eq_true_eq, hrequest] at hflight
    have hbatch : lastBatch c' (out ++ (commit c call now w₁).2) = lastBatch c' out :=
      lastBatch_commit c' out c call
    rw [Waiting, hbatch, commit, hcalls]
    exact h.waits c' hc' (by rw [hcall]; simpa using hflight.2) hflight.1
  · rw [commit, hcalls]
    exact (h.noTrades hkind).2
  · intro c' call' hmem
    rcases List.mem_append.mp hmem with hold | hnew
    · exact h.commits c' call' hold
    · simp only [commit, List.mem_singleton, Output.commit.injEq] at hnew
      obtain ⟨rfl, rfl⟩ := hnew
      exact hcall

/-- The commit of the last stale order, or one answer fewer to wait for. -/
theorem orderAnswered_sound {call : Call} (hcall : call.slot = some .staleOrders) (now : Nanos)
    {out : List Output} {w : World R} (h : Sound kind call.slot out w)
    (htallied : Tallied kind none (out ++ (orderAnswered call now w).2) (orderAnswered call now w).1) :
    Sound kind none (out ++ (orderAnswered call now w).2) (orderAnswered call now w).1 := by
  unfold orderAnswered at htallied ⊢
  dsimp only at htallied ⊢
  split
  next hzero =>
    rw [if_pos hzero] at htallied
    exact commit_sound hcall now h rfl rfl htallied
  next hpos =>
    rw [if_neg hpos] at htallied
    rw [List.append_nil] at htallied ⊢
    refine sound_of_tallied htallied ?_ (fun hkind => ⟨nofun, (h.noTrades hkind).2⟩) h.commits
    intro c' hc' _ hflight
    by_cases hstale : c' = .staleOrders
    · -- others are outstanding, all of them of the last batch
      have hcounter := htallied.counter
      rw [if_neg nofun, Nat.add_zero] at hcounter
      have hcount : 0 < w.stream.calls.count (onSlot .staleOrders) := by
        rw [← hcounter]
        exact Nat.pos_of_ne_zero hpos
      obtain ⟨n, call', hmem, hslot⟩ := Ledger.count_pos.mp hcount
      rw [hstale]
      exact ⟨n, h.batch n call' hmem (by simpa [onSlot] using hslot), call', hmem⟩
    · exact h.waits c' hc' (by rw [hcall]; simpa using hstale) hflight

/-- What is owed for an answer is paid at the end of the callback. -/
theorem closing_sound (k : Kind) (now : Nanos) (call : Call) :
    Triple (Sound (R := R) k call.slot) (closing k now call) (Sound k none) := by
  intro out w h
  have htallied := (tallied_kept k).closing now call out w h.tallied
  cases call with
  | accountBalance polling =>
    cases polling with
    | true => exact keeps_skip _ out w h
    | false => exact commit_sound rfl now h rfl rfl htallied
  | accountStatus | position | openOrders => exact commit_sound rfl now h rfl rfl htallied
  | order clientOrderId => exact orderAnswered_sound rfl now h htallied
  | userTrades symbol =>
    have hkind : k ≠ .restTrade := fun hkind => (h.noTrades hkind).1 rfl
    have hslot : tradesSlot k = .trades := by cases k <;> first | rfl | exact absurd rfl hkind
    rw [closing, hslot] at htallied ⊢
    exact commit_sound rfl now h rfl rfl htallied
  | listenKey | orderPlace | orderModify | orderCancel | allOpenOrders | countdownCancelAll =>
    exact keeps_skip _ out w h

theorem sound_of_request {out : List Output} {w : World R} {q : Request R} (h : Sound kind none out w)
    (hin : ∀ c ∈ kind.slots, q.inFlight c = w.request.inFlight c) :
    Sound kind none out { w with request := q } := by
  refine sound_of_tallied ((tallied_kept kind).request h.tallied hin) ?_ h.noTrades h.commits
  intro c hc howed hflight
  exact h.waits c hc howed (by rw [← hin c hc]; exact hflight)

theorem sound_kept (kind : Kind) : Kept (R := R) kind (Sound kind) where
  kind_eq h := h.kind_eq
  tame hf _ := sound_of_tame hf
  request := sound_of_request
  settle := settle_sound
  closing := closing_sound kind

/-! ### Callbacks -/

theorem batchSize_pos {d : Dispatcher} {w : World R} {c : Slot} :
    0 < batchSize settings d w c ↔ Asks settings d w c := by
  cases c with
  | staleOrders => simp [batchSize, Asks, List.countP_pos_iff]
  | trades =>
    by_cases hkind : w.stream.kind = .restTrade
    · simp [batchSize, Asks, hkind]
    · simp [batchSize, Asks, hkind, List.length_pos_iff]
  | balances | positions | positionsPm | openOrders => simp [batchSize, Asks]

/-- Serving a slot whose callback asks for something. -/
theorem served_sound {c : Slot} {d : Dispatcher} {out : List Output} {w : World R} {now : Nanos}
    {gate : Bool} (h : Sound kind none out w) (hserved : w.request.served c now gate = true)
    (hasks : Asks settings d { w with request := w.request.checkPending c now gate } c) :
    let r := serve settings kind d c { w with request := w.request.checkPending c now gate }
    Sound kind none (out ++ (r.2 ++ [.callback c (issued w.stream.calls r.1.stream.calls)])) r.1 := by
  intro r
  have hr := serve_served settings d c { w with request := w.request.checkPending c now gate }
  rw [h.kind_eq] at hr
  refine sound_of_tallied ((tallied_steady settings kind).served h.tallied hserved) ?_ ?_ ?_
  · intro c' hc' howed hflight
    rw [Waiting, ← List.append_assoc, lastBatch_callback, lastBatch_quiet c' hr.quiet]
    have hslot : r.1.request.inFlight c' = (w.request.checkPending c now gate).inFlight c' := by
      rw [Request.inFlight, hr.slot_eq]; rfl
    by_cases hcc : c = c'
    · -- the callback has asked for something, and nobody has answered yet
      have hpos := (batchSize_pos settings).mpr hasks
      have hnext := hr.next_eq
      have hlt : w.stream.calls.next < r.1.stream.calls.next := by
        rw [hnext]
        exact Nat.lt_add_of_pos_right hpos
      obtain ⟨call, hmem⟩ := hr.all w.stream.calls.next (le_refl _) hlt
      rw [if_pos hcc]
      refine ⟨_, ?_, call, hmem⟩
      rw [issued, List.mem_range'_1]
      omega
    · rw [hslot, Request.inFlight_checkPending, decide_eq_false (Ne.symm hcc), Bool.false_and,
        Bool.or_false] at hflight
      obtain ⟨n, hn, call, hmem⟩ := h.waits c' hc' howed hflight
      rw [if_neg hcc]
      exact ⟨n, hn, call, hr.old _ hmem⟩
  · intro hkind
    refine ⟨by simp, fun n call hmem hslot => ?_⟩
    rcases hr.new n call hmem with hold | ⟨-, hnew⟩
    · exact (h.noTrades hkind).2 n call hold hslot
    · -- the callback of the trades has asked for nothing
      rw [hslot] at hnew
      obtain rfl := Option.some.inj hnew
      exact hasks.1 (h.kind_eq.trans hkind)
  · intro c' call hmem
    rcases List.mem_append.mp hmem with hold | hnew
    · exact h.commits c' call hold
    · rcases List.mem_append.mp hnew with hmid | hlast
      · exact absurd (hr.quiet _ hmid) (by simp [Output.quiet])
      · simp at hlast

/-- Checking a slot keeps the invariant, if the callback asks for something when it runs. -/
theorem checkPending_sound (now : Nanos) (gate : Slot → Bool) (d : Dispatcher) (c : Slot)
    {out : List Output} {w : World R} (h : Sound kind none out w)
    (hasks : w.request.served c now (gate c) = true → Asks settings d w c) :
    Sound kind none (out ++ (checkPending settings kind now gate d c w).2)
      (checkPending settings kind now gate d c w).1 := by
  unfold checkPending
  dsimp only
  split
  next hserved =>
    have hsame : Asks settings d { w with request := w.request.checkPending c now (gate c) } c ↔
        Asks settings d w c := by cases c <;> exact Iff.rfl
    exact served_sound settings h hserved (hsame.mpr (hasks hserved))
  next hserved =>
    rw [List.append_nil]
    refine sound_of_request h fun c' _ => ?_
    rw [Request.inFlight_checkPending, Bool.eq_false_iff.mpr hserved, Bool.and_false, Bool.or_false]

/-! ### The queue -/

/-- Checking one slot leaves the others as they are. -/
theorem checkPending_frame (now : Nanos) (gate : Slot → Bool) (d : Dispatcher) {c c' : Slot}
    (hne : c' ≠ c) (w : World R) :
    (checkPending settings w.stream.kind now gate d c w).1.stream.kind = w.stream.kind ∧
    (checkPending settings w.stream.kind now gate d c w).1.request.slot c' = w.request.slot c' ∧
    (c ≠ .staleOrders →
      (checkPending settings w.stream.kind now gate d c w).1.request.detailsStaleOrders
        = w.request.detailsStaleOrders) := by
  have hslot : (w.request.checkPending c now (gate c)).slot c' = w.request.slot c' := by
    simp [Request.checkPending, hne]
  unfold checkPending
  dsimp only
  split
  · have hserve := serve_served settings d c { w with request := w.request.checkPending c now (gate c) }
    exact ⟨hserve.kind_eq, by rw [hserve.slot_eq]; exact hslot, hserve.details_eq⟩
  · exact ⟨rfl, hslot, fun _ => rfl⟩

/-- What another slot does next does not depend on the slot just checked. -/
theorem asks_checkPending (now : Nanos) (gate : Slot → Bool) (d : Dispatcher) {c c' : Slot}
    (hne : c' ≠ c) (w : World R) :
    let w' := (checkPending settings w.stream.kind now gate d c w).1
    (w'.request.served c' now (gate c') = w.request.served c' now (gate c')) ∧
      (Asks settings d w' c' ↔ Asks settings d w c') := by
  obtain ⟨hkind, hslot, hdetails⟩ := checkPending_frame settings now gate d hne w
  refine ⟨by rw [Request.served, hslot]; rfl, ?_⟩
  cases c' with
  | staleOrders => rw [Asks, Asks, hdetails (Ne.symm hne)]
  | trades => rw [Asks, Asks, hkind]
  | balances | positions | positionsPm | openOrders => exact Iff.rfl

theorem queue_sound (now : Nanos) (gate : Slot → Bool) (d : Dispatcher) : ∀ {cs : List Slot},
    cs.Nodup → ∀ {out : List Output} {w : World R}, Sound kind none out w →
      (∀ c ∈ cs, w.request.served c now (gate c) = true → Asks settings d w c) →
      Sound kind none (out ++ (seqAll (cs.map (checkPending settings kind now gate d)) w).2)
        (seqAll (cs.map (checkPending settings kind now gate d)) w).1
  | [], _, out, w, h, _ => by simpa [seqAll] using h
  | c :: cs, hnodup, out, w, h, hasks => by
      obtain ⟨hc, hcs⟩ := List.nodup_cons.mp hnodup
      have hhead := checkPending_sound settings now gate d c h (hasks c (List.mem_cons_self ..))
      have htail := queue_sound now gate d hcs hhead (fun c' hc' hserved => by
        have hne : c' ≠ c := fun heq => hc (heq ▸ hc')
        have hsame := asks_checkPending settings now gate d hne w
        rw [h.kind_eq] at hsame
        exact hsame.2.mpr (hasks c' (List.mem_cons_of_mem _ hc') (by rw [← hsame.1]; exact hserved)))
      rw [List.append_assoc] at htail
      exact htail

/-- The slot is in flight, and its last callback has asked for nothing. -/
def Stuck (kind : Kind) (c : Slot) (out : List Output) (w : World R) : Prop :=
  w.stream.kind = kind ∧ w.request.inFlight c = true ∧ lastBatch c out = []

theorem stuck_checkPending (now : Nanos) (gate : Slot → Bool) (d : Dispatcher) {c c' : Slot}
    (hne : c' ≠ c) : Keeps (Stuck (R := R) kind c')
      (checkPending settings kind now gate d c) := by
  rintro out w ⟨hkind, hflight, hbatch⟩
  have hframe := checkPending_frame settings now gate d hne w
  rw [hkind] at hframe
  refine ⟨hframe.1, by rw [Request.inFlight, hframe.2.1]; exact hflight, ?_⟩
  unfold checkPending
  dsimp only
  split
  · have hserve := serve_served settings d c { w with request := w.request.checkPending c now (gate c) }
    rw [hkind] at hserve
    rw [← List.append_assoc, lastBatch_callback, if_neg (Ne.symm hne), lastBatch_quiet c' hserve.quiet]
    exact hbatch
  · rw [List.append_nil]
    exact hbatch

/-- A callback that asks for nothing leaves its slot stuck. -/
theorem stuck_of_served (now : Nanos) (gate : Slot → Bool) (d : Dispatcher) (c : Slot)
    (out : List Output) {w : World R} (hkind : w.stream.kind = kind)
    (hserved : w.request.served c now (gate c) = true) (hasks : ¬ Asks settings d w c) :
    Stuck kind c (out ++ (checkPending settings kind now gate d c w).2)
      (checkPending settings kind now gate d c w).1 := by
  have hserve := serve_served settings d c { w with request := w.request.checkPending c now (gate c) }
  have hzero : batchSize settings d { w with request := w.request.checkPending c now (gate c) } c = 0 := by
    by_contra hne
    exact hasks ((batchSize_pos settings).mp (Nat.pos_of_ne_zero hne))
  rw [hkind, hzero] at hserve
  unfold checkPending
  simp only [hserved, if_true]
  refine ⟨hserve.kind_eq.trans hkind, ?_, ?_⟩
  · rw [Request.inFlight, hserve.slot_eq]
    have hflight := Request.inFlight_checkPending w.request c c now (gate c)
    rw [hserved] at hflight
    simpa [Request.inFlight] using hflight
  · rw [← List.append_assoc, lastBatch_callback, if_pos rfl, issued, hserve.next_eq]
    simp

theorem queue_stuck (now : Nanos) (gate : Slot → Bool) (d : Dispatcher) {c : Slot} :
    ∀ {cs : List Slot}, cs.Nodup → c ∈ cs → ∀ (out : List Output) {w : World R},
      w.stream.kind = kind → w.request.served c now (gate c) = true → ¬ Asks settings d w c →
      Stuck kind c (out ++ (seqAll (cs.map (checkPending settings kind now gate d)) w).2)
        (seqAll (cs.map (checkPending settings kind now gate d)) w).1
  | c' :: cs, hnodup, hmem, out, w, hkind, hserved, hasks => by
      obtain ⟨hc', hcs⟩ := List.nodup_cons.mp hnodup
      rw [List.map_cons, seqAll, seq_fst, seq_snd, ← List.append_assoc]
      by_cases heq : c = c'
      · -- stuck at the head, and the rest of the queue is about other slots
        subst heq
        refine keeps_map (fun c'' hc'' => ?_) _ _ (stuck_of_served settings now gate d c out hkind
          hserved hasks)
        exact stuck_checkPending settings now gate d fun heq => hc' (heq ▸ hc'')
      · have hsame := asks_checkPending settings now gate d heq w
        have hframe := checkPending_frame settings now gate d heq w
        rw [hkind] at hsame hframe
        exact queue_stuck now gate d hcs ((List.mem_cons.mp hmem).resolve_left heq) _ hframe.1
          (by rw [hsame.1]; exact hserved) fun h => hasks (hsame.2.mp h)

/-! ### Events -/

theorem nodup_slots (k : Kind) : k.slots.Nodup := by cases k <;> decide

/-- What a callback will ask for does not depend on what the timer does before the queue. -/
theorem asks_beforeQueue (now : Nanos) (k : Kind) (d : Dispatcher) (w : World R) (c : Slot) :
    Asks settings d (beforeQueue settings now k w).1 c ↔ Asks settings d w c := by
  have haside := (tame_beforeQueue (R := R) settings false now k).aside w
  cases c with
  | staleOrders => rw [Asks, Asks, haside.request_eq]
  | trades => rw [Asks, Asks, haside.kind_eq]
  | balances | positions | positionsPm | openOrders => exact Iff.rfl

theorem timer_sound (now : Nanos) (refresh : Bool) (gate : Slot → Bool) (d : Dispatcher)
    {out : List Output} {w : World R} (h : Sound kind none out w)
    (hissues : Issues settings (w, false) (.own (.timer now refresh gate d))) :
    Sound kind none (out ++ (turn settings (.own (.timer now refresh gate d)) w).2)
      (turn settings (.own (.timer now refresh gate d)) w).1 := by
  simp only [turn, step, guarded, h.kind_eq, timer_eq]
  split
  next hready =>
    rw [Bool.and_eq_true] at hready
    have hbefore := tame_beforeQueue (R := R) settings false now kind
    have hqueue := queue_sound settings now gate d (nodup_slots kind)
      (sound_of_tame hbefore out w h) (fun c hc hserved => by
        rw [(hbefore.aside w).request_eq] at hserved
        have hasks := hissues rfl hready.1 hready.2 c (by rw [h.kind_eq]; exact hc) hserved
        exact (asks_beforeQueue settings now kind d w c).mpr hasks)
    rw [List.append_assoc] at hqueue
    exact hqueue
  next =>
    rw [List.append_nil]
    exact h

theorem turn_sound (e : Turn) {out : List Output} {w : World R} (h : Sound kind none out w)
    (hissues : Issues settings (w, false) e) :
    Output.fatal ∈ (turn settings e w).2 ∨
      Sound kind none (out ++ (turn settings e w).2) (turn settings e w).1 := by
  cases htimed : e.timed with
  | false => exact (sound_kept kind).turn htimed out w h
  | true =>
    cases e with
    | own e =>
      cases e with
      | timer now refresh gate d => exact Or.inr (timer_sound settings now refresh gate d h hissues)
      | _ => cases htimed
    | _ => cases htimed

/-- Only a timer runs callbacks. -/
theorem timed_of_not_issues {s : World R × Bool} {e : Turn} (hissues : ¬ Issues settings s e) :
    ∃ now refresh gate d, e = .own (.timer now refresh gate d) := by
  cases e with
  | own e =>
    cases e with
    | timer now refresh gate d => exact ⟨now, refresh, gate, d, rfl⟩
    | _ => exact absurd trivial hissues
  | _ => exact absurd trivial hissues

theorem turn_stuck (e : Turn) {out : List Output} {w : World R} (h : Sound kind none out w)
    (hissues : ¬ Issues settings (w, false) e) :
    ∃ c ∈ kind.slots, Stuck kind c (out ++ (turn settings e w).2) (turn settings e w).1 := by
  obtain ⟨now, refresh, gate, d, rfl⟩ := timed_of_not_issues settings hissues
  simp only [Issues, not_forall] at hissues
  obtain ⟨-, hrefresh, hready, c, hc, hserved, hasks⟩ := hissues
  rw [h.kind_eq] at hc
  refine ⟨c, hc, ?_⟩
  have haside := (tame_beforeQueue (R := R) settings false now kind).aside w
  have hstuck := queue_stuck settings now gate d (nodup_slots kind) hc
    (out ++ (beforeQueue settings now kind w).2) (haside.kind_eq.trans h.kind_eq)
    (by rw [haside.request_eq]; exact hserved)
    (fun hasks' => hasks ((asks_beforeQueue settings now kind d w c).mp hasks'))
  rw [List.append_assoc] at hstuck
  simp only [turn, step, guarded, h.kind_eq, timer_eq, hrefresh, hready, Bool.and_self, if_true]
  exact hstuck

theorem issues_of_dead (w : World R) (e : Turn) : Issues settings (w, true) e := by
  by_contra hissues
  obtain ⟨now, refresh, gate, d, rfl⟩ := timed_of_not_issues settings hissues
  exact hissues fun hdead => by cases hdead

/-- A turn on which a callback asks for nothing does not end the process. -/
theorem alive_of_not_issues {e : Turn} {w : World R} (hissues : ¬ Issues settings (w, false) e) :
    (turn settings e w).2.any kills = false := by
  obtain ⟨now, refresh, gate, d, rfl⟩ := timed_of_not_issues settings hissues
  rw [List.any_eq_false]
  intro o ho hkills
  obtain rfl : o = .fatal := by simpa [kills] using hkills
  simp only [turn, step, guarded] at ho
  split at ho
  · exact absurd rfl (timely_timer settings now gate d _ w _ ho)
  · cases ho

theorem sound_create (kind : Kind) (account : String) :
    Sound kind none [] (create (R := R) kind account {}) where
  kind_eq := rfl
  waits c _ _ hflight := by simp [create] at hflight
  own c n call hn := by simp at hn
  old c n hn := by simp at hn
  counter := rfl
  idle _ := rfl
  batch n call hmem := by simp [create, Ledger.empty] at hmem
  noTrades _ := ⟨by simp, fun n call hmem => by simp [create, Ledger.empty] at hmem⟩
  commits c call hmem := by simp at hmem

/-- EXACT: in every state that a run of a stream reaches, whatever slot of the stream is in flight waits
    for an outstanding answer of its own, and answers have committed no slot but their own, exactly if
    every callback that ran has issued a request. -/
theorem settled_iff (kind : Kind) (account : String) (es : List Turn) :
    (∀ pre, pre <+: es →
      Settled (run (mortal kills (turn settings)) pre (create (R := R) kind account {}, false)).2
        (run (mortal kills (turn settings)) pre (create (R := R) kind account {}, false)).1)
    ↔ Along (mortal kills (turn settings)) (Issues settings) es
        (create (R := R) kind account {}, false) := by
  let I : List Output → World R × Bool → Prop := fun out s => s.2 = true ∨ Sound kind none out s.1
  refine exact_condition (I := I) ?_ ?_ ?_ (Or.inr (sound_create kind account)) es
  · rintro out ⟨w, dead⟩ e hI hissues
    cases dead with
    | true => exact Or.inl rfl
    | false =>
      have hw := hI.resolve_left (by simp)
      rcases turn_sound settings e hw hissues with hfatal | hsound
      · exact Or.inl (List.any_eq_true.mpr ⟨_, hfatal, by simp [kills]⟩)
      · exact Or.inr hsound
  · rintro out ⟨w, dead⟩ hI
    refine hI.imp id fun hw => ⟨fun c hc hflight => ?_, hw.commits⟩
    exact hw.waits c (by rw [← hw.kind_eq]; exact hc) (by simp) hflight
  · rintro out ⟨w, dead⟩ e hI hissues hsettled
    cases dead with
    | true =>
      -- a process that has ended runs no callback
      exact hissues (issues_of_dead settings w e)
    | false =>
      obtain ⟨c, hc, hkind, hflight, hbatch⟩ :=
        turn_stuck settings e (hI.resolve_left (by simp)) hissues
      rcases hsettled with hdead | ⟨hwaits, -⟩
      · exact absurd hdead (by simp [alive_of_not_issues settings hissues])
      · obtain ⟨n, hn, -⟩ := hwaits c (by
          rw [mortal_alive, hkind]; exact hc) hflight
        rw [mortal_alive, hbatch] at hn
        cases hn

end

/-- The drop copy asks for the trades, and a ready `RestTrade` serves the slot. -/
def tradesServed : List Turn :=
  [.own (.connected []), .requested .trades 1, .own (.timer 2 true (fun _ => true) (.knowing none))]

def downloadingTrades : Settings where
  download := { symbols := ["BTCUSDT"], tradesLookback := seconds 3600 }

/-- `RestTrade` asks for no trades, and nobody is left to commit the slot. -/
theorem restTrade_trades_not_settled :
    ¬ ∀ pre, pre <+: tradesServed →
      Settled (run (mortal kills (turn downloadingTrades)) pre
          (create (R := .simple) .restTrade "A1" {}, false)).2
        (run (mortal kills (turn downloadingTrades)) pre
          (create (R := .simple) .restTrade "A1" {}, false)).1 := by
  intro h
  rcases h tradesServed (List.prefix_refl _) with hdead | ⟨hwaits, -⟩
  · revert hdead
    decide
  · obtain ⟨n, hn, -⟩ := hwaits .trades (by decide) (by decide)
    revert hn
    decide +revert

end BinanceFutures.RestStream
