import BinanceFutures.Gateway.Downloads
import BinanceFutures.Gateway.Serving

/-! # Advance

    The download of a classic drop copy, timer after timer: it stays in a state until the slot of the
    state has a response, and then arrives at a later state that waits, or at its end.

        waits in GET_… ── timer, has_response ─▶ waits in a later state
                       │                      └▶ DONE: ready
                       └─ anything else ─▶ waits in GET_… -/

namespace BinanceFutures.DropCopy
open Machine

section
variable {R : LimitRequest} (settings : Settings) (proc : Stages.Procedure State)

/-! ### The download goes on -/

/-- The drop copy is ready. -/
structure Done (w : World R) : Prop where
  status_eq : w.dropCopy.connectionStatus = .ready
  waiting_eq : w.dropCopy.waiting = false

/-- The download waits in one of the states, and its slot is open. -/
structure Waits (ss : List State) (w : World R) : Prop where
  status_eq : w.dropCopy.connectionStatus = .downloading
  waiting_eq : w.dropCopy.waiting = true
  state_mem : w.dropCopy.downloadState ∈ ss
  opened : ∃ c, w.dropCopy.downloadState.slot = some c ∧ w.request.Opened c

/-- The download of a classic drop copy has arrived at one of the states, or at its end. -/
def Arrived (ss : List State) (w : World R) : Prop :=
  w.dropCopy.variant = .classic ∧ (Done w ∨ Waits ss w)

theorem Waits.mono {ss ss' : List State} {w : World R} (h : Waits ss w) (hss : ss ⊆ ss') : Waits ss' w :=
  ⟨h.status_eq, h.waiting_eq, hss h.state_mem, h.opened⟩

theorem Arrived.mono {ss ss' : List State} {w : World R} (h : Arrived ss w) (hss : ss ⊆ ss') :
    Arrived ss' w := h.imp_right fun h => h.imp_right fun h => h.mono hss

/-- A state in which the download waits opens its slot. -/
theorem arrived_download (hserves : R.Serves) (now : Nanos) {state : State} {w : World R}
    (hvariant : w.dropCopy.variant = .classic) (hwaits : (downloads settings w).waits state = true) :
    Arrived [state] (download settings now state w).1 := by
  have hopen : ∀ {c : Slot}, state.slot = some c →
      Arrived [state] (openSlot state c now { w with dropCopy.downloadState := state }).1 := fun hslot =>
    ⟨hvariant, Or.inr ⟨rfl, rfl, List.mem_singleton_self _, _, hslot,
      Request.opened_request hserves _ _ now⟩⟩
  cases state with
  | undefined | done => cases hwaits
  | getBalances | getPositions | getOpenOrders => exact hopen rfl
  | getPositionsPm => simp [downloads, hvariant] at hwaits
  | getStaleOrders =>
    have hstale : w.request.detailsStaleOrders.isEmpty = false := by simpa [downloads] using hwaits
    simp only [download, seq_fst, downloadBody, modify_apply, hstale, Bool.false_eq_true, if_false]
    exact hopen rfl
  | getTrades =>
    have htrades : settings.download.tradesLookback ≠ 0 ∧ ¬ settings.download.symbols.isEmpty := by
      simpa [downloads, wantsTrades] using hwaits
    simp only [download, seq_fst, downloadBody, modify_apply, if_pos htrades]
    exact hopen rfl

/-- A state in which the download does not wait is passed; at the last the drop copy is ready. -/
theorem passed_download (now : Nanos) {state : State} {w : World R}
    (hwaits : (downloads settings w).waits state = false) :
    let w' := (download settings now state w).1
    w'.request = w.request ∧ w'.dropCopy.variant = w.dropCopy.variant ∧ w'.dropCopy.waiting = false ∧
      (state = .done → w'.dropCopy.connectionStatus = .ready) := by
  have hpass : ∀ {w' : World R},
      w' = { w with dropCopy.downloadState := state, dropCopy.waiting := false } → state ≠ .done →
        w'.request = w.request ∧ w'.dropCopy.variant = w.dropCopy.variant ∧
          w'.dropCopy.waiting = false ∧ (state = .done → w'.dropCopy.connectionStatus = .ready) := by
    rintro w' rfl hstate
    exact ⟨rfl, rfl, rfl, fun h => absurd h hstate⟩
  intro w'
  cases state with
  | getBalances | getPositions | getOpenOrders => cases hwaits
  | undefined => exact hpass rfl (by decide)
  | done => exact ⟨rfl, rfl, rfl, fun _ => rfl⟩
  | getPositionsPm =>
    have hvariant : w.dropCopy.variant ≠ .portfolio := by simpa [downloads] using hwaits
    refine hpass ?_ (by decide)
    simp only [w', download, seq_fst, downloadBody, modify_apply, hvariant, if_false, pass]
  | getStaleOrders =>
    have hstale : w.request.detailsStaleOrders.isEmpty = true := by simpa [downloads] using hwaits
    refine hpass ?_ (by decide)
    simp only [w', download, seq_fst, downloadBody, modify_apply, hstale, if_true, pass]
  | getTrades =>
    have htrades : ¬ (settings.download.tradesLookback ≠ 0 ∧ ¬ settings.download.symbols.isEmpty) := by
      simpa [downloads, wantsTrades] using hwaits
    refine hpass ?_ (by decide)
    simp only [w', download, seq_fst, downloadBody, modify_apply, if_neg htrades, pass]

/-- The download enters states up to one in which it waits, or to its end. -/
theorem arrived_enter (hserves : R.Serves) (now : Nanos) : ∀ {ss : List State} {w : World R},
    ss.getLast? = some .done → w.dropCopy.variant = .classic →
      Arrived ss (visit settings now ((downloads settings w).enter ss).2 w).1
  | [], _, hlast, _ => by simp at hlast
  | state :: ss, w, hlast, hclassic => by
      unfold Stages.enter
      cases hwaits : (downloads settings w).waits state with
      | true =>
        simp only [if_true, visit, List.map_cons, List.map_nil, seqAll, seq_skip]
        exact (arrived_download settings hserves now hclassic hwaits).mono (by simp)
      | false =>
        obtain ⟨hrequest, hvariant, hwaiting, hdone⟩ := passed_download settings now hwaits
        simp only [Bool.false_eq_true, if_false, visit, List.map_cons, seqAll, seq_fst]
        cases ss with
        | nil =>
          obtain rfl : state = .done := by simpa using hlast
          exact ⟨hvariant.trans hclassic, Or.inl ⟨hdone rfl, hwaiting⟩⟩
        | cons next rest =>
          -- the states that are left wait for the same
          have hsame : downloads settings w = downloads settings (download settings now state w).1 := by
            simp only [downloads, hrequest, hvariant]
          rw [hsame]
          exact (arrived_enter hserves now (by simpa using hlast) (hvariant.trans hclassic)).mono
            (List.subset_cons_self ..)

/-- The drop copy looks at its slots. -/
def Event.looks : Event → Bool
  | .timer _ refresh _ _ => refresh
  | _ => false

/-- The connection stays as it is. -/
def Event.calm : Event → Bool
  | .ready .. | .disconnected => false
  | _ => true

/-- The states behind a state. -/
def behind (state : State) : List State := ((states .classic).dropWhile (· ≠ state)).tail

/-- What a drop copy does when it is ready leaves its download alone. -/
def Tasks (f : Action (World R) Output) : Prop :=
  ∀ w, (f w).1.dropCopy.variant = w.dropCopy.variant ∧ (f w).1.dropCopy.waiting = w.dropCopy.waiting ∧
    (f w).1.dropCopy.connectionStatus = w.dropCopy.connectionStatus

theorem tasks_timer (now : Nanos) (d : Dispatcher) : Tasks (R := R)
    (seqAll [refreshBalance settings now, checkStaleOrdersPeriodic settings now d]) := by
  have hbalance : Tasks (R := R) (refreshBalance settings now) := by
    intro w
    unfold refreshBalance
    split
    · exact ⟨rfl, rfl, rfl⟩
    · split <;> exact ⟨rfl, rfl, rfl⟩
  have hstale : Tasks (R := R) (checkStaleOrdersPeriodic settings now d) := by
    intro w
    unfold checkStaleOrdersPeriodic
    split
    · dsimp only
      split <;> exact ⟨rfl, rfl, rfl⟩
    · exact ⟨rfl, rfl, rfl⟩
  intro w
  obtain ⟨hvariant, hwaiting, hstatus⟩ := hbalance w
  obtain ⟨hvariant', hwaiting', hstatus'⟩ := hstale (refreshBalance settings now w).1
  exact ⟨hvariant'.trans hvariant, hwaiting'.trans hwaiting, hstatus'.trans hstatus⟩

variable {ss : List State} {w : World R}

/-- The download goes on when its slot has a response. -/
theorem arrived_checkRequestQueue (hserves : R.Serves) (now : Nanos) (refresh : Bool) (d : Dispatcher)
    (vs : List State) {c : Slot} (hclassic : w.dropCopy.variant = .classic)
    (hwaits : Waits (states .classic) w) (hslot : w.dropCopy.downloadState.slot = some c)
    (hresponse : w.request.hasResponse c = true) :
    Arrived (behind w.dropCopy.downloadState)
      (checkRequestQueue settings now d (visits settings proc w (.own (.timer now refresh d vs))) w).1 := by
  have hstale : (guarded (fun w : World R => w.dropCopy.downloadState = .getOpenOrders)
      (checkStaleOrders d) w).1
      = if w.dropCopy.downloadState = .getOpenOrders then (checkStaleOrders d w).1 else w := by
    by_cases horders : w.dropCopy.downloadState = .getOpenOrders <;> simp [guarded, horders]
  have hqueue : ∀ vs, (checkRequestQueue settings now d vs w).1
      = (visit settings now vs (guarded (fun w : World R => w.dropCopy.downloadState = .getOpenOrders)
        (checkStaleOrders d) w).1).1 := by
    intro vs
    simp only [checkRequestQueue, hslot, hresponse, if_true, seqAll, seq_fst, emit_apply, skip_apply]
  rw [hqueue]
  generalize (guarded (fun w : World R => w.dropCopy.downloadState = .getOpenOrders)
    (checkStaleOrders d) w).1 = w₁ at hstale
  have hdropCopy : w₁.dropCopy = w.dropCopy := by
    rw [hstale]
    split <;> rfl
  have hvisits : visits settings proc w (.own (.timer now refresh d vs))
      = ((downloads settings w₁).enter (behind w.dropCopy.downloadState)).2 := by
    simp only [visits, ← hstale, proc.ask_checkRelaxed, current, hwaits.waiting_eq, if_true, Stages.onward,
      behind]
    rw [show (downloads settings w₁).list = states .classic by
      rw [← hclassic, ← hdropCopy]
      rfl]
  have hlast : ∀ state ∈ states .classic, state.slot ≠ none →
      (behind state).getLast? = some .done := by decide
  rw [hvisits]
  exact arrived_enter settings hserves now
    (hlast _ hwaits.state_mem (by simp [hslot])) (hdropCopy ▸ hclassic)

/-- A timer of a drop copy whose download waits. -/
theorem timer_waits (hserves : R.Serves) (now : Nanos) (d : Dispatcher) (vs : List State) {c : Slot}
    (hclassic : w.dropCopy.variant = .classic) (hwaits : Waits (states .classic) w)
    (hslot : w.dropCopy.downloadState.slot = some c) :
    let w' := (downloadTurn settings proc (.own (.timer now true d vs)) w).1
    if w.request.hasResponse c then Arrived (behind w.dropCopy.downloadState) w' else w' = w := by
  have hturn : (downloadTurn settings proc (.own (.timer now true d vs)) w).1
      = (guarded isReady (seqAll [refreshBalance settings now, checkStaleOrdersPeriodic settings now d])
        (checkRequestQueue settings now d
          (visits settings proc w (.own (.timer now true d vs))) w).1).1 := by
    simp only [downloadTurn, Turn.calling, turn, step, guarded, if_true, timer, hclassic, timerClassic,
      seqAll, seq_fst, skip_apply]
  intro w'
  simp only [w', hturn]
  split
  next hresponse =>
    obtain ⟨hvariant, harrived⟩ :=
      arrived_checkRequestQueue settings proc hserves now true d vs hclassic hwaits hslot hresponse
    generalize (checkRequestQueue settings now d
      (visits settings proc w (.own (.timer now true d vs))) w).1 = w₁ at hvariant harrived
    obtain ⟨htasksVariant, htasksWaiting, htasksStatus⟩ := tasks_timer settings now d w₁
    unfold guarded
    split
    next hready =>
      rcases harrived with hdone | hwaits
      · exact ⟨htasksVariant.trans hvariant, Or.inl ⟨htasksStatus.trans hdone.status_eq,
          htasksWaiting.trans hdone.waiting_eq⟩⟩
      · simp [isReady, hwaits.status_eq] at hready
    next => exact ⟨hvariant, harrived⟩
  next hresponse =>
    have hsame : (checkRequestQueue settings now d
        (visits settings proc w (.own (.timer now true d vs))) w).1 = w := by
      simp [checkRequestQueue, hslot, hresponse]
    rw [hsame, guarded, if_neg (by simp [isReady, hwaits.status_eq])]

/-- Nothing happens to the download. -/
structure Stays (w w' : World R) : Prop where
  variant_eq : w'.dropCopy.variant = w.dropCopy.variant
  status_eq : w'.dropCopy.connectionStatus = w.dropCopy.connectionStatus
  waiting_eq : w'.dropCopy.waiting = w.dropCopy.waiting
  state_eq : w'.dropCopy.downloadState = w.dropCopy.downloadState
  request_eq : w'.request = w.request

theorem stays_refl (w : World R) : Stays w w := ⟨rfl, rfl, rfl, rfl, rfl⟩

/-- What a drop copy does while its download waits: it goes on when it looks at a slot that has a response,
    and nothing happens to it otherwise. -/
theorem turn_waits (hserves : R.Serves) {e : Event} (hcalm : e.calm = true) {c : Slot}
    (hclassic : w.dropCopy.variant = .classic) (hwaits : Waits (states .classic) w)
    (hslot : w.dropCopy.downloadState.slot = some c) :
    let w' := (downloadTurn settings proc (.own e) w).1
    if e.looks && w.request.hasResponse c then Arrived (behind w.dropCopy.downloadState) w'
    else Stays w w' := by
  cases e with
  | timer now refresh d vs =>
    cases refresh with
    | false => exact stays_refl w
    | true =>
      have htimer := timer_waits settings proc hserves now d vs hclassic hwaits hslot
      simp only [Event.looks, Bool.true_and]
      split at htimer
      next hresponse =>
        rw [if_pos hresponse]
        exact htimer
      next hresponse =>
        rw [if_neg hresponse, htimer]
        exact stays_refl w
  | text d m =>
    cases m with
    | none => exact stays_refl w
    | some m =>
      cases m with
      | listenKeyExpired => exact ⟨rfl, rfl, rfl, rfl, rfl⟩
      | orderTradeUpdate m | tradeLite m | executionReport2 m | other => exact stays_refl w
  | ready | disconnected => cases hcalm
  | start | stop | connected | close | latency | binary => exact stays_refl w

/-- A drop copy whose download does not wait leaves it alone. -/
theorem turn_idle {e : Event} (hcalm : e.calm = true) (hclassic : w.dropCopy.variant = .classic)
    (hwaiting : w.dropCopy.waiting = false) :
    let w' := (downloadTurn settings proc (.own e) w).1
    w'.dropCopy.variant = .classic ∧ w'.dropCopy.waiting = false ∧
      w'.dropCopy.connectionStatus = w.dropCopy.connectionStatus := by
  cases e with
  | timer now refresh d vs =>
    cases refresh with
    | false => exact ⟨hclassic, hwaiting, rfl⟩
    | true =>
      have hvisits : visits settings proc w (.own (.timer now true d vs)) = [] := by
        simp [visits, proc.ask_checkRelaxed, current, hwaiting]
      have hqueue : (checkRequestQueue settings now d [] w).1.dropCopy = w.dropCopy := by
        unfold checkRequestQueue
        split
        · rfl
        · split
          · by_cases horders : w.dropCopy.downloadState = .getOpenOrders <;>
              simp [seqAll, guarded, horders, checkStaleOrders, visit]
          · rfl
      intro w'
      have hturn : w' = (guarded isReady
          (seqAll [refreshBalance settings now, checkStaleOrdersPeriodic settings now d])
          (checkRequestQueue settings now d [] w).1).1 := by
        simp only [w', downloadTurn, hvisits, Turn.calling, turn, step, guarded, if_true, timer, hclassic,
          timerClassic, seqAll, seq_fst, skip_apply]
      rw [hturn]
      generalize (checkRequestQueue settings now d [] w).1 = w₁ at hqueue
      obtain ⟨htasksVariant, htasksWaiting, htasksStatus⟩ := tasks_timer settings now d w₁
      unfold guarded
      split
      · rw [htasksVariant, htasksWaiting, htasksStatus, hqueue]
        exact ⟨hclassic, hwaiting, rfl⟩
      · rw [hqueue]
        exact ⟨hclassic, hwaiting, rfl⟩
  | text d m =>
    cases m with
    | none => exact ⟨hclassic, hwaiting, rfl⟩
    | some m =>
      cases m with
      | listenKeyExpired => exact ⟨hclassic, hwaiting, rfl⟩
      | orderTradeUpdate m | tradeLite m | executionReport2 m | other => exact ⟨hclassic, hwaiting, rfl⟩
  | ready | disconnected => cases hcalm
  | start | stop | connected | close | latency | binary => exact ⟨hclassic, hwaiting, rfl⟩

/-- A download that is begun arrives somewhere. -/
theorem turn_ready (hserves : R.Serves) (now : Nanos) (vs : List State)
    (hclassic : w.dropCopy.variant = .classic) :
    Arrived (states .classic) (downloadTurn settings proc (.own (.ready now vs)) w).1 := by
  have hvisits : visits settings proc w (.own (.ready now vs))
      = ((downloads settings w).enter (states .classic)).2 := by
    rw [visits_ready]
    rw [show (downloads settings w).list = states .classic from congrArg states hclassic]
  simp only [downloadTurn, hvisits, Turn.calling, turn, step, seq_fst, emit_apply]
  exact arrived_enter settings hserves now rfl hclassic

/-- A classic drop copy; if its download waits, it does so in one of the states. -/
def Live (w : World R) : Prop :=
  w.dropCopy.variant = .classic ∧ (w.dropCopy.waiting = true → Waits (states .classic) w)

theorem Arrived.live (h : Arrived ss w) (hss : ss ⊆ states .classic) : Live w := by
  refine ⟨h.1, fun hwaiting => ?_⟩
  rcases h.2 with hdone | hwaits
  · rw [hdone.waiting_eq] at hwaiting
    cases hwaiting
  · exact hwaits.mono hss

theorem Waits.same {w' : World R} (h : Waits ss w) (hstays : Stays w w') : Waits ss w' where
  status_eq := hstays.status_eq.trans h.status_eq
  waiting_eq := hstays.waiting_eq.trans h.waiting_eq
  state_mem := hstays.state_eq ▸ h.state_mem
  opened := by
    rw [hstays.state_eq, hstays.request_eq]
    exact h.opened

theorem behind_subset : ∀ state, behind state ⊆ states .classic := by
  intro state
  exact ((List.tail_sublist _).trans (List.dropWhile_sublist _)).subset

theorem live_turn (hserves : R.Serves) (e : Event) (h : Live w) :
    Live (downloadTurn settings proc (.own e) w).1 := by
  obtain ⟨hclassic, hlive⟩ := h
  cases hcalm : e.calm with
  | true =>
    cases hwaiting : w.dropCopy.waiting with
    | true =>
      have hwaits := hlive hwaiting
      obtain ⟨c, hslot, -⟩ := hwaits.opened
      have hturn := turn_waits settings proc hserves hcalm hclassic hwaits hslot
      split at hturn
      · exact hturn.live (behind_subset _)
      · exact ⟨hturn.variant_eq.trans hclassic, fun _ => hwaits.same hturn⟩
    | false =>
      obtain ⟨hvariant, hidle, -⟩ := turn_idle settings proc hcalm hclassic hwaiting
      exact ⟨hvariant, fun h => by rw [hidle] at h; cases h⟩
  | false =>
    cases e with
    | ready now vs => exact (turn_ready settings proc hserves now vs hclassic).live (List.Subset.refl _)
    | disconnected =>
      simp only [downloadTurn, Turn.calling, turn, step, disconnected_eq]
      exact ⟨hclassic, fun h => by cases h⟩
    | start | stop | timer | connected | close | latency | text | binary => cases hcalm

/-! ### State after state -/

theorem behind_drop {state : State} {m : ℕ} (h : state ∈ (states .classic).drop m) :
    behind state ⊆ (states .classic).drop (m + 1) := by
  have hfew : ∀ m < 6, ∀ state ∈ (states .classic).drop m, ∀ t ∈ behind state,
      t ∈ (states .classic).drop (m + 1) := by decide
  by_cases hm : m < 6
  · exact fun t => hfew m hm state h t
  · rw [List.drop_eq_nil_of_le (by simp only [states, List.length_cons, List.length_nil]; omega)] at h
    cases h

/-- A download that has come to the last state is done. -/
theorem Arrived.ready {m : ℕ} (h : Arrived ((states .classic).drop m) w) (hm : 5 ≤ m) :
    w.dropCopy.connectionStatus = .ready := by
  obtain ⟨-, hdone | hwaits⟩ := h
  · exact hdone.status_eq
  · -- only the last state is left, and it waits for nothing
    obtain ⟨c, hslot, -⟩ := hwaits.opened
    have hlast : (states .classic).drop 5 = [.done] := rfl
    have hmem : w.dropCopy.downloadState ∈ (states .classic).drop 5 := by
      have hsub : (states .classic).drop m ⊆ (states .classic).drop 5 := by
        rw [← Nat.add_sub_of_le hm, ← List.drop_drop]
        exact List.drop_subset _ _
      exact hsub hwaits.state_mem
    rw [hlast, List.mem_singleton] at hmem
    rw [hmem] at hslot
    cases hslot

/-- A calm event does not set the download back. -/
theorem arrived_turn (hserves : R.Serves) {m : ℕ} {e : Event} (hcalm : e.calm = true)
    (h : Arrived ((states .classic).drop m) w) :
    Arrived ((states .classic).drop m) (downloadTurn settings proc (.own e) w).1 := by
  obtain ⟨hclassic, hdone | hwaits⟩ := h
  · obtain ⟨hvariant, hidle, hstatus⟩ := turn_idle settings proc hcalm hclassic hdone.waiting_eq
    exact ⟨hvariant, Or.inl ⟨hstatus.trans hdone.status_eq, hidle⟩⟩
  · obtain ⟨c, hslot, -⟩ := hwaits.opened
    have hturn := turn_waits settings proc hserves hcalm hclassic (hwaits.mono (List.drop_subset ..)) hslot
    split at hturn
    · refine hturn.mono (List.Subset.trans (behind_drop hwaits.state_mem) ?_)
      rw [← List.tail_drop]
      exact List.tail_subset _
    · exact ⟨hturn.variant_eq.trans hclassic, Or.inr (hwaits.same hturn)⟩

/-- A drop copy that waits in a state goes on when it looks at a slot that has a response, and otherwise
    waits there. -/
theorem waits_turn (hserves : R.Serves) {e : Event} (hcalm : e.calm = true) {state : State} {c : Slot}
    (hslot : state.slot = some c) (hstate : state ∈ states .classic)
    (hclassic : w.dropCopy.variant = .classic) (h : Waits [state] w) :
    let w' := (downloadTurn settings proc (.own e) w).1
    if e.looks && w.request.hasResponse c then Arrived (behind state) w' else Stays w w' := by
  have hmem : w.dropCopy.downloadState = state := List.mem_singleton.mp h.state_mem
  have hturn := turn_waits settings proc hserves hcalm hclassic
    (h.mono (List.cons_subset.mpr ⟨hstate, List.nil_subset _⟩)) (hmem ▸ hslot)
  rwa [hmem] at hturn

/-- The download has gone on, or its slot has a response and the drop copy looks. -/
theorem arrived_look (hserves : R.Serves) {m : ℕ} {state : State} {c : Slot}
    (hslot : state.slot = some c) (hstate : state ∈ states .classic)
    (hbehind : behind state ⊆ (states .classic).drop m) (now : Nanos) (d : Dispatcher) (vs : List State)
    (hclassic : w.dropCopy.variant = .classic)
    (h : Arrived ((states .classic).drop m) w ∨ Waits [state] w ∧ w.request.hasResponse c = true) :
    Arrived ((states .classic).drop m) (downloadTurn settings proc (.own (.timer now true d vs)) w).1 := by
  rcases h with harrived | ⟨hwaits, hresponse⟩
  · exact arrived_turn settings proc hserves rfl harrived
  · have hturn := waits_turn settings proc (e := .timer now true d vs) hserves rfl hslot hstate hclassic
      hwaits
    have hlooks : ((Event.timer now true d vs).looks && w.request.hasResponse c) = true := hresponse
    dsimp only at hturn
    rw [if_pos hlooks] at hturn
    exact hturn.mono hbehind

/-- What waits does so whoever else works on the slots, if its slot stays open. -/
theorem Waits.others {w' : World R} (h : Waits ss w) (hdropCopy : w'.dropCopy = w.dropCopy)
    (hopened : ∀ c, w.request.Opened c → w'.request.Opened c) : Waits ss w' where
  status_eq := hdropCopy ▸ h.status_eq
  waiting_eq := hdropCopy ▸ h.waiting_eq
  state_mem := hdropCopy ▸ h.state_mem
  opened := by
    rw [hdropCopy]
    exact h.opened.imp fun c => And.imp_right (hopened c)

/-- So does what has arrived. -/
theorem Arrived.others {w' : World R} (h : Arrived ss w) (hdropCopy : w'.dropCopy = w.dropCopy)
    (hopened : ∀ c, w.request.Opened c → w'.request.Opened c) : Arrived ss w' := by
  refine ⟨hdropCopy ▸ h.1, h.2.imp (fun hdone => ?_) fun hwaits => hwaits.others hdropCopy hopened⟩
  exact ⟨hdropCopy ▸ hdone.status_eq, hdropCopy ▸ hdone.waiting_eq⟩

theorem Live.others {w' : World R} (h : Live w) (hdropCopy : w'.dropCopy = w.dropCopy)
    (hopened : ∀ c, w.request.Opened c → w'.request.Opened c) : Live w' := by
  refine ⟨hdropCopy ▸ h.1, fun hwaiting => ?_⟩
  rw [hdropCopy] at hwaiting
  exact (h.2 hwaiting).others hdropCopy hopened

/-! ### What is in flight -/

/-- The action leaves in flight what is in flight. -/
abbrev Flies (f : Action (World R) Output) : Prop := Frame (fun w : World R => w.request.inFlight) f

theorem flies_request {f : Action (World R) Output} (c : Slot) (now : Nanos)
    (h : ∀ w, (f w).1.request = w.request ∨ (f w).1.request = w.request.request c now) : Flies f := by
  intro w
  funext c'
  rcases h w with heq | heq
  · simp only [heq]
  · simp only [heq, Request.inFlight_request]

theorem flies_visit (now : Nanos) (visits : List State) : Flies (R := R) (visit settings now visits) := by
  refine frame_map fun state _ => ?_
  have hopen : ∀ state c, Flies (R := R) (openSlot state c now) := fun state c =>
    flies_request c now fun w => Or.inr rfl
  refine frame_seq (fun _ => rfl) ?_
  cases state with
  | undefined => exact fun _ => rfl
  | getBalances | getPositions | getOpenOrders => exact hopen _ _
  | done => exact fun _ => rfl
  | getPositionsPm | getStaleOrders | getTrades =>
    intro w
    simp only [downloadBody]
    split
    · first | exact hopen _ _ w | rfl
    · first | exact hopen _ _ w | rfl

theorem flies_timer (now : Nanos) (d : Dispatcher) (visits : List State) :
    Flies (R := R) (timer settings now d visits) := by
  have hqueue : Flies (R := R) (checkRequestQueue settings now d visits) := by
    intro w
    unfold checkRequestQueue
    split
    · rfl
    · split
      · refine frame_seqAll (π := fun w : World R => w.request.inFlight) (fun f hf => ?_) w
        simp only [List.mem_cons, List.not_mem_nil, or_false] at hf
        rcases hf with rfl | rfl | rfl
        · exact frame_guarded _ fun w => rfl
        · exact fun w => rfl
        · exact flies_visit settings now visits
      · rfl
  have hbalance : Flies (R := R) (refreshBalance settings now) := by
    refine flies_request .balances now fun w => ?_
    unfold refreshBalance
    split
    · exact Or.inl rfl
    · split
      · exact Or.inl rfl
      · exact Or.inr rfl
  have hstale : Flies (R := R) (checkStaleOrdersPeriodic settings now d) := by
    intro w
    funext c
    unfold checkStaleOrdersPeriodic
    split
    · dsimp only
      split
      · rw [Request.inFlight_request]
        rfl
      · rfl
    · rfl
  intro w
  unfold timer
  split
  · refine frame_seq hqueue (frame_seq (frame_guarded _ ?_) fun _ => rfl) w
    exact frame_seq hbalance (frame_seq hstale fun _ => rfl)
  · exact frame_guarded _ (frame_seq hqueue (frame_seq hstale fun _ => rfl)) w

/-- A drop copy opens slots, but neither serves nor commits any. -/
theorem inFlight_turn (e : Event) (w : World R) :
    (downloadTurn settings proc (.own e) w).1.request.inFlight = w.request.inFlight := by
  cases e with
  | timer now refresh d vs =>
    exact frame_guarded (fun _ => refresh) (flies_timer settings now d _) w
  | ready now vs => exact frame_seq (fun _ => rfl) (flies_visit settings now _) w
  | disconnected =>
    simp only [downloadTurn, Turn.calling, turn, step, disconnected_eq]
  | text d m =>
    cases m with
    | none => rfl
    | some m =>
      cases m with
      | listenKeyExpired => rfl
      | orderTradeUpdate m | tradeLite m | executionReport2 m | other => rfl
  | start | stop | connected | close | latency | binary => rfl

end

end BinanceFutures.DropCopy
