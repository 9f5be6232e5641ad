import BinanceFutures.Gateway.Advance
import BinanceFutures.Gateway.Lifecycle
import BinanceFutures.Schemes.Machine

/-! # Completion of a download

    An account that trades over REST: the order entry and the drop copy, with the slots that they share.
    The drop copy opens a slot, the order entry serves it and commits it when it is answered, the drop copy
    sees the response and opens the next one.

        drop copy    open ─────────────────────────▶ timer: has_response ─▶ open the next
        order entry        timer: serve ─ answers ─▶ commit

    So each round of a timer of the order entry, its answers and a timer of the drop copy brings the
    download one state on, whatever else happens in between. -/

namespace BinanceFutures
open Machine

/-- An account that trades over REST: the order entry and the drop copy, and the slots that they share. -/
structure RestAccount (R : LimitRequest) where
  stream : RestStream
  dropCopy : DropCopy
  request : Request R

namespace RestAccount

section
variable {R : LimitRequest} (settings : Settings) (proc : Stages.Procedure DropCopy.State)

/-- The account as the order entry sees it, and as the drop copy does. -/
def rest (s : RestAccount R) : RestStream.World R := ⟨s.stream, s.request⟩

def copy (s : RestAccount R) : DropCopy.World R := ⟨s.dropCopy, s.request⟩

inductive Turn where
  | orderEntry (e : RestStream.Event)
  | dropCopy (e : DropCopy.Event)
  /-- The controller creates a drop copy for a new listen key. -/
  | created (listenKey : String)

inductive Output where
  | orderEntry (o : RestStream.Output)
  | dropCopy (n : DropCopy.Note)

def step : Turn → Action (RestAccount R) Output
  | .orderEntry e => fun s =>
    let (w, out) := RestStream.step settings e s.rest
    ({ s with stream := w.stream, request := w.request }, out.map .orderEntry)
  | .dropCopy e => fun s =>
    let (w, notes) := DropCopy.downloadTurn settings proc (.own e) s.copy
    ({ s with dropCopy := w.dropCopy, request := w.request }, notes.map .dropCopy)
  | .created listenKey => modify fun s =>
    { s with dropCopy := (DropCopy.create .classic s.stream.account listenKey s.request).dropCopy }

/-- The account as the controller creates it, with a first drop copy. -/
def create (account listenKey : String) : RestAccount R where
  stream := (RestStream.create (R := R) .orderEntryClassic account {}).stream
  dropCopy := (DropCopy.create (R := R) .classic account listenKey {}).dropCopy
  request := {}

/-! ### In the controller -/

/-- What the controller holds of an account that trades over REST and has a drop copy. -/
def ofSlice (slice : Slice R) : Option (RestAccount R) :=
  match slice.orderEntry, slice.dropCopy with
  | .rest stream, some dropCopy => some ⟨stream, dropCopy, slice.request⟩
  | _, _ => none

/-- Where there is a drop copy already, the handlers of what the order entry puts out create none. -/
theorem handlers_rest (kind : RestStream.Kind) : ∀ (os : List RestStream.Output) {slice : Slice R},
    slice.dropCopy ≠ none → (seqAll (os.map (Controller.handleRest settings kind)) slice).1 = slice
  | [], _, _ => rfl
  | o :: os, slice, h => by
      obtain ⟨dropCopy, hdropCopy⟩ := Option.ne_none_iff_exists'.mp h
      have hfirst : (Controller.handleRest settings kind o slice).1 = slice := by
        cases o <;> simp [Controller.handleRest, Controller.createDropCopyHelper, hdropCopy]
      rw [List.map_cons, seqAll, seq_fst, hfirst]
      exact handlers_rest kind os h

/-- The controller's order entry takes its turns as the account does. -/
theorem ofSlice_onRest (e : RestStream.Event) {slice : Slice R} {s : RestAccount R}
    (h : ofSlice slice = some s) :
    ofSlice (Controller.onRest settings e slice).1 = some (step settings proc (.orderEntry e) s).1 := by
  unfold ofSlice at h
  split at h
  next stream dropCopy hrest hdropCopy =>
    obtain rfl := Option.some.inj h
    unfold Controller.onRest
    rw [hrest]
    dsimp only
    rw [handlers_rest settings stream.kind _ (by simp [hdropCopy])]
    simp only [ofSlice, hdropCopy]
    rfl
  next => cases h

/-- The controller's drop copy takes its turns as the account does, with what its download answers. -/
theorem ofSlice_onDropCopy {e e' : DropCopy.Event} {slice : Slice R} {s : RestAccount R}
    (h : ofSlice slice = some s)
    (he : (DropCopy.Turn.own e).calling (DropCopy.visits settings proc s.copy (.own e)) = .own e') :
    ofSlice (Controller.onDropCopy settings e' slice).1 = some (step settings proc (.dropCopy e) s).1 := by
  unfold ofSlice at h
  split at h
  next stream dropCopy hrest hdropCopy =>
    obtain rfl := Option.some.inj h
    unfold Controller.onDropCopy
    rw [hdropCopy]
    dsimp only
    rw [Controller.handlers_dropCopy]
    simp only [ofSlice, hrest, step, DropCopy.downloadTurn, he]
    rfl
  next => cases h

/-- The controller creates a drop copy as the account does. -/
theorem ofSlice_created (listenKey : String) {slice : Slice R} {s : RestAccount R}
    (hrest : slice.orderEntry = .rest s.stream) (hnone : slice.dropCopy = none)
    (hrequest : slice.request = s.request) (haccount : slice.account.name = s.stream.account) :
    ofSlice (Controller.createDropCopyHelper settings .classic listenKey slice).1
      = some (step settings proc (.created listenKey) s).1 := by
  simp only [Controller.createDropCopyHelper, hnone, ofSlice, hrest, hrequest, haccount]
  rfl

/-! ### Rounds -/

/-- The process does not end, and every callback of a slot asks for something. -/
def Fine (s : RestAccount R) : Turn → Prop
  | .orderEntry e => RestStream.Output.fatal ∉ (RestStream.step settings e s.rest).2 ∧
      RestStream.Issues settings (s.rest, false) (.own e)
  | _ => True

/-- The drop copy stays, and so does its connection. -/
def Turn.calm : Turn → Bool
  | .orderEntry _ => true
  | .dropCopy e => e.calm
  | .created _ => false

/-- The order entry is ready, and lets through the slot that the download waits for; what it has asked for
    by then is answered; the drop copy looks at its slots. -/
def Round (es : List Turn) (s : RestAccount R) : Prop :=
  ∃ before now gate d answers now' d' vs after,
    es = before ++ .orderEntry (.timer now true gate d) ::
      (answers ++ .dropCopy (.timer now' true d' vs) :: after) ∧
    let served := (run (step settings proc) before s).1
    let asked := (step settings proc (.orderEntry (.timer now true gate d)) served).1
    let answered := (run (step settings proc) answers asked).1
    served.stream.connectionStatus = .ready ∧
      (∀ c ∈ served.dropCopy.downloadState.slot, gate c = true) ∧
      ∀ e ∈ asked.stream.calls.entries, e ∉ answered.stream.calls.entries

/-! ### What is kept -/

def Output.rest? : Output → Option RestStream.Output
  | .orderEntry o => some o
  | .dropCopy _ => none

/-- What the order entry has put out. -/
def rests (out : List Output) : List RestStream.Output := out.filterMap Output.rest?

theorem rests_orderEntry (out : List Output) (os : List RestStream.Output) :
    rests (out ++ os.map .orderEntry) = rests out ++ os :=
  filterMap_own Output.rest? (fun _ => rfl) out os

theorem rests_dropCopy (out : List Output) (notes : List DropCopy.Note) :
    rests (out ++ notes.map .dropCopy) = rests out :=
  filterMap_other Output.rest? (fun _ => rfl) out notes

/-- What every turn keeps. -/
structure Inv (out : List Output) (s : RestAccount R) : Prop where
  sound : RestStream.Sound .orderEntryClassic none (rests out) s.rest
  live : DropCopy.Live s.copy

variable {out : List Output} {s : RestAccount R} {m : ℕ}

theorem inv_create (account listenKey : String) : Inv [] (create (R := R) account listenKey) where
  sound := RestStream.sound_create _ _
  live := ⟨rfl, nofun⟩

/-- A slot that the drop copy has opened stays open while the order entry takes its turn. -/
theorem opened_orderEntry (hserves : R.Serves) (e : RestStream.Event) (c : Slot)
    (h : s.request.Opened c) : (step settings proc (.orderEntry e) s).1.request.Opened c :=
  ((RestStream.follows_openAt hserves s.stream.kind c).step settings e [] s.rest ⟨rfl, h⟩).2

theorem inv_step (hserves : R.Serves) {e : Turn} (h : Inv out s) (hfine : Fine settings s e) :
    Inv (out ++ (step settings proc e s).2) (step settings proc e s).1 := by
  cases e with
  | orderEntry e =>
    refine ⟨?_, h.live.others rfl (opened_orderEntry settings proc hserves e)⟩
    have hturn := RestStream.turn_sound settings (.own e) h.sound hfine.2
    simp only [step, rests_orderEntry]
    exact hturn.resolve_left hfine.1
  | dropCopy e =>
    refine ⟨?_, DropCopy.live_turn settings proc hserves e h.live⟩
    simp only [step, rests_dropCopy]
    exact RestStream.sound_of_request h.sound fun c _ =>
      congrFun (DropCopy.inFlight_turn settings proc e s.copy) c
  | created listenKey =>
    refine ⟨?_, rfl, nofun⟩
    simp only [step, modify_apply, List.append_nil]
    exact h.sound

/-! ### Within a round -/

/-- A calm turn does not set the download back. -/
theorem arrived_step (hserves : R.Serves) {e : Turn} (hcalm : e.calm = true)
    (h : DropCopy.Arrived ((DropCopy.states .classic).drop m) s.copy) :
    DropCopy.Arrived ((DropCopy.states .classic).drop m) (step settings proc e s).1.copy := by
  cases e with
  | created listenKey => cases hcalm
  | orderEntry e => exact h.others rfl (opened_orderEntry settings proc hserves e)
  | dropCopy e => exact DropCopy.arrived_turn settings proc hserves hcalm h

/-- The download has gone on to the states, or waits in the state for its slot, which is held since the
    calls were these. -/
structure Served (m : ℕ) (state : DropCopy.State) (c : Slot) (ns : List ℕ)
    (calls : Ledger RestStream.Call) (out : List Output) (s : RestAccount R) : Prop where
  inv : Inv out s
  later : RestStream.Later calls s.stream.calls
  either : DropCopy.Arrived ((DropCopy.states .classic).drop m) s.copy ∨
    DropCopy.Waits [state] s.copy ∧ RestStream.Held c ns (rests out) s.rest

theorem served_step (hserves : R.Serves) {state : DropCopy.State} {c : Slot} {ns : List ℕ}
    {calls : Ledger RestStream.Call} (hslot : state.slot = some c)
    (hstate : state ∈ DropCopy.states .classic)
    (hbehind : DropCopy.behind state ⊆ (DropCopy.states .classic).drop m) {e : Turn}
    (h : Served m state c ns calls out s) (hfine : Fine settings s e) (hcalm : e.calm = true) :
    Served m state c ns calls (out ++ (step settings proc e s).2) (step settings proc e s).1 := by
  have hinv := inv_step settings proc hserves h.inv hfine
  refine ⟨hinv, ?_, ?_⟩
  · cases e with
    | orderEntry e => exact h.later.trans (RestStream.later_step settings e s.rest)
    | dropCopy | created => exact h.later
  · rcases h.either with harrived | ⟨hwaits, hheld⟩
    · exact Or.inl (arrived_step settings proc hserves hcalm harrived)
    · cases e with
      | created => cases hcalm
      | orderEntry e =>
        refine Or.inr ⟨hwaits.others rfl (opened_orderEntry settings proc hserves e), ?_⟩
        simp only [step, rests_orderEntry]
        exact ((RestStream.follows_held hserves .orderEntryClassic c ns).step settings e _ s.rest
          ⟨h.inv.sound.kind_eq, hheld⟩).2
      | dropCopy e =>
        have hturn := DropCopy.waits_turn settings proc hserves hcalm hslot hstate h.inv.live.1 hwaits
        split at hturn
        · exact Or.inl (hturn.mono hbehind)
        · refine Or.inr ⟨hwaits.same hturn, ?_⟩
          simp only [step, rests_dropCopy]
          have hrequest : (DropCopy.downloadTurn settings proc (.own e) s.copy).1.request = s.request :=
            hturn.request_eq
          unfold RestStream.Held rest
          rw [hrequest]
          exact hheld

/-- A slot in a state of the class is one that the order entry serves. -/
theorem slot_served {state : DropCopy.State} {c : Slot} (hstate : state ∈ DropCopy.states .classic)
    (hslot : state.slot = some c) : c ∈ RestStream.Kind.orderEntryClassic.slots := by
  cases state <;> simp [DropCopy.states] at hstate <;> cases hslot <;> decide

/-- When what was outstanding then has been answered, the slot has a response. -/
theorem Served.answered {state : DropCopy.State} {c : Slot} {ns : List ℕ}
    {calls : Ledger RestStream.Call} (h : Served m state c ns calls out s)
    (hslot : state.slot = some c) (hstate : state ∈ DropCopy.states .classic)
    (hnumbers : ∀ n ∈ ns, n < calls.next) (hanswered : ∀ e ∈ calls.entries, e ∉ s.stream.calls.entries) :
    DropCopy.Arrived ((DropCopy.states .classic).drop m) s.copy ∨
      DropCopy.Waits [state] s.copy ∧ s.request.hasResponse c = true := by
  rcases h.either with harrived | ⟨hwaits, hresponse | ⟨hflight, hbatch⟩⟩
  · exact Or.inl harrived
  · exact Or.inr ⟨hwaits, hresponse⟩
  · -- a slot in flight waits for an answer to its batch, and the batch has been answered
    obtain ⟨n, hn, call, hmem⟩ := h.inv.sound.waits c (slot_served hstate hslot) nofun hflight
    rcases h.later.old _ hmem with hold | hnew
    · exact absurd hmem (hanswered _ hold)
    · exact absurd (hnumbers n (hbatch ▸ hn)) (Nat.not_lt.mpr hnew)

/-- A timer of the order entry, when it is ready, holds the slot that the download waits for. -/
theorem served_timer (hserves : R.Serves) (now : Nanos) {gate : Slot → Bool} (d : Dispatcher)
    (hinv : Inv out s) (hfine : Fine settings s (.orderEntry (.timer now true gate d)))
    (hready : s.stream.connectionStatus = .ready)
    (hgate : ∀ c ∈ s.dropCopy.downloadState.slot, gate c = true)
    (hwaits : DropCopy.Waits (DropCopy.states .classic) s.copy) :
    let s' := (step settings proc (.orderEntry (.timer now true gate d)) s).1
    ∃ c ns, s.dropCopy.downloadState.slot = some c ∧ (∀ n ∈ ns, n < s'.stream.calls.next) ∧
      Served m s.dropCopy.downloadState c ns s'.stream.calls
        (out ++ (step settings proc (.orderEntry (.timer now true gate d)) s).2) s' := by
  intro s'
  obtain ⟨c, hslot, hopened⟩ := hwaits.opened
  have hafter := inv_step settings proc hserves hinv hfine
  have hmine : DropCopy.Waits [s.dropCopy.downloadState] s'.copy := by
    have hhere : DropCopy.Waits [s.dropCopy.downloadState] s.copy :=
      ⟨hwaits.status_eq, hwaits.waiting_eq, List.mem_singleton_self _, hwaits.opened⟩
    exact hhere.others rfl (opened_orderEntry settings proc hserves (.timer now true gate d))
  obtain ⟨ns, hheld⟩ := RestStream.holding_timer settings hserves now d (hgate c hslot)
    (slot_served hwaits.state_mem hslot) (show RestStream.Of _ _ (rests out) s.rest from
      ⟨hinv.sound.kind_eq, hopened⟩)
    (by simp [RestStream.isReady, rest, hready])
  have hrests : rests (out ++ (step settings proc (.orderEntry (.timer now true gate d)) s).2)
      = rests out ++ (RestStream.step settings (.timer now true gate d) s.rest).2 :=
    rests_orderEntry ..
  rw [← hrests] at hheld
  rcases hheld with hresponse | ⟨hflight, hbatch⟩
  · exact ⟨c, [], hslot, by simp, hafter, RestStream.later_refl _, Or.inr ⟨hmine, Or.inl hresponse⟩⟩
  · refine ⟨c, ns, hslot, fun n hn => ?_, hafter, RestStream.later_refl _,
      Or.inr ⟨hmine, Or.inr ⟨hflight, hbatch⟩⟩⟩
    exact hafter.sound.old c n (hbatch ▸ hn)

/-- How far the download has come. -/
def Reached (m : ℕ) (out : List Output) (s : RestAccount R) : Prop :=
  Inv out s ∧ DropCopy.Arrived ((DropCopy.states .classic).drop m) s.copy

theorem reached_step (hserves : R.Serves) (out : List Output) (s : RestAccount R) (e : Turn)
    (h : Reached m out s) (hC : Fine settings s e ∧ e.calm = true) :
    Reached m (out ++ (step settings proc e s).2) (step settings proc e s).1 :=
  ⟨inv_step settings proc hserves h.1 hC.1, arrived_step settings proc hserves hC.2 h.2⟩

/-- A round brings the download one state on. -/
theorem reached_round (hserves : R.Serves) {es : List Turn} (h : Reached m out s)
    (hround : Round settings proc es s)
    (hes : Along (step settings proc) (fun s e => Fine settings s e ∧ e.calm = true) es s) :
    Reached (m + 1) (out ++ (run (step settings proc) es s).2) (run (step settings proc) es s).1 := by
  obtain ⟨before, now, gate, d, answers, now', d', vs, after, rfl, hready, hgate, hanswered⟩ := hround
  refine along_round (reached_step settings proc hserves) (reached_step settings proc hserves) ?_ h hes
  intro s₁ s₂ out₁ hreached htimer
  obtain ⟨hinv, hclassic, hdone | hwaits⟩ := hreached
  · -- nothing is left to be done
    exact Or.inl ⟨hinv, hclassic, Or.inl hdone⟩
  · have hstate : s₁.dropCopy.downloadState ∈ DropCopy.states .classic :=
      List.drop_subset _ _ hwaits.state_mem
    have hbehind := DropCopy.behind_drop hwaits.state_mem
    obtain ⟨c, ns, hslot, hnumbers, hheld⟩ :=
      served_timer settings proc (m := m + 1) hserves now d hinv htimer.1 hready hgate
        (hwaits.mono (List.drop_subset _ _))
    refine Or.inr ⟨_, fun out s e h hC =>
      served_step settings proc hserves hslot hstate hbehind h hC.1 hC.2, hheld, ?_⟩
    intro out₂ hkept hlook
    have hresponse := hkept.answered hslot hstate hnumbers hanswered
    exact ⟨inv_step settings proc hserves hkept.inv hlook.1,
      DropCopy.arrived_look settings proc hserves hslot hstate hbehind now' d' vs hkept.inv.live.1
        hresponse⟩

end

/-- CORRECT: once the download of a classic drop copy is under way, five rounds bring the drop copy to
    READY, whatever else happens to the account in between, as long as the process goes on, no slot is
    served in vain, and the drop copy stays connected. -/
theorem completed_run {R : LimitRequest} (hserves : R.Serves) (settings : Settings)
    (proc : Stages.Procedure DropCopy.State) (account listenKey : String) (before after : List Turn)
    {k : ℕ} (hk : 5 ≤ k)
    (hfine : Along (step (R := R) settings proc) (Fine settings) (before ++ after)
      (create account listenKey)) :
    let s := (run (step (R := R) settings proc) before (create account listenKey)).1
    s.dropCopy.waiting = true → (∀ e ∈ after, e.calm = true) →
      Rounds (step settings proc) (Round settings proc) k after s →
        (run (step settings proc) after s).1.dropCopy.connectionStatus = .ready := by
  intro s hwaiting hcalm hrounds
  obtain ⟨hbefore, hafter⟩ := along_append.mp hfine
  have hinv := keeps_along (fun out s e h hC => inv_step settings proc hserves h hC)
    (inv_create (R := R) account listenKey) hbefore
  rw [List.nil_append] at hinv
  have hstart : Reached 0 (run (step settings proc) before (create account listenKey)).2 s :=
    ⟨hinv, hinv.live.1, Or.inr (hinv.live.2 hwaiting)⟩
  have hlast := rounds_climb
    (fun h hround hes => reached_round settings proc hserves h hround hes) hstart hrounds
    (along_mem hafter hcalm)
  exact hlast.2.ready (by omega)

def downloading : Settings where
  wsApi := false
  download := { symbols := ["BTCUSDT"], tradesLookback := seconds 3600 }

/-- The order entry gets a listen key, and the drop copy begins its download. -/
def begun : List Turn := [
  .orderEntry (.connected [.listenKey]),
  .orderEntry (.answer 0 .listenKey (.success (.ok "key"))
    { now := 1, downloading := true, visits := [.done] } (.knowing none)),
  .created "key",
  .dropCopy (.ready 2 [])]

/-- A round in which one request is answered. -/
def answering (now : Nanos) (n : ℕ) (call : RestStream.Call) (r : RestResponse call.Ack) : List Turn := [
  .orderEntry (.timer now true (fun _ => true) (.knowing none)),
  .orderEntry (.answer n call r { now, downloading := false, visits := [] } (.knowing none)),
  .dropCopy (.timer now true (.knowing none) [])]

/-- A round in which nothing is asked for. -/
def resting (now : Nanos) : List Turn := [
  .orderEntry (.timer now true (fun _ => true) (.knowing none)),
  .dropCopy (.timer now true (.knowing none) [])]

def fiveRounds : List Turn :=
  answering 3 1 (.accountBalance false) (.success (.ok ())) ++
  (answering 4 2 .accountStatus (.success (.ok ())) ++
  (answering 5 3 .openOrders (.success (.ok [])) ++
  (answering 6 4 (.userTrades "BTCUSDT") (.serverError "busy") ++
  (resting 7 ++ []))))

theorem completed_fiveRounds :
    (run (step (R := .simple) downloading .standard) fiveRounds
      (run (step (R := .simple) downloading .standard) begun (create "A1" "")).1).1.dropCopy.connectionStatus
      = .ready := by
  refine completed_run LimitRequest.simple_serves downloading .standard "A1" "" begun fiveRounds
    (Nat.le_refl 5) ?_ (by decide) (by decide) ?_
  · have htimer : ∀ {s : RestAccount .simple} {now : Nanos}, s.stream.kind = .orderEntryClassic →
        s.request.served .staleOrders now true = false →
        RestStream.Output.fatal ∉ (RestStream.step downloading
          (.timer now true (fun _ => true) (.knowing none)) s.rest).2 →
        Fine downloading s (.orderEntry (.timer now true (fun _ => true) (.knowing none))) := by
      intro s now hkind hstale hfatal
      have hclass : s.rest.stream.kind ≠ .restTrade := by
        rw [show s.rest.stream.kind = s.stream.kind from rfl, hkind]
        nofun
      exact ⟨hfatal, RestStream.issues_timer downloading hstale (Or.inl ⟨hclass, by decide⟩)⟩
    simp only [begun, fiveRounds, answering, resting, List.cons_append, List.nil_append, List.append_nil,
      Along, and_true]
    refine ⟨⟨by decide, trivial⟩, ⟨by decide, trivial⟩, trivial, trivial,
      htimer rfl rfl (by decide), ⟨by decide, trivial⟩, trivial,
      htimer rfl rfl (by decide), ⟨by decide, trivial⟩, trivial,
      htimer rfl rfl (by decide), ⟨by decide, trivial⟩, trivial,
      htimer rfl rfl (by decide), ⟨by decide, trivial⟩, trivial,
      htimer rfl rfl (by decide), trivial⟩
  · refine ⟨_, _, rfl, ⟨[], _, _, _, [_], _, _, _, [], rfl, by decide, fun _ _ => rfl, by decide⟩, ?_⟩
    refine ⟨_, _, rfl, ⟨[], _, _, _, [_], _, _, _, [], rfl, by decide, fun _ _ => rfl, by decide⟩, ?_⟩
    refine ⟨_, _, rfl, ⟨[], _, _, _, [_], _, _, _, [], rfl, by decide, fun _ _ => rfl, by decide⟩, ?_⟩
    refine ⟨_, _, rfl, ⟨[], _, _, _, [_], _, _, _, [], rfl, by decide, fun _ _ => rfl, by decide⟩, ?_⟩
    exact ⟨_, _, rfl, ⟨[], _, _, _, [], _, _, _, [], rfl, by decide, fun _ _ => rfl, by decide⟩, rfl⟩

end RestAccount

end BinanceFutures
