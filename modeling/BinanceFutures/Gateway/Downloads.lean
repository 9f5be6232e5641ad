import BinanceFutures.Gateway.DropCopy
import BinanceFutures.Schemes.Stages
import BinanceFutures.Schemes.Trace

/-! # Downloads of a drop copy

    A drop copy is ready once its download is done. The download opens the slots of the account one by
    one, and goes on when the slot of its state has a response.

        Ready ─▶ GET_BALANCES ─ commit balances ─▶ GET_POSITIONS ─ commit positions ─▶ …  ─▶ READY
                      └─ Disconnected: the download is reset

    A trace has the turns and what they put out. What was opened and committed before the download
    began does not count. -/

namespace BinanceFutures

/-- A slot that has been opened has no response until it is committed. -/
structure LimitRequest.Clears (R : LimitRequest) : Prop where
  request : ∀ t o, R.hasResponse (R.request t o) = false
  served : ∀ gate t o, R.hasResponse (R.checkPending gate t o).2 = true → R.hasResponse o = true

theorem LimitRequest.simple_clears : LimitRequest.simple.Clears where
  request t o := by cases o <;> rfl
  served gate t o h := by cases gate <;> cases o <;> first | rfl | cases h

/-- Serving gives no slot a response. -/
theorem Request.response_of_checkPending {R : LimitRequest} (hclears : R.Clears) {q : Request R}
    {c c' : Slot} {t : Nanos} {gate : Bool}
    (h : (q.checkPending c t gate).hasResponse c' = true) : q.hasResponse c' = true := by
  by_cases hc : c' = c
  · subst hc
    simp only [checkPending, hasResponse, Function.update_self] at h
    exact hclears.served gate t _ h
  · simpa [checkPending, hasResponse, hc] using h

namespace DropCopy
open Machine

/-! ### The download -/

/-- The states of the class, in their order. -/
def states : Variant → List State
  | .classic => [.getBalances, .getPositions, .getOpenOrders, .getStaleOrders, .getTrades, .done]
  | .portfolio =>
    [.getBalances, .getPositions, .getPositionsPm, .getOpenOrders, .getStaleOrders, .getTrades, .done]

section
variable {R : LimitRequest} (settings : Settings) (proc : Stages.Procedure State)

/-- Trades are downloaded. -/
def wantsTrades : Bool := settings.download.tradesLookback ≠ 0 ∧ ¬ settings.download.symbols.isEmpty

/-- The stages of `download_`, with what `download` returns for a state. `proc` is `core::Download2` of
    the client library. -/
def downloads (w : World R) : Stages State where
  list := states w.dropCopy.variant
  waits
    | .undefined | .done => false
    | .getBalances | .getPositions | .getOpenOrders => true
    | .getPositionsPm => w.dropCopy.variant = .portfolio
    | .getStaleOrders => !w.request.detailsStaleOrders.isEmpty
    | .getTrades => wantsTrades settings

/-- The state that the download waits in. -/
def current (w : World R) : Option State :=
  if w.dropCopy.waiting then some w.dropCopy.downloadState else none

/-- The states for which the download calls back in a turn. -/
def visits (w : World R) : Turn → List State
  | .own (.ready _ _) => (proc.ask (downloads settings w) false (current w) .begin).2
  | .own (.timer _ _ d _) =>
    let w' := if w.dropCopy.downloadState = .getOpenOrders then (checkStaleOrders d w).1 else w
    (proc.ask (downloads settings w') false (current w) (.checkRelaxed w.dropCopy.downloadState)).2
  | _ => []

/-- The download is begun. -/
theorem visits_ready (now : Nanos) (vs : List State) (w : World R) :
    visits settings proc w (.own (.ready now vs))
      = ((downloads settings w).enter (downloads settings w).list).2 := by
  rw [visits, proc.ask_begin]

/-- The turn with the download's callbacks. -/
def Turn.calling (visits : List State) : Turn → Turn
  | .own (.ready now _) => .own (.ready now visits)
  | .own (.timer now refresh d _) => .own (.timer now refresh d visits)
  | e => e

/-- What is seen of a run. -/
inductive Note where
  | turn (e : Turn)
  | out (o : Output)

/-- A turn of the drop copy with its download. -/
def downloadTurn (e : Turn) : Action (World R) Note := fun w =>
  let (w', out) := turn settings (e.calling (visits settings proc w e)) w
  (w', .turn e :: out.map .out)

/-! ### What has been downloaded -/

/-- A slot has been opened in a state, or committed. -/
inductive Mark where
  | opened (state : String)
  | committed (c : Slot)
  deriving DecidableEq

def Note.mark : Note → Option Mark
  | .turn (.committed c _) => some (.committed c)
  | .out (.streamStatus .downloading reason) => some (.opened reason)
  | _ => none

/-- The download is begun, or reset. -/
def Note.starts : Note → Bool
  | .out .downloadBegin | .out .downloadReset => true
  | _ => false

/-- What has been opened and committed since the download was begun or reset. -/
def marks (notes : List Note) : List Mark := (Trace.since Note.starts notes).filterMap Note.mark

/-- The states in which something is downloaded in any case. -/
def State.mandatory : State → Bool
  | .getBalances | .getPositions | .getPositionsPm | .getOpenOrders => true
  | .getTrades => wantsTrades settings
  | .undefined | .getStaleOrders | .done => false

/-- The slot of the state is opened, and committed afterwards. -/
def State.marks (state : State) : List Mark :=
  match state.slot with
  | none => []
  | some c => [.opened state.name, .committed c]

/-- What has to be downloaded before the state. -/
def before (variant : Variant) (state : State) : List Mark :=
  (((states variant).takeWhile (· ≠ state)).filter (State.mandatory settings)).flatMap State.marks

/-- All that has to be downloaded. -/
def whole (variant : Variant) : List Mark := before settings variant .done

/-- A drop copy that says it is ready has downloaded everything, one after the other. -/
def Complete (variant : Variant) (notes : List Note) : Note → Prop
  | .out (.streamStatus .ready _) => (whole settings variant).Sublist (marks notes)
  | _ => True

/-- Where the download stands. -/
structure Progress (variant : Variant) (notes : List Note) (w : World R) : Prop where
  variant_eq : w.dropCopy.variant = variant
  complete : Trace.Each (Complete settings variant) notes
  downloading : w.dropCopy.waiting = true → w.dropCopy.connectionStatus = .downloading
  waits : w.dropCopy.waiting = true → ∃ c, w.dropCopy.downloadState.slot = some c ∧
    w.dropCopy.downloadState ∈ states variant ∧
    (before settings variant w.dropCopy.downloadState
      ++ [Mark.opened w.dropCopy.downloadState.name]).Sublist (marks notes) ∧
    (w.request.hasResponse c = true →
      (before settings variant w.dropCopy.downloadState ++ w.dropCopy.downloadState.marks).Sublist
        (marks notes))

variable {settings} {variant : Variant} {notes : List Note} {w : World R}

theorem marks_append {os : List Note} (h : ∀ o ∈ os, o.starts = false) :
    marks (notes ++ os) = marks notes ++ os.filterMap Note.mark := by
  rw [marks, Trace.since_append h, List.filterMap_append]
  rfl

theorem sublist_marks {os : List Note} {ms : List Mark} (h : ∀ o ∈ os, o.starts = false)
    (hms : ms.Sublist (marks notes)) : ms.Sublist (marks (notes ++ os)) := by
  rw [marks_append h]
  exact hms.trans (List.sublist_append_left _ _)

/-- A state of the class that may be entered: what has to be downloaded before has been. -/
def Permitted (settings : Settings) (variant : Variant) (notes : List Note) (state : State) : Prop :=
  state ∈ states variant ∧ (before settings variant state).Sublist (marks notes)

theorem permitted_append {state : State} {os : List Note} (h : ∀ o ∈ os, o.starts = false)
    (hstate : Permitted settings variant notes state) :
    Permitted settings variant (notes ++ os) state := ⟨hstate.1, sublist_marks h hstate.2⟩

/-- The next state is permitted when the current one has been downloaded, if it has to be. -/
theorem permitted_next {s t : State} (hs : s ∈ states variant)
    (ht : t ∈ ((states variant).dropWhile (· ≠ s)).tail.head?)
    (h : (before settings variant s ++ (if s.mandatory settings then s.marks else [])).Sublist
      (marks notes)) : Permitted settings variant notes t := by
  have hnext : t ∈ states variant ∧
      (states variant).takeWhile (· ≠ t) = (states variant).takeWhile (· ≠ s) ++ [s] := by
    cases variant <;> cases s <;> simp [states, List.dropWhile] at hs ht <;> subst ht <;> decide
  refine ⟨hnext.1, ?_⟩
  rw [before, hnext.2, List.filter_append, List.flatMap_append]
  cases hmandatory : s.mandatory settings <;> simpa [before, hmandatory] using h

/-- A state in which the download does not wait hands on its permission. -/
theorem chain_states (w : World R) (hvariant : w.dropCopy.variant = variant) :
    (downloads settings w).list.IsChain fun s t => (downloads settings w).waits s = false →
      Permitted settings variant notes s → Permitted settings variant notes t := by
  have hstep : ∀ s t, s ∈ states variant → t ∈ ((states variant).dropWhile (· ≠ s)).tail.head? →
      (downloads settings w).waits s = false → Permitted settings variant notes s →
      Permitted settings variant notes t := by
    intro s t hs ht hwaits hpermitted
    refine permitted_next hs ht ?_
    have hmandatory : s.mandatory settings = false := by
      cases s with
      | getPositionsPm =>
        exfalso
        subst hvariant
        cases hclass : w.dropCopy.variant with
        | classic => simp [hclass, states] at hs
        | portfolio => simp [downloads, hclass] at hwaits
      | undefined | getBalances | getPositions | getOpenOrders | getStaleOrders | getTrades | done =>
        first | rfl | exact hwaits
    rw [hmandatory]
    simpa using hpermitted.2
  rw [show (downloads settings w).list = states variant from congrArg states hvariant]
  cases variant with
  | classic =>
    simp only [states, List.isChain_cons_cons, List.isChain_singleton, and_true]
    exact ⟨hstep _ _ (by decide) (by decide), hstep _ _ (by decide) (by decide),
      hstep _ _ (by decide) (by decide), hstep _ _ (by decide) (by decide),
      hstep _ _ (by decide) (by decide)⟩
  | portfolio =>
    simp only [states, List.isChain_cons_cons, List.isChain_singleton, and_true]
    exact ⟨hstep _ _ (by decide) (by decide), hstep _ _ (by decide) (by decide),
      hstep _ _ (by decide) (by decide), hstep _ _ (by decide) (by decide),
      hstep _ _ (by decide) (by decide), hstep _ _ (by decide) (by decide)⟩

/-! ### Callbacks -/

/-- An action with what it puts out. -/
def noted (f : Action (World R) Output) : Action (World R) Note := fun w => ((f w).1, (f w).2.map .out)

theorem noted_seq (f g : Action (World R) Output) : noted (seq f g) = seq (noted f) (noted g) := by
  funext w
  simp [noted, seq]

/-- Something is put out that says nothing about the download. -/
def Output.silent : Output → Bool
  | .streamStatus status _ => status ≠ .ready
  | .downloadBegin | .downloadReset => false
  | _ => true

theorem starts_of_silent {o : Output} (h : o.silent = true) : (Note.out o).starts = false := by
  cases o <;> simp_all [Output.silent, Note.starts]

theorem complete_of_silent {o : Output} (h : o.silent = true) (pre : List Note) :
    Complete settings variant pre (.out o) := by
  cases o with
  | streamStatus status reason =>
    cases status <;> trivial
  | _ => trivial

/-- What the download needs not know of. -/
theorem Progress.append (h : Progress settings variant notes w) {os : List Output}
    (hos : ∀ o ∈ os, o.silent = true) : Progress settings variant (notes ++ os.map .out) w := by
  have hstarts : ∀ n ∈ os.map Note.out, n.starts = false := by
    intro n hn
    obtain ⟨o, ho, rfl⟩ := List.mem_map.mp hn
    exact starts_of_silent (hos o ho)
  refine ⟨h.variant_eq, Trace.each_append h.complete fun pre n hn => ?_, h.downloading,
    fun hwaiting => ?_⟩
  · obtain ⟨o, ho, rfl⟩ := List.mem_map.mp hn
    exact complete_of_silent (hos o ho) pre
  · obtain ⟨c, hslot, hmem, hopened, hdone⟩ := h.waits hwaiting
    exact ⟨c, hslot, hmem, sublist_marks hstarts hopened, fun hresponse =>
      sublist_marks hstarts (hdone hresponse)⟩

/-- The download does not wait. -/
theorem progress_idle (hvariant : w.dropCopy.variant = variant)
    (hcomplete : Trace.Each (Complete settings variant) notes) (hwaiting : w.dropCopy.waiting = false) :
    Progress settings variant notes w :=
  ⟨hvariant, hcomplete, by simp [hwaiting], by simp [hwaiting]⟩

theorem progress_openSlot (hclears : R.Clears) {state : State} {c : Slot} (hslot : state.slot = some c)
    (now : Nanos) (hvariant : w.dropCopy.variant = variant)
    (hcomplete : Trace.Each (Complete settings variant) notes)
    (hdownload : w.dropCopy.downloadState = state) (hpermitted : Permitted settings variant notes state) :
    Progress settings variant (notes ++ (noted (openSlot state c now) w).2)
      (noted (openSlot state c now) w).1 := by
  have hstarts : ∀ n ∈ [Note.out (.streamStatus .downloading state.name)], n.starts = false := by
    simp [Note.starts]
  refine ⟨hvariant, ?_, fun _ => rfl, fun _ => ⟨c, hdownload ▸ hslot, hdownload ▸ hpermitted.1, ?_, ?_⟩⟩
  · exact Trace.each_append hcomplete fun pre n hn => by
      rw [List.mem_singleton.mp hn]
      trivial
  · have hmarks : marks (notes ++ (noted (openSlot state c now) w).2)
        = marks notes ++ [.opened state.name] := marks_append hstarts
    rw [hmarks]
    exact (hdownload ▸ hpermitted.2).append (hdownload ▸ List.Sublist.refl _)
  · have hnone : (w.request.request c now).hasResponse c = false := by
      simp [Request.request, Request.hasResponse, hclears.request]
    intro hresponse
    rw [show (noted (openSlot state c now) w).1.request = w.request.request c now from rfl, hnone]
      at hresponse
    cases hresponse

theorem progress_download (hclears : R.Clears) (now : Nanos) {state : State}
    (hpermitted : Permitted settings variant notes state) (hvariant : w.dropCopy.variant = variant)
    (hcomplete : Trace.Each (Complete settings variant) notes) :
    Progress settings variant (notes ++ (noted (download settings now state) w).2)
      (noted (download settings now state) w).1 := by
  have hopen : ∀ {c : Slot}, state.slot = some c →
      Progress settings variant
        (notes ++ (noted (openSlot state c now) { w with dropCopy.downloadState := state }).2)
        (noted (openSlot state c now) { w with dropCopy.downloadState := state }).1 := fun hslot =>
    progress_openSlot hclears hslot now hvariant hcomplete rfl hpermitted
  have hpass : Progress settings variant (notes ++ [])
      { w with dropCopy.downloadState := state, dropCopy.waiting := false } := by
    rw [List.append_nil]
    exact progress_idle hvariant hcomplete rfl
  cases state with
  | undefined => exact hpass
  | getBalances | getPositions | getOpenOrders => exact hopen rfl
  | getPositionsPm =>
    simp only [noted, download, seq_fst, seq_snd, downloadBody]
    split
    · exact hopen rfl
    · exact hpass
  | getStaleOrders =>
    simp only [noted, download, seq_fst, seq_snd, downloadBody]
    split
    · exact hpass
    · exact hopen rfl
  | getTrades =>
    simp only [noted, download, seq_fst, seq_snd, downloadBody]
    split
    · exact hopen rfl
    · exact hpass
  | done =>
    -- the drop copy is ready, and all has been downloaded
    refine progress_idle hvariant ?_ rfl
    exact Trace.each_concat hcomplete hpermitted.2

theorem starts_download (now : Nanos) (state : State) (w : World R) :
    ∀ n ∈ (noted (download settings now state) w).2, n.starts = false := by
  intro n hn
  obtain ⟨o, ho, rfl⟩ := List.mem_map.mp hn
  cases o with
  | downloadBegin | downloadReset =>
    have hstatus := silent_visit settings now [state] w _ (List.mem_append_left _ ho)
    refine absurd (fun status reason => ?_) hstatus
    nofun
  | _ => rfl

theorem progress_visit (hclears : R.Clears) (now : Nanos) : ∀ {visits : List State}
    {notes : List Note} {w : World R}, (∀ s ∈ visits, Permitted settings variant notes s) →
      Progress settings variant notes w →
      Progress settings variant (notes ++ (noted (visit settings now visits) w).2)
        (noted (visit settings now visits) w).1
  | [], notes, w, _, h => by simpa [noted, visit, seqAll] using h
  | state :: visits, notes, w, hpermitted, h => by
      have hfirst := progress_download hclears now (hpermitted state (by simp)) h.variant_eq h.complete
      have hlater : ∀ s ∈ visits,
          Permitted settings variant (notes ++ (noted (download settings now state) w).2) s := fun s hs =>
        permitted_append (starts_download now state w) (hpermitted s (List.mem_cons_of_mem _ hs))
      have hrest := progress_visit hclears now hlater hfirst
      rw [List.append_assoc] at hrest
      rw [visit, List.map_cons, seqAll, noted_seq]
      exact hrest

/-- The download has been begun, and enters the first state. -/
theorem progress_begin (hclears : R.Clears) (now : Nanos) {visits : List State} (hne : visits ≠ [])
    (hpermitted : ∀ s ∈ visits, Permitted settings variant notes s)
    (hvariant : w.dropCopy.variant = variant) (hcomplete : Trace.Each (Complete settings variant) notes) :
    Progress settings variant (notes ++ (noted (visit settings now visits) w).2)
      (noted (visit settings now visits) w).1 := by
  obtain ⟨state, rest, rfl⟩ := List.exists_cons_of_ne_nil hne
  have hfirst := progress_download hclears now (hpermitted state (by simp)) hvariant hcomplete
  have hlater : ∀ s ∈ rest,
      Permitted settings variant (notes ++ (noted (download settings now state) w).2) s := fun s hs =>
    permitted_append (starts_download now state w) (hpermitted s (List.mem_cons_of_mem _ hs))
  have hrest := progress_visit hclears now hlater hfirst
  rw [List.append_assoc] at hrest
  rw [visit, List.map_cons, seqAll, noted_seq]
  exact hrest

/-! ### Turns -/

/-- The slots have the responses that they had, and the download is where it was. -/
theorem Progress.same (h : Progress settings variant notes w) {w' : World R}
    (hdropCopy : w'.dropCopy = w.dropCopy)
    (hresponse : ∀ c, w'.request.hasResponse c = true → w.request.hasResponse c = true) :
    Progress settings variant notes w' := by
  refine ⟨hdropCopy ▸ h.variant_eq, h.complete, hdropCopy ▸ h.downloading, fun hwaiting => ?_⟩
  rw [hdropCopy] at hwaiting ⊢
  obtain ⟨c, hslot, hmem, hopened, hdone⟩ := h.waits hwaiting
  exact ⟨c, hslot, hmem, hopened, fun h => hdone (hresponse c h)⟩

/-- The callbacks of a check are permitted. -/
theorem permitted_check (h : Progress settings variant notes w) {w' : World R}
    (hdropCopy : w'.dropCopy = w.dropCopy) {c : Slot} (hslot : w.dropCopy.downloadState.slot = some c)
    (hresponse : w.request.hasResponse c = true) :
    ∀ s ∈ (proc.ask (downloads settings w') false (current w) (.checkRelaxed w.dropCopy.downloadState)).2,
      Permitted settings variant notes s := by
  have hvariant : w'.dropCopy.variant = variant := hdropCopy ▸ h.variant_eq
  have hlist : (downloads settings w').list = states variant := congrArg states hvariant
  refine (Stages.ask_permitted (chain_states w' hvariant) ?_ (by simp) ?_ (by simp)).1
  · intro s hs
    unfold current at hs
    split at hs
    next hwaiting =>
      obtain rfl : w.dropCopy.downloadState = s := by simpa using hs
      obtain ⟨-, -, hmem, hopened, -⟩ := h.waits hwaiting
      exact ⟨hmem, (List.sublist_append_left _ _).trans hopened⟩
    next => cases hs
  · rintro s hs hcurrent t ht
    obtain rfl := Stages.Request.checkRelaxed.inj hs
    unfold current at hcurrent
    split at hcurrent
    next hwaiting =>
      obtain ⟨c', hslot', hmem, -, hdone⟩ := h.waits hwaiting
      obtain rfl : c = c' := Option.some.inj (hslot.symm.trans hslot')
      rw [Stages.onward, hlist] at ht
      refine permitted_next hmem ht (List.Sublist.trans ?_ (hdone hresponse))
      refine List.Sublist.append (List.Sublist.refl _) ?_
      split
      · exact List.Sublist.refl _
      · exact List.nil_sublist _
    next => cases hcurrent

theorem progress_checkRequestQueue (hclears : R.Clears) (now : Nanos) (refresh : Bool) (d : Dispatcher)
    (vs : List State) (h : Progress settings variant notes w) :
    Progress settings variant
      (notes ++ (noted (checkRequestQueue settings now d
        (visits settings proc w (.own (.timer now refresh d vs)))) w).2)
      (noted (checkRequestQueue settings now d
        (visits settings proc w (.own (.timer now refresh d vs)))) w).1 := by
  have hidle : Progress settings variant (notes ++ []) w := by
    rw [List.append_nil]
    exact h
  unfold noted checkRequestQueue
  split
  · exact hidle
  next c hslot =>
    split
    next hresponse =>
      -- the stale orders are looked for before the download goes on
      have hstale : (guarded (fun w : World R => w.dropCopy.downloadState = .getOpenOrders)
          (checkStaleOrders d) w).1
          = if w.dropCopy.downloadState = .getOpenOrders then (checkStaleOrders d w).1 else w := by
        by_cases horders : w.dropCopy.downloadState = .getOpenOrders <;> simp [guarded, horders]
      have hsilent : (guarded (fun w : World R => w.dropCopy.downloadState = .getOpenOrders)
          (checkStaleOrders d) w).2 = [] := by
        unfold guarded
        split <;> rfl
      have hdropCopy : (guarded (fun w : World R => w.dropCopy.downloadState = .getOpenOrders)
          (checkStaleOrders d) w).1.dropCopy = w.dropCopy := by
        rw [hstale]
        split <;> rfl
      have hrequest : ∀ c, (guarded (fun w : World R => w.dropCopy.downloadState = .getOpenOrders)
          (checkStaleOrders d) w).1.request.hasResponse c = w.request.hasResponse c := by
        intro c
        rw [hstale]
        split <;> rfl
      have hpermitted := permitted_check proc h (hstale ▸ hdropCopy) hslot hresponse
      have hsays : ∀ o ∈ [Output.downloadCheck w.dropCopy.downloadState], o.silent = true := by
        simp [Output.silent]
      have hchecked := (h.same hdropCopy fun c hc => hrequest c ▸ hc).append hsays
      have hvisit := progress_visit hclears now
        (fun s hs => permitted_append (by simp [Note.starts]) (hpermitted s hs)) hchecked
      simp only [seqAll, seq_fst, seq_snd, hsilent, emit_apply, skip_apply, List.append_nil,
        List.nil_append, List.map_append] at hvisit ⊢
      rw [← List.append_assoc]
      exact hvisit
    next => exact hidle

/-- What a ready drop copy does on a timer leaves the download alone. -/
theorem progress_tasks {f : Action (World R) Output} (hdropCopy : ∀ w : World R,
      (f w).1.dropCopy.variant = w.dropCopy.variant ∧ (f w).1.dropCopy.waiting = w.dropCopy.waiting)
    (hout : ∀ w, (f w).2 = []) : Keeps (Progress settings variant) (noted (guarded isReady f)) := by
  intro notes w h
  unfold noted guarded
  split
  next hready =>
    have hwaiting : w.dropCopy.waiting = false := by
      by_contra hwaiting
      have hdownloading := h.downloading (Bool.not_eq_false _ ▸ hwaiting)
      simp [isReady, hdownloading] at hready
    obtain ⟨hvariant, hsame⟩ := hdropCopy w
    rw [hout, List.map_nil, List.append_nil]
    exact progress_idle (hvariant.trans h.variant_eq) h.complete (hsame.trans hwaiting)
  next =>
    rw [List.map_nil, List.append_nil]
    exact h

theorem tasks_refreshBalance (settings : Settings) (now : Nanos) (w : World R) :
    ((refreshBalance settings now w).1.dropCopy.variant = w.dropCopy.variant ∧
      (refreshBalance settings now w).1.dropCopy.waiting = w.dropCopy.waiting) ∧
    (refreshBalance settings now w).2 = [] := by
  unfold refreshBalance
  split
  · exact ⟨⟨rfl, rfl⟩, rfl⟩
  · split <;> exact ⟨⟨rfl, rfl⟩, rfl⟩

theorem tasks_checkStaleOrders (settings : Settings) (now : Nanos) (d : Dispatcher) (w : World R) :
    ((checkStaleOrdersPeriodic settings now d w).1.dropCopy.variant = w.dropCopy.variant ∧
      (checkStaleOrdersPeriodic settings now d w).1.dropCopy.waiting = w.dropCopy.waiting) ∧
    (checkStaleOrdersPeriodic settings now d w).2 = [] := by
  unfold checkStaleOrdersPeriodic
  split
  · dsimp only
    split <;> exact ⟨⟨rfl, rfl⟩, rfl⟩
  · exact ⟨⟨rfl, rfl⟩, rfl⟩

theorem progress_timer (hclears : R.Clears) (now : Nanos) (refresh : Bool) (d : Dispatcher)
    (vs : List State) (h : Progress settings .classic notes w) :
    Progress settings .classic
      (notes ++ (noted (timer settings now d (visits settings proc w (.own (.timer now refresh d vs)))) w).2)
      (noted (timer settings now d (visits settings proc w (.own (.timer now refresh d vs)))) w).1 := by
  have hqueue := progress_checkRequestQueue proc hclears now refresh d vs h
  have htasks : Keeps (Progress (R := R) settings .classic) (noted (guarded isReady
      (seqAll [refreshBalance settings now, checkStaleOrdersPeriodic settings now d]))) := by
    refine progress_tasks (fun w => ?_) fun w => ?_
    · simp only [seqAll, seq_fst, skip_apply]
      have hbalance := (tasks_refreshBalance settings now w).1
      have hstale := (tasks_checkStaleOrders settings now d (refreshBalance settings now w).1).1
      exact ⟨hstale.1.trans hbalance.1, hstale.2.trans hbalance.2⟩
    · simp only [seqAll, seq_snd, skip_apply, (tasks_refreshBalance settings now w).2,
        (tasks_checkStaleOrders settings now d _).2, List.append_nil]
  have hafter := htasks _ _ hqueue
  rw [List.append_assoc] at hafter
  unfold noted timer
  rw [h.variant_eq]
  simp only [timerClassic, seqAll, seq_fst, seq_snd, skip_apply, List.append_nil, List.map_append]
  exact hafter

/-- The turn itself, which may be a commit. -/
theorem Progress.turned (h : Progress settings variant notes w) (e : Turn) :
    Progress settings variant (notes ++ [.turn e]) w := by
  have hstarts : ∀ n ∈ [Note.turn e], n.starts = false := by simp [Note.starts]
  refine ⟨h.variant_eq, Trace.each_concat h.complete trivial, h.downloading, fun hwaiting => ?_⟩
  obtain ⟨c, hslot, hmem, hopened, hdone⟩ := h.waits hwaiting
  exact ⟨c, hslot, hmem, sublist_marks hstarts hopened, fun hresponse =>
    sublist_marks hstarts (hdone hresponse)⟩

theorem progress_committed (c : Slot) (now : Nanos) (h : Progress settings variant notes w) :
    Progress settings variant (notes ++ [.turn (.committed c now)])
      { w with request := w.request.commit c now } := by
  have hstarts : ∀ n ∈ [Note.turn (.committed c now)], n.starts = false := by simp [Note.starts]
  refine ⟨h.variant_eq, Trace.each_concat h.complete trivial, h.downloading, fun hwaiting => ?_⟩
  obtain ⟨c', hslot, hmem, hopened, hdone⟩ := h.waits hwaiting
  refine ⟨c', hslot, hmem, sublist_marks hstarts hopened, fun hresponse => ?_⟩
  by_cases hc : c' = c
  · -- the slot that the download waits for
    have hmarks : marks (notes ++ [.turn (.committed c now)]) = marks notes ++ [.committed c] :=
      marks_append hstarts
    have hsplit : w.dropCopy.downloadState.marks
        = [.opened w.dropCopy.downloadState.name] ++ [.committed c] := by
      simp [State.marks, hslot, hc]
    rw [hmarks, hsplit, ← List.append_assoc]
    exact hopened.append (List.Sublist.refl _)
  · refine sublist_marks hstarts (hdone ?_)
    simpa [Request.commit, Request.hasResponse, hc] using hresponse

theorem progress_disconnected (h : Progress settings variant notes w) :
    Progress settings variant (notes ++ (noted disconnected w).2) (noted disconnected w).1 := by
  unfold noted
  rw [disconnected_eq]
  refine progress_idle h.variant_eq (Trace.each_append h.complete fun pre n hn => ?_) rfl
  obtain ⟨o, ho, rfl⟩ := List.mem_map.mp hn
  rcases List.mem_append.mp ho with hstatus | hremove
  · simp only [List.mem_cons, List.not_mem_nil, or_false] at hstatus
    rcases hstatus with rfl | rfl <;> trivial
  · split at hremove
    · rw [List.mem_singleton.mp hremove]
      trivial
    · cases hremove

theorem progress_ready (hclears : R.Clears) (now : Nanos) (vs : List State)
    (h : Progress settings variant notes w) :
    Progress settings variant
      (notes ++ (noted (seq (emit [.downloadBegin])
        (visit settings now (visits settings proc w (.own (.ready now vs))))) w).2)
      (noted (seq (emit [.downloadBegin])
        (visit settings now (visits settings proc w (.own (.ready now vs))))) w).1 := by
  have hlist : (downloads settings w).list = states variant := congrArg states h.variant_eq
  have hempty : marks (notes ++ [.out .downloadBegin]) = [] := by
    rw [marks, Trace.since_mark rfl]
    rfl
  have hfirst : ∀ s ∈ (states variant).head?,
      Permitted settings variant (notes ++ [.out .downloadBegin]) s := by
    intro s hs
    refine ⟨List.mem_of_mem_head? hs, ?_⟩
    cases variant <;> (obtain rfl : State.getBalances = s := by simpa [states] using hs) <;>
      exact List.nil_sublist _
  have hhead : ∀ s ∈ (downloads settings w).list.head?,
      Permitted settings variant (notes ++ [.out .downloadBegin]) s := hlist ▸ hfirst
  have hpermitted := (Stages.enter_permitted (chain_states w h.variant_eq) hhead).1
  rw [← visits_ready settings proc now vs] at hpermitted
  have hne : visits settings proc w (.own (.ready now vs)) ≠ [] := by
    have hhead : ∃ rest, states w.dropCopy.variant = .getBalances :: rest := by
      cases w.dropCopy.variant <;> exact ⟨_, rfl⟩
    obtain ⟨rest, hrest⟩ := hhead
    simp [visits_ready, downloads, hrest, Stages.enter]
  have hcomplete : Trace.Each (Complete settings variant) (notes ++ [.out .downloadBegin]) :=
    Trace.each_concat h.complete trivial
  have hbegun := progress_begin hclears now hne hpermitted h.variant_eq hcomplete
  rw [noted_seq, seq_snd, seq_fst, ← List.append_assoc]
  exact hbegun

/-- Every turn of a classic drop copy leaves the download where it may be. -/
theorem progress_turn (hclears : R.Clears) (e : Turn) :
    Keeps (Progress (R := R) settings .classic) (downloadTurn settings proc e) := by
  intro notes w h
  have hturned := h.turned e
  -- what is put out has nothing to do with the download, and the drop copy stays as it is
  have hsame : ∀ {os : List Output}, (∀ o ∈ os, o.silent = true) → ∀ {w' : World R},
      w'.dropCopy.variant = w.dropCopy.variant → w'.dropCopy.waiting = w.dropCopy.waiting →
      w'.dropCopy.downloadState = w.dropCopy.downloadState →
      w'.dropCopy.connectionStatus = w.dropCopy.connectionStatus → w'.request = w.request →
      Progress settings .classic (notes ++ (.turn e :: os.map .out)) w' := by
    intro os hos w' hvariant hwaiting hstate hstatus hrequest
    have hout := hturned.append hos
    rw [List.append_assoc] at hout
    refine ⟨hvariant.trans hout.variant_eq, hout.complete, ?_, ?_⟩
    · rw [hwaiting, hstatus]
      exact hout.downloading
    · rw [hwaiting, hstate, hrequest]
      exact hout.waits
  have hshared : ∀ {w' : World R}, w'.dropCopy = w.dropCopy →
      (∀ c, w'.request.hasResponse c = true → w.request.hasResponse c = true) →
      Progress settings .classic (notes ++ [.turn e]) w' :=
    fun hdropCopy hresponse => hturned.same hdropCopy hresponse
  cases e with
  | own e =>
    cases e with
    | start => exact hsame (by simp [Output.silent]) rfl rfl rfl rfl rfl
    | stop => exact hsame (by simp [Output.silent]) rfl rfl rfl rfl rfl
    | connected => exact hsame (by simp) rfl rfl rfl rfl rfl
    | close => exact hsame (by simp) rfl rfl rfl rfl rfl
    | latency => exact hsame (by simp) rfl rfl rfl rfl rfl
    | binary => exact hsame (by simp [Output.silent]) rfl rfl rfl rfl rfl
    | text d m =>
      cases m with
      | none => exact hsame (by simp [Output.silent]) rfl rfl rfl rfl rfl
      | some m =>
        cases m with
        | listenKeyExpired => exact hsame (by simp [Output.silent]) rfl rfl rfl rfl rfl
        | orderTradeUpdate m | tradeLite m | executionReport2 m | other =>
          refine hsame (fun o ho => ?_) rfl rfl rfl rfl rfl
          obtain ⟨p, -, rfl⟩ := List.mem_map.mp ho
          rfl
    | timer now refresh d vs =>
      cases refresh with
      | false =>
        have hsays : ∀ o ∈ ([] : List Output), o.silent = true := by simp
        exact hsame hsays rfl rfl rfl rfl rfl
      | true =>
        have htimer := progress_timer proc hclears now true d vs hturned
        rw [List.append_assoc] at htimer
        rw [downloadTurn, Turn.calling, turn, step, guarded, if_pos rfl]
        exact htimer
    | disconnected =>
      have hlost := progress_disconnected hturned
      rw [List.append_assoc] at hlost
      exact hlost
    | ready now vs =>
      have hready := progress_ready proc hclears now vs hturned
      rw [List.append_assoc] at hready
      rw [downloadTurn, Turn.calling, turn, step]
      exact hready
  | served c gate now =>
    exact hshared rfl fun _ hresponse => Request.response_of_checkPending hclears hresponse
  | committed c now => exact progress_committed c now h
  | asked => exact hshared rfl fun _ h => h

/-! ### The portfolio class -/

/-- A portfolio drop copy that is not ready, and has not said so. -/
structure Unready (notes : List Note) (w : World R) : Prop where
  variant_eq : w.dropCopy.variant = .portfolio
  status : w.dropCopy.connectionStatus ≠ .ready
  never : ∀ reason, .out (.streamStatus .ready reason) ∉ notes

theorem unready_turn (e : Turn) : Keeps (Unready (R := R)) (downloadTurn settings proc e) := by
  intro notes w h
  have hsame : ∀ {e' : Turn} {os : List Output}, (∀ o ∈ os, o.silent = true ∨ o = .downloadBegin ∨
      o = .downloadReset) → ∀ {w' : World R}, w'.dropCopy.variant = w.dropCopy.variant →
      w'.dropCopy.connectionStatus ≠ .ready →
      Unready (notes ++ (.turn e' :: os.map .out)) w' := by
    intro e' os hos w' hvariant hstatus
    refine ⟨hvariant.trans h.variant_eq, hstatus, fun reason hmem => ?_⟩
    rcases List.mem_append.mp hmem with hbefore | hnow
    · exact h.never reason hbefore
    · rcases List.mem_cons.mp hnow with hturn | hout
      · cases hturn
      · obtain ⟨o, ho, heq⟩ := List.mem_map.mp hout
        obtain rfl := Note.out.inj heq
        rcases hos _ ho with hsilent | hbegin | hreset
        · simp [Output.silent] at hsilent
        · cases hbegin
        · cases hreset
  cases e with
  | own e =>
    cases e with
    | start => exact hsame (by simp [Output.silent]) rfl h.status
    | stop => exact hsame (by simp [Output.silent]) rfl h.status
    | connected => exact hsame (by simp) rfl h.status
    | close => exact hsame (by simp) rfl h.status
    | latency => exact hsame (by simp) rfl h.status
    | binary => exact hsame (by simp [Output.silent]) rfl h.status
    | text d m =>
      cases m with
      | none => exact hsame (by simp [Output.silent]) rfl h.status
      | some m =>
        cases m with
        | listenKeyExpired => exact hsame (by simp [Output.silent]) rfl h.status
        | orderTradeUpdate m | tradeLite m | executionReport2 m | other =>
          refine hsame (fun o ho => ?_) rfl h.status
          obtain ⟨p, -, rfl⟩ := List.mem_map.mp ho
          exact Or.inl rfl
    | timer now refresh d vs =>
      -- it looks at its slots only when it is ready
      have hskip : ∀ visits, step settings (.timer now refresh d visits) w = (w, []) := by
        intro visits
        simp [step, guarded, timer, h.variant_eq, timerPortfolio, isReady, h.status]
      rw [downloadTurn, Turn.calling, turn, hskip]
      exact hsame (by simp) rfl h.status
    | disconnected =>
      have hturn : downloadTurn settings proc (.own .disconnected) w
          = ((disconnected w).1, .turn (.own .disconnected) :: (disconnected w).2.map .out) := rfl
      rw [hturn, disconnected_eq]
      refine hsame (fun o ho => ?_) rfl (by simp)
      rcases List.mem_append.mp ho with hstatus | hremove
      · simp only [List.mem_cons, List.not_mem_nil, or_false] at hstatus
        rcases hstatus with rfl | rfl
        · exact Or.inl rfl
        · exact Or.inr (Or.inr rfl)
      · split at hremove
        · rw [List.mem_singleton.mp hremove]
          exact Or.inl rfl
        · cases hremove
    | ready now vs =>
      have hvisits : visits settings proc w (.own (.ready now vs)) = [.getBalances] := by
        simp [visits_ready, downloads, h.variant_eq, states, Stages.enter]
      have hstep : turn settings (.own (.ready now [.getBalances])) w
          = ((openSlot .getBalances .balances now
              { w with dropCopy.downloadState := .getBalances }).1,
            [.downloadBegin, .streamStatus .downloading State.getBalances.name]) := rfl
      rw [downloadTurn, hvisits, Turn.calling, hstep]
      exact hsame (by simp [Output.silent]) rfl (by simp [openSlot, setStatus])
  | served | committed | asked => exact hsame (by simp) rfl h.status

end

/-- A drop copy says that it is ready after a whole download, of the classic class. -/
def Ready (settings : Settings) (variant : Variant) (notes : List Note) : Note → Prop
  | .out (.streamStatus .ready _) =>
    variant = .classic ∧ (whole settings variant).Sublist (marks notes)
  | _ => True

/-- CORRECT: whatever the order of the turns, a drop copy says that it is ready only after every slot of
    the download has been opened and then committed, one slot after the other, since the download was
    begun. A portfolio drop copy never says so. -/
theorem ready_run {R : LimitRequest} (hclears : R.Clears) (settings : Settings)
    (proc : Stages.Procedure State) (variant : Variant)
    (account listenKey : String) (request : Request R) (es : List Turn) :
    Trace.Each (Ready settings variant)
      (run (downloadTurn settings proc) es (create variant account listenKey request)).2 := by
  cases variant with
  | classic =>
    have hinit : Progress settings .classic [] (create .classic account listenKey request) :=
      progress_idle rfl Trace.each_nil rfl
    have hrun := keeps_run (fun e => progress_turn proc hclears e) es [] _ hinit
    intro pre n post hnotes
    have hcomplete := hrun.complete pre n post hnotes
    cases n with
    | turn e => trivial
    | out o =>
      cases o with
      | streamStatus status reason =>
        cases status with
        | ready => exact ⟨rfl, hcomplete⟩
        | undefined | disconnected | loginSent | downloading => trivial
      | _ => trivial
  | portfolio =>
    have hinit : Unready [] (create .portfolio account listenKey request) :=
      ⟨rfl, by simp [create], by simp⟩
    have hturn : ∀ e, Keeps (Unready (R := R)) (downloadTurn settings proc e) := unready_turn proc
    have hrun := keeps_run hturn es [] _ hinit
    intro pre n post hnotes
    have hmem : n ∈ [] ++ (run (downloadTurn settings proc) es
        (create .portfolio account listenKey request)).2 := by
      rw [List.nil_append, hnotes]
      exact List.mem_append_right _ List.mem_cons_self
    cases n with
    | turn e => trivial
    | out o =>
      cases o with
      | streamStatus status reason =>
        cases status with
        | ready => exact absurd hmem (hrun.never reason)
        | undefined | disconnected | loginSent | downloading => trivial
      | _ => trivial

/-- A drop copy that is disconnected in the middle of its download, and downloads again. -/
def restarted : List Turn := [
  .own (.ready 0 []), .committed .balances 1, .own (.timer 2 true (.knowing none) []),
  .own .disconnected, .own (.ready 3 []), .committed .balances 4,
  .own (.timer 5 true (.knowing none) []), .committed .positions 6,
  .own (.timer 7 true (.knowing none) []), .committed .openOrders 8,
  .own (.timer 9 true (.knowing none) [])]

theorem ready_restarted : Trace.Each (Ready {} .classic)
    (run (downloadTurn (R := LimitRequest.simple) {} .standard) restarted
      (create .classic "A1" "key" {})).2 :=
  ready_run LimitRequest.simple_clears {} .standard .classic "A1" "key" {} restarted

/-- It is ready in the end. -/
example : (run (downloadTurn (R := LimitRequest.simple) {} .standard) restarted
    (create .classic "A1" "key" {})).1.dropCopy.connectionStatus = .ready := by
  decide

end DropCopy
end BinanceFutures
