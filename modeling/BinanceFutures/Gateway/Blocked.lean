import BinanceFutures.Gateway.Downloads
import BinanceFutures.Gateway.Serving

/-! # Blocked downloads

    `RestTrade::get_trades` returns before it asks for anything, and an answer about trades would commit
    the open orders. So the slot of the trades, once it has been served by `RestTrade`, stays in flight.

        GET_TRADES ─ open ─▶ pending ─ RestTrade: check_pending ─▶ in flight, for ever

    A drop copy that downloads trades waits for that slot last of all, and does not become ready. -/

namespace BinanceFutures
open Machine

namespace RestStream

section
variable {R : LimitRequest} (settings : Settings)

/-- No answer to `RestTrade` commits the trades. -/
theorem closes_restTrade (call : Call) : call.closes .restTrade ≠ some .trades := by
  cases call with
  | accountBalance polling => cases polling <;> nofun
  | _ => nofun

/-- The trades have no response. -/
def Unanswered (_ : List Output) (w : World R) : Prop := w.request.hasResponse .trades = false

theorem follows_unanswered (hclears : R.Clears) : Follows (R := R) .restTrade Unanswered where
  aside h hslot _ := by
    unfold Unanswered Request.hasResponse at h ⊢
    rwa [hslot]
  committed := by
    intro out w w' c call now hcloses h hrequest
    have hne : Slot.trades ≠ c := by
      rintro rfl
      exact closes_restTrade call hcloses
    have hslot : (w.request.commit c now).slot .trades = w.request.slot .trades :=
      Function.update_of_ne hne ..
    unfold Unanswered Request.hasResponse at h ⊢
    rwa [hrequest, hslot]
  unserved c now gate h _ := by
    by_contra hresponse
    rw [Unanswered, Bool.not_eq_false] at hresponse
    exact Bool.false_ne_true (h.symm.trans (Request.response_of_checkPending hclears hresponse))
  served c now gate _ _ h _ hslot _ := by
    by_contra hresponse
    rw [Unanswered, Bool.not_eq_false, Request.hasResponse, hslot] at hresponse
    exact Bool.false_ne_true (h.symm.trans (Request.response_of_checkPending hclears hresponse))

end

end RestStream

namespace DropCopy

section
variable {R : LimitRequest} (settings : Settings) (proc : Stages.Procedure State)

/-- A classic drop copy that is not ready and has not said so. If it waits for the trades they have no
    response. -/
structure Barred (out : List Output) (w : World R) : Prop where
  variant_eq : w.dropCopy.variant = .classic
  status : w.dropCopy.connectionStatus ≠ .ready
  never : ∀ reason, .streamStatus .ready reason ∉ out
  unanswered : w.dropCopy.downloadState = .getTrades → w.request.hasResponse .trades = false

variable {settings} {out os : List Output} {w w' : World R}

/-- Nothing is said about being ready. -/
theorem Barred.append (h : Barred out w) (hvariant : w'.dropCopy.variant = w.dropCopy.variant)
    (hstatus : w'.dropCopy.connectionStatus ≠ .ready)
    (hos : ∀ reason, .streamStatus .ready reason ∉ os)
    (hresponse : w'.dropCopy.downloadState = .getTrades → w'.request.hasResponse .trades = false) :
    Barred (out ++ os) w' where
  variant_eq := hvariant.trans h.variant_eq
  status := hstatus
  never reason := by simpa using ⟨h.never reason, hos reason⟩
  unanswered := hresponse

/-- A state other than the last one, if the trades are downloaded. -/
theorem barred_download (hclears : R.Clears) (hwants : wantsTrades settings = true) (now : Nanos)
    {state : State} (hstate : state ≠ .done) : Keeps (Barred (R := R)) (download settings now state) := by
  intro out w h
  have hopen : ∀ {c : Slot}, (state = .getTrades → c = .trades) →
      Barred (out ++ (openSlot state c now { w with dropCopy.downloadState := state }).2)
        (openSlot state c now { w with dropCopy.downloadState := state }).1 := by
    intro c hc
    refine h.append rfl (by simp [openSlot, setStatus]) (by simp [openSlot, setStatus]) fun heq => ?_
    obtain rfl := hc heq
    simp [openSlot, setStatus, Request.hasResponse, Request.request, hclears.request]
  have hpass : state ≠ .getTrades →
      Barred (out ++ []) { w with dropCopy.downloadState := state, dropCopy.waiting := false } :=
    fun hne => h.append rfl h.status (by simp) fun heq => absurd heq hne
  cases state with
  | undefined => exact hpass (by simp)
  | getBalances | getPositions | getOpenOrders => exact hopen (by simp)
  | done => exact absurd rfl hstate
  | getPositionsPm =>
    simp only [download, seq_fst, seq_snd, downloadBody]
    split
    · exact hopen (by simp)
    · exact hpass (by simp)
  | getStaleOrders =>
    simp only [download, seq_fst, seq_snd, downloadBody]
    split
    · exact hpass (by simp)
    · exact hopen (by simp)
  | getTrades =>
    have htrades : settings.download.tradesLookback ≠ 0 ∧ ¬ settings.download.symbols.isEmpty := by
      simpa [wantsTrades] using hwants
    simp only [download, seq_fst, seq_snd, downloadBody, modify_apply, if_pos htrades]
    exact hopen fun _ => rfl

/-- Where the download waits for the trades, it comes to its end from there only. -/
theorem done_notMem_ask (hwants : wantsTrades settings = true) (hclassic : w.dropCopy.variant = .classic)
    {current : Option State} {state : State} (hstate : state ≠ .getTrades) :
    .done ∉ (proc.ask (downloads settings w) false current (.checkRelaxed state)).2 := by
  have hlist : (downloads settings w).list = states .classic := congrArg states hclassic
  have hrest : ((states .classic).dropWhile (· ≠ state)).tail = [] ∨
      ∃ before, ((states .classic).dropWhile (· ≠ state)).tail = before ++ .getTrades :: [.done] ∧
        .done ∉ before := by
    cases state with
    | getTrades => exact absurd rfl hstate
    | undefined | getPositionsPm | done => exact Or.inl (by decide)
    | getBalances => exact Or.inr ⟨[.getPositions, .getOpenOrders, .getStaleOrders], by decide⟩
    | getPositions => exact Or.inr ⟨[.getOpenOrders, .getStaleOrders], by decide⟩
    | getOpenOrders => exact Or.inr ⟨[.getStaleOrders], by decide⟩
    | getStaleOrders => exact Or.inr ⟨[], by decide⟩
  rw [proc.ask_checkRelaxed]
  split
  · rw [Stages.onward, hlist]
    rcases hrest with hempty | ⟨before, hbefore, hdone⟩
    · rw [hempty]
      simp [Stages.enter]
    · rw [hbefore]
      intro hmem
      have hstopped := Stages.enter_stops (d := downloads settings w) (t := .getTrades) hwants hmem
      simp [hdone] at hstopped
  · simp

theorem barred_checkRequestQueue (hclears : R.Clears) (hwants : wantsTrades settings = true) (now : Nanos)
    (refresh : Bool) (d : Dispatcher) (vs : List State) (h : Barred out w) :
    Barred (out ++ (checkRequestQueue settings now d
        (visits settings proc w (.own (.timer now refresh d vs))) w).2)
      (checkRequestQueue settings now d (visits settings proc w (.own (.timer now refresh d vs))) w).1 := by
  have hsame : Barred (out ++ []) w := by rwa [List.append_nil]
  unfold checkRequestQueue
  split
  · exact hsame
  next c hslot =>
    split
    next hresponse =>
      -- the trades have no response, so the download is in an earlier state
      have hstate : w.dropCopy.downloadState ≠ .getTrades := by
        intro heq
        rw [heq] at hslot
        obtain rfl : Slot.trades = c := Option.some.inj hslot
        exact Bool.false_ne_true ((h.unanswered heq).symm.trans hresponse)
      have hdone : .done ∉ visits settings proc w (.own (.timer now refresh d vs)) := by
        refine done_notMem_ask proc hwants ?_ hstate
        split <;> exact h.variant_eq
      refine keeps_seqAll (I := Barred) (fun f hf => ?_) out w h
      simp only [List.mem_cons, List.not_mem_nil, or_false] at hf
      rcases hf with rfl | rfl | rfl
      · exact keeps_guarded _ fun out w _ h => h.append rfl h.status (by simp [checkStaleOrders]) h.unanswered
      · exact fun out w h => h.append rfl h.status (by simp) h.unanswered
      · refine keeps_map fun state hmem => barred_download hclears hwants now ?_
        rintro rfl
        exact hdone hmem
    next => exact hsame

/-- Where trades are downloaded and have no response, no event makes the drop copy ready. -/
theorem barred_turn (hclears : R.Clears) (hwants : wantsTrades settings = true) (e : Event)
    (h : Barred out w) :
    Barred (out ++ (turn settings ((Turn.own e).calling (visits settings proc w (.own e))) w).2)
      (turn settings ((Turn.own e).calling (visits settings proc w (.own e))) w).1 := by
  cases e with
  | start | stop | connected | close | latency | binary =>
    exact h.append rfl h.status (by simp [Turn.calling, turn, step]) h.unanswered
  | text d m =>
    cases m with
    | none => exact h.append rfl h.status (by simp [Turn.calling, turn, step]) h.unanswered
    | some m =>
      cases m with
      | listenKeyExpired =>
        exact h.append rfl h.status (by simp [Turn.calling, turn, step, listenKeyExpired]) h.unanswered
      | orderTradeUpdate m | tradeLite m | executionReport2 m | other =>
        exact h.append rfl h.status (by simp [Turn.calling, turn, step]) h.unanswered
  | disconnected =>
    simp only [Turn.calling, turn, step, disconnected_eq]
    refine h.append rfl (by simp) (fun reason => ?_) (by simp)
    split <;> simp
  | ready now vs =>
    have hvisits : visits settings proc w (.own (.ready now vs)) = [.getBalances] := by
      simp [visits_ready, downloads, h.variant_eq, states, Stages.enter]
    rw [hvisits]
    refine keeps_seq (I := Barred) (fun out w h => ?_) (keeps_map fun state hmem => ?_) out w h
    · exact h.append rfl h.status (by simp) h.unanswered
    · exact barred_download hclears hwants now (by rw [List.mem_singleton.mp hmem]; decide)
  | timer now refresh d vs =>
    cases refresh with
    | false => exact h.append rfl h.status (by simp [Turn.calling, turn, step, guarded]) h.unanswered
    | true =>
      have hqueue := barred_checkRequestQueue proc hclears hwants now true d vs h
      have htasks : Keeps (Barred (R := R)) (seqAll [guarded isReady
          (seqAll [refreshBalance settings now, checkStaleOrdersPeriodic settings now d])]) := by
        -- it is not ready
        refine keeps_seq (keeps_guarded _ fun out w hready h => ?_) (keeps_skip _)
        exact absurd (by simpa [isReady] using hready) h.status
      have htimer := htasks _ _ hqueue
      rw [List.append_assoc] at htimer
      simp only [Turn.calling, turn, step, guarded, if_true, timer, h.variant_eq]
      exact htimer

end

end DropCopy

end BinanceFutures
