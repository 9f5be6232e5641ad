import BinanceFutures.Gateway.RestSlots
import BinanceFutures.Gateway.Verdicts

/-! # Reports on cancelled orders

    A request to cancel all orders fans out into one DELETE for every symbol that the stream remembers
    and the filter selects. The client hears of each DELETE twice: when it is forwarded, and when the
    exchange has answered.

        cancel all ─▶ DELETE symbol ── forwarded ─▶ client
                                    ── answer, success ─▶ accepted or rejected ─▶ client
                                    ── answer, anything else ─▶ log

    So the client waits for ever where nothing is selected, or where an answer is not a success with a
    body that is parsed. `reported_iff` says that it waits for ever nowhere else. -/

namespace BinanceFutures.RestStream
open Machine

/-- The call is a DELETE on behalf of the request. -/
def cancels (requestId : String) : Call → Bool
  | .allOpenOrders _ requestId' => requestId' = requestId
  | _ => false

/-- The request whose outcome an acknowledgement states: the exchange has accepted or rejected it. -/
def Output.tells : Output → Option String
  | .cancelAllOrdersAck m =>
    if m.origin = .exchange ∧ (m.requestStatus = .accepted ∨ m.requestStatus = .rejected)
    then some m.requestId else none
  | _ => none

/-- The request that an acknowledgement is about. -/
def Output.acknowledges : Output → Option String
  | .cancelAllOrdersAck m => some m.requestId
  | _ => none

/-- The requests whose outcomes have been stated. -/
def told (os : List Output) : List String := os.filterMap Output.tells

theorem told_append (os os' : List Output) : told (os ++ os') = told os ++ told os' :=
  List.filterMap_append ..

theorem tells_of_silent {o : Output} (h : o.reports = false) : o.tells = none := by
  cases o <;> first | rfl | cases h

theorem told_of_silent {os : List Output} (h : ∀ o ∈ os, ¬ o.reports = true) : told os = [] :=
  List.filterMap_eq_nil_iff.mpr fun o ho => tells_of_silent (Bool.eq_false_iff.mpr (h o ho))

section
variable {R : LimitRequest} (settings : Settings)

/-- Of the DELETEs on behalf of a request, each has been answered with one report on its outcome, or is
    outstanding. -/
def Balanced (out : List Output) (w : World R) : Prop :=
  ∀ requestId, (requested out).countP (cancels requestId) =
    w.stream.calls.count (cancels requestId) + (told out).count requestId

/-- The client hears at once of a request to cancel all orders. -/
def Heard (s : World R × Bool) : Event → Prop
  | .cancelAllOrders m requestId => s.2 = false →
    ∃ ack, Output.cancelAllOrdersAck ack ∈ (step settings (.cancelAllOrders m requestId) s.1).2 ∧
      ack.requestId = requestId
  | _ => True

/-- A request to cancel all orders selects a symbol that the stream knows. -/
def Selects (s : World R × Bool) : Event → Prop
  | .cancelAllOrders m _ => s.2 = false → ∃ symbol ∈ s.1.stream.openOrdersSymbols, m.selects symbol = true
  | _ => True

/-- An answer to a DELETE is a success, and its body is parsed. -/
def Concludes (s : World R × Bool) : Event → Prop
  | .answer n (.allOpenOrders symbol requestId) r _ _ => s.2 = false →
    (n, .allOpenOrders symbol requestId) ∈ s.1.stream.calls.entries →
      ∃ ack : Json.CodeMsg, r = .success (.ok ack)
  | _ => True

/-! ### Answers -/

theorem told_orderError (t : Target) (origin : Origin) (status : RequestStatus) (error : Error)
    (text : String) (w : World R) : told (orderError t origin status error text w).2 = [] := rfl

theorem told_orderAck (kind : Kind) (t : Target) (status : RequestStatus) (ack : Json.Order)
    (w : World R) : told (orderAck settings kind t status ack w).2 = [] := by
  unfold orderAck
  dsimp only
  split
  · rfl
  · rfl

/-- The answer to an order request states nothing about cancelled orders. -/
theorem told_order (kind : Kind) (t : Target) (r : RestResponse Json.Order) {onSuccess : Json.Order → Act R}
    {w : World R} (hsuccess : ∀ ack, told (onSuccess ack w).2 = []) :
    told (andThen (processResponse settings kind r (orderError t) onSuccess) skip w).2 = [] := by
  rw [told, filterMap_reply settings (fun _ => rfl)]
  cases r.verdict settings kind with
  | ends => rfl
  | succeeds body =>
    rw [reply, seq_skip]
    exact hsuccess body
  | fails origin status error text =>
    rw [reply, seq_skip]
    exact told_orderError t origin status error text w

/-- The answer to a DELETE states the outcome exactly if it is a success. -/
theorem told_cancelAll (kind : Kind) (requestId : String) (r : RestResponse Json.CodeMsg) (w : World R) :
    told (openOrdersCancelAllAck settings kind requestId r w).2 = [requestId] ∧
        (∃ ack, r = .success (.ok ack)) ∨
      told (openOrdersCancelAllAck settings kind requestId r w).2 = [] ∧
        ¬ ∃ ack, r = .success (.ok ack) := by
  rw [told, openOrdersCancelAllAck, filterMap_reply settings (fun _ => rfl)]
  rcases r.verdict_cases settings kind with ⟨hverdict, hends⟩ | ⟨ack, rfl, hverdict⟩ |
    ⟨⟨origin, status, error, text, hverdict⟩, -⟩
  · refine Or.inr ⟨by rw [hverdict]; rfl, ?_⟩
    rintro ⟨ack, rfl⟩
    cases hends
  · refine Or.inl ⟨?_, ack, rfl⟩
    rw [hverdict, reply, seq_skip]
    by_cases hcode : ack.code = 200
    · simp [Output.tells, hcode]
    · simp [Output.tells, hcode]
  · refine Or.inr ⟨by rw [hverdict]; rfl, ?_⟩
    rintro ⟨ack, rfl⟩
    cases hverdict

/-- The answer to a DELETE states the outcome, and other answers state none. -/
def Tells (call : Call) (os : List Output) : Prop :=
  ∀ requestId, (told os).count requestId = if cancels requestId call then 1 else 0

theorem tells_of_nil {call : Call} {os : List Output} (hos : told os = [])
    (hcall : ∀ requestId, cancels requestId call = false) : Tells call os := by
  intro requestId
  rw [hos, hcall]
  rfl

theorem tells_acknowledge_iff (n : ℕ) (env : Answers) (d : Dispatcher) (call : Call)
    (r : RestResponse call.Ack) {w w' : World R} (hmem : (n, call) ∈ w.stream.calls.entries) :
    Tells call (acknowledge settings w.stream.kind env d call r w').2
      ↔ Concludes (w, false) (.answer n call r env d) := by
  have hsilent : call.reports = false →
      told (acknowledge settings w.stream.kind env d call r w').2 = [] :=
    fun hcall => told_of_silent (silent_acknowledge settings hcall r w')
  cases call with
  | allOpenOrders symbol requestId =>
    have hiff : Concludes (w, false) (.answer n (.allOpenOrders symbol requestId) r env d) ↔
        ∃ ack : Json.CodeMsg, r = .success (.ok ack) := ⟨fun h => h rfl hmem, fun h _ _ => h⟩
    rw [hiff]
    rcases told_cancelAll settings w.stream.kind requestId r w' with ⟨htold, hok⟩ | ⟨htold, hnot⟩
    · refine iff_of_true (fun requestId' => ?_) hok
      rw [acknowledge, htold, List.count_singleton]
      simp [cancels]
    · refine iff_of_false (fun h => ?_) hnot
      have hone := h requestId
      rw [acknowledge, htold] at hone
      simp [cancels] at hone
  | orderPlace symbol body userId orderId version =>
    exact iff_of_true (tells_of_nil (told_order settings _ _ r fun ack => told_orderAck settings _ _ _ ack w')
      fun _ => rfl) trivial
  | orderModify body userId orderId version =>
    refine iff_of_true (tells_of_nil (told_order settings _ _ r fun ack => ?_) fun _ => rfl) trivial
    cases ack.status with
    | undefinedInternal | unknownInternal | new | partiallyFilled =>
      dsimp only
      split
      · rfl
      · exact told_orderAck settings _ _ _ ack w'
    | filled | canceled | expired | newInsurance | newAdl | expiredInMatch => rfl
  | orderCancel body userId orderId version =>
    refine iff_of_true (tells_of_nil (told_order settings _ _ r fun ack => ?_) fun _ => rfl) trivial
    split
    · rfl
    · split
      · rfl
      · exact told_orderAck settings _ _ _ ack w'
  | listenKey | accountBalance | accountStatus | position | openOrders | order | userTrades
  | countdownCancelAll => exact iff_of_true (tells_of_nil (hsilent rfl) fun _ => rfl) trivial

/-! ### Events -/

/-- When it is forwarded, a DELETE has no outcome. -/
theorem told_openOrdersCancelAll (m : CancelAllOrders) (requestId : String) (w : World R) :
    told (openOrdersCancelAll m requestId w).2 = [] := by
  have hloop := filterMap_seqAll (f := cancelSymbol (R := R) m requestId) (p := Output.tells)
    (g := fun _ => none) (fun symbol w => by
      unfold cancelSymbol
      split
      · rfl
      · rfl) w.stream.openOrdersSymbols w
  rw [told, openOrdersCancelAll, hloop]
  simp

/-- Each symbol that the request selects is acknowledged, and no other. -/
theorem acknowledged_openOrdersCancelAll (m : CancelAllOrders) (requestId : String) (w : World R) :
    (openOrdersCancelAll m requestId w).2.filterMap Output.acknowledges
      = w.stream.openOrdersSymbols.filterMap fun symbol =>
          if m.selects symbol then some requestId else none := by
  refine filterMap_seqAll (fun symbol w => ?_) w.stream.openOrdersSymbols w
  unfold cancelSymbol
  split
  · rfl
  · rfl

theorem heard_iff (e : Event) (s : World R × Bool) : Heard settings s e ↔ Selects s e := by
  cases e with
  | cancelAllOrders m requestId =>
    refine imp_congr_right fun _ => ?_
    have hacks := acknowledged_openOrdersCancelAll m requestId s.1
    constructor
    · rintro ⟨ack, hack, -⟩
      have hmem : ack.requestId ∈ (openOrdersCancelAll m requestId s.1).2.filterMap Output.acknowledges :=
        List.mem_filterMap.mpr ⟨_, hack, rfl⟩
      rw [hacks] at hmem
      obtain ⟨symbol, hsymbol, hsome⟩ := List.mem_filterMap.mp hmem
      by_cases hselects : m.selects symbol = true
      · exact ⟨symbol, hsymbol, hselects⟩
      · rw [if_neg hselects] at hsome
        cases hsome
    · rintro ⟨symbol, hsymbol, hselects⟩
      have hmem : requestId ∈ (openOrdersCancelAll m requestId s.1).2.filterMap Output.acknowledges := by
        rw [hacks]
        exact List.mem_filterMap.mpr ⟨symbol, hsymbol, if_pos hselects⟩
      obtain ⟨o, ho, hsome⟩ := List.mem_filterMap.mp hmem
      cases o with
      | cancelAllOrdersAck ack => exact ⟨ack, ho, Option.some.inj hsome⟩
      | _ => cases hsome
  | _ => exact Iff.rfl

/-- What goes out is owed a report, and what has been reported is owed none. -/
theorem balanced_append_iff (owed : String → ℕ) {out os : List Output} {w w₁ w' : World R}
    (h : Balanced out w) (hentered : Entered w₁ os w')
    (howed : ∀ requestId, w.stream.calls.count (cancels requestId)
      = w₁.stream.calls.count (cancels requestId) + owed requestId) :
    Balanced (out ++ os) w' ↔ ∀ requestId, (told os).count requestId = owed requestId := by
  refine forall_congr' fun requestId => ?_
  have hbefore := h requestId
  rw [requested_append, List.countP_append, told_append, List.count_append, hentered,
    Ledger.count_enterAll, hbefore, howed]
  omega

theorem balanced_step_iff (e : Event) {out : List Output} {w : World R} (h : Balanced out w) :
    Balanced (out ++ (step settings e w).2) (step settings e w).1 ↔ Concludes (w, false) e := by
  have hother : (∀ n call r env d, e ≠ .answer n call r env d) → told (step settings e w).2 = [] →
      (Balanced (out ++ (step settings e w).2) (step settings e w).1 ↔ True) := by
    intro hanswer htold
    rw [balanced_append_iff (fun _ => 0) h (entered_step settings hanswer w) fun _ => rfl, htold]
    simp
  have hquiet : (∀ n call r env d, e ≠ .answer n call r env d) → e.reports = false →
      told (step settings e w).2 = [] := fun hanswer hcancel =>
    told_of_silent (silent_step settings hanswer hcancel w)
  cases e with
  | answer n call r env d =>
    by_cases hmem : (n, call) ∈ w.stream.calls.entries
    · rw [answer_of_mem settings hmem]
      have hentered := entered_of_keeps (entered_acknowledge settings w.stream.kind env d call r)
        { w with stream.calls := w.stream.calls.settle n }
      exact (balanced_append_iff _ h hentered fun requestId =>
        Ledger.count_settle (cancels requestId) hmem).trans (tells_acknowledge_iff settings n env d call r hmem)
    · rw [step, answer, if_neg hmem, List.append_nil]
      refine iff_of_true h ?_
      cases call with
      | allOpenOrders symbol requestId => exact fun _ hmem' => absurd hmem' hmem
      | _ => trivial
  | cancelAllOrders m requestId =>
    exact hother (by simp) (told_openOrdersCancelAll m requestId w)
  | _ => exact hother (by simp) (hquiet (by simp) rfl)

theorem concludes_of_dead (w : World R) (e : Event) : Concludes (w, true) e := by
  unfold Concludes
  split
  · exact fun hdead => by cases hdead
  · trivial

/-- EXACT: in every state that a run of a stream reaches, each DELETE has been followed by one report on
    its outcome or is outstanding, and the client has heard of every request to cancel all orders, exactly
    if every request has selected a symbol that the stream knew and every answer to a DELETE has been a
    success whose body is parsed. -/
theorem reported_iff (kind : Kind) (account : String) (request : Request R) (es : List Event) :
    ((∀ pre, pre <+: es →
        Balanced (run (mortal kills (step settings)) pre (create kind account request, false)).2
          (run (mortal kills (step settings)) pre (create kind account request, false)).1.1) ∧
      Along (mortal kills (step settings)) (Heard settings) es (create kind account request, false))
    ↔ Along (mortal kills (step settings)) (fun s e => Concludes s e ∧ Selects s e) es
        (create kind account request, false) := by
  rw [along_and]
  refine and_congr ?_ (along_congr (I := fun _ => True) (fun _ _ _ => trivial)
    (fun s e _ => heard_iff settings e s) trivial)
  have hinit : Balanced [] (create kind account request) := fun _ => rfl
  refine exact_condition (I := fun out (s : World R × Bool) => Balanced out s.1) ?_ (fun _ _ h => h) ?_
    hinit es
  · rintro out ⟨w, dead⟩ e h hconcludes
    cases dead with
    | true => simpa using h
    | false => exact (balanced_step_iff settings e h).mpr hconcludes
  · rintro out ⟨w, dead⟩ e h hmiss hbalanced
    cases dead with
    | true => exact hmiss (concludes_of_dead w e)
    | false => exact hmiss ((balanced_step_iff settings e h).mp hbalanced)

end

/-- A stream places an order and cancels all of them; the exchange refuses the DELETE. -/
def refusedCancel : List Event := [
  .connected [.done],
  .createOrder { account := "A1", orderId := 1, symbol := "BTCUSDT" } 0 (.ok ""),
  .cancelAllOrders { account := "A1" } "r1",
  .answer 1 (.allOpenOrders "BTCUSDT" "r1")
    (.clientError 400 "BAD_REQUEST" 0 (.ok ⟨-1121, "Invalid symbol."⟩))
    { now := 1, downloading := false, visits := [] } (.knowing none)]

/-- The refusal is logged, and the client is not told. -/
theorem refusedCancel_not_reported :
    ¬ ((∀ pre, pre <+: refusedCancel →
        Balanced (run (mortal kills (step {})) pre (create (R := .simple) .orderEntryClassic "A1" {}, false)).2
          (run (mortal kills (step {})) pre (create (R := .simple) .orderEntryClassic "A1" {}, false)).1.1) ∧
      Along (mortal kills (step {})) (Heard {}) refusedCancel
        (create (R := .simple) .orderEntryClassic "A1" {}, false)) := by
  rintro ⟨hbalanced, -⟩
  have hone := hbalanced refusedCancel (List.prefix_refl _) "r1"
  revert hone
  decide

end BinanceFutures.RestStream
