import BinanceFutures.Gateway.Outcomes
import BinanceFutures.Gateway.RestSlots

/-! # Status and error of what the exchange has said

    A response says whether the exchange has accepted the request, and which error there was. Both are
    worked out apart from each other, from the HTTP status or from a code in the body.

        accepted ─▶ no error      rejected ─▶ an error

    The WebSocket stream is always coherent. A REST stream is not where it hears of an accepted request
    to cancel all orders, whose code 200 is mapped to an error like any other code. -/

namespace BinanceFutures
open Machine

/-- The status does not contradict the error. -/
def Coherent (status : RequestStatus) (error : Error) : Prop :=
  (status = .accepted → error = .undefined) ∧ (status = .rejected → error ≠ .undefined)

/-- What is rejected with an error is coherent. -/
theorem coherent_rejected {error : Error} (h : error ≠ .undefined) : Coherent .rejected error :=
  ⟨nofun, fun _ => h⟩

/-- What goes without an error is coherent unless it is rejected. -/
theorem coherent_undefined {status : RequestStatus} (h : status ≠ .rejected) :
    Coherent status .undefined :=
  ⟨fun _ => rfl, fun heq => absurd heq h⟩

/-! ### Exceptions -/

/-- An exception of the order management with the exchange's origin is coherent, where it is passed on. -/
def Raised.Sane (kind : RestStream.Kind) (e : Raised) : Prop :=
  ∀ status error what, e = .oms .exchange status error what → kind ≠ .restTrade → Coherent status error

/-- The exception that handling a response ends with. -/
def RestResponse.exception {α : Type} : RestResponse α → Option Raised
  | .unexpected e | .success (.error e) | .raised e => some e
  | .clientError status _ _ (.error e) => if isLimit status then none else some e
  | _ => none

theorem RestResponse.verdict_of_exception {α : Type} (settings : Settings) (kind : RestStream.Kind)
    {r : RestResponse α} {e : Raised} (h : r.exception = some e) :
    r.verdict settings kind = e.verdict kind := by
  cases r with
  | unexpected e' | raised e' =>
    obtain rfl := Option.some.inj h
    rfl
  | success body =>
    cases body with
    | ok body => cases h
    | error e' =>
      obtain rfl := Option.some.inj h
      rfl
  | redirection | serverError text => cases h
  | clientError status text retryAfter body =>
    cases body with
    | ok error => cases h
    | error e' =>
      simp only [exception] at h
      split at h
      · cases h
      next hlimit =>
        obtain rfl := Option.some.inj h
        have hforbidden : ¬ (status = forbidden ∧ settings.rest.terminateOn403 = true) := by
          rintro ⟨rfl, -⟩
          exact hlimit (by decide)
        rw [verdict, if_neg hforbidden, if_neg hlimit]

/-- Without an exception a failure is a rejection with an error. -/
theorem RestResponse.rejected_of_fails {α : Type} {settings : Settings} {kind : RestStream.Kind}
    {r : RestResponse α} (h : r.exception = none) {origin : Origin} {status : RequestStatus} {error : Error}
    {text : String} (hfails : r.verdict settings kind = .fails origin status error text) :
    status = .rejected ∧ error ≠ .undefined := by
  cases r with
  | unexpected e | raised e => cases h
  | success body =>
    cases body with
    | ok body => cases hfails
    | error e => cases h
  | redirection => cases hfails
  | serverError text =>
    cases hfails
    exact ⟨rfl, by simp⟩
  | clientError s t retryAfter body =>
    simp only [verdict] at hfails
    split at hfails
    · cases hfails
    · split at hfails
      · cases hfails
        exact ⟨rfl, by simp⟩
      next hlimit =>
        cases body with
        | ok error =>
          cases hfails
          exact ⟨rfl, Json.guessError_ne_undefined _⟩
        | error e => simp [exception, hlimit] at h

/-- A failure with the exchange's origin is coherent exactly if the exception is, if there is one. -/
theorem RestResponse.sane_iff {α : Type} (settings : Settings) (kind : RestStream.Kind)
    (r : RestResponse α) :
    (∀ status error text, r.verdict settings kind = .fails .exchange status error text →
      Coherent status error) ↔ ∀ e, r.exception = some e → e.Sane kind := by
  cases hexception : r.exception with
  | none =>
    refine iff_of_true (fun status error text hfails => ?_) (by simp)
    obtain ⟨rfl, herror⟩ := rejected_of_fails hexception hfails
    exact coherent_rejected herror
  | some e =>
    rw [verdict_of_exception settings kind hexception]
    constructor
    · rintro h e' he' status error what rfl hkind
      obtain rfl := Option.some.inj he'
      exact h status error what (by rw [Raised.verdict, if_neg hkind])
    · intro h status error text hfails
      have hsane := h e rfl
      cases e with
      | oms origin status' error' what =>
        rw [Raised.verdict] at hfails
        split at hfails
        · cases hfails
          exact ⟨by simp, by simp⟩
        next hkind =>
          cases hfails
          exact hsane _ _ _ rfl hkind
      | network status' error' what => cases hfails
      | other what =>
        cases hfails
        exact ⟨by simp, by simp⟩

namespace RestStream

section
variable {R : LimitRequest} (settings : Settings)

/-- What a report states with the exchange's origin. -/
def Output.stated : Output → Option (RequestStatus × Error)
  | .response m => if m.origin = .exchange then some (m.requestStatus, m.error) else none
  | .cancelAllOrdersAck m => if m.origin = .exchange then some (m.requestStatus, m.error) else none
  | _ => none

def Output.Coherent (o : Output) : Prop := ∀ p, o.stated = some p → BinanceFutures.Coherent p.1 p.2

theorem coherent_of_silent {o : Output} (h : o.reports = false) : o.Coherent := by
  intro p hp
  cases o <;> first | cases hp | cases h

theorem forall_coherent_iff {os : List Output} :
    (∀ o ∈ os, o.Coherent) ↔ ∀ p ∈ os.filterMap Output.stated, BinanceFutures.Coherent p.1 p.2 := by
  constructor
  · intro h p hp
    obtain ⟨o, ho, heq⟩ := List.mem_filterMap.mp hp
    exact h o ho p heq
  · exact fun h o ho p hp => h p (List.mem_filterMap.mpr ⟨o, ho, hp⟩)

/-! ### Answers -/

theorem stated_orderError (t : Target) (origin : Origin) (status : RequestStatus) (error : Error)
    (text : String) (w : World R) :
    (orderError t origin status error text w).2.filterMap Output.stated
      = if origin = .exchange then [(status, error)] else [] := by
  simp only [orderError, List.filterMap_cons, List.filterMap_nil, Output.stated]
  by_cases horigin : origin = .exchange
  · simp [horigin]
  · simp [horigin]

theorem stated_orderAck (kind : Kind) (t : Target) (status : RequestStatus) (ack : Json.Order)
    (w : World R) :
    (orderAck settings kind t status ack w).2.filterMap Output.stated = [(status, .undefined)] := by
  unfold orderAck
  dsimp only
  split
  · rfl
  · rfl

/-- The answer to an order request is coherent exactly if its exception is, if there is one. -/
theorem coherent_order_iff (kind : Kind) (t : Target) (r : RestResponse Json.Order)
    {onSuccess : Json.Order → Act R} {w : World R}
    (hsuccess : ∀ ack, ∀ p ∈ (onSuccess ack w).2.filterMap Output.stated, BinanceFutures.Coherent p.1 p.2) :
    (∀ o ∈ (andThen (processResponse settings kind r (orderError t) onSuccess) skip w).2, o.Coherent)
      ↔ ∀ e, r.exception = some e → e.Sane kind := by
  rw [forall_coherent_iff, filterMap_reply settings (fun _ => rfl), ← r.sane_iff settings kind]
  cases hverdict : r.verdict settings kind with
  | ends => exact iff_of_true (fun p hp => by cases hp) (by simp)
  | succeeds body =>
    rw [reply, seq_skip]
    exact iff_of_true (hsuccess body) (by simp)
  | fails origin status error text =>
    rw [reply, seq_skip, stated_orderError]
    constructor
    · rintro h _ _ _ ⟨⟩
      exact h (status, error) (by simp)
    · intro h p hp
      split at hp
      next horigin =>
        rw [List.mem_singleton.mp hp]
        exact h status error text (by rw [horigin])
      next => cases hp

/-- The answer to a request to cancel all orders is coherent exactly if it is not a success with code
    200. -/
theorem coherent_cancelAll_iff (kind : Kind) (requestId : String) (r : RestResponse Json.CodeMsg)
    (w : World R) :
    (∀ o ∈ (openOrdersCancelAllAck settings kind requestId r w).2, o.Coherent)
      ↔ ∀ ack, r = .success (.ok ack) → ack.code ≠ 200 := by
  rw [forall_coherent_iff, openOrdersCancelAllAck, filterMap_reply settings (fun _ => rfl)]
  rcases r.verdict_cases settings kind with ⟨hverdict, hend⟩ | ⟨body, rfl, hverdict⟩ |
    ⟨⟨origin, status, error, text, hverdict⟩, -⟩
  · rw [hverdict]
    refine iff_of_true (fun p hp => by cases hp) ?_
    rintro ack rfl
    cases hend
  · rw [hverdict, reply, seq_skip]
    have hstated : ∀ p : RequestStatus × Error, p ∈ [((if body.code = 200 then RequestStatus.accepted
        else .rejected), Json.guessError body.code)] → p.2 ≠ .undefined := by
      intro p hp
      rw [List.mem_singleton.mp hp]
      exact Json.guessError_ne_undefined _
    constructor
    · rintro h _ ⟨⟩ hcode
      have hcoherent := h (if body.code = 200 then .accepted else .rejected, Json.guessError body.code)
        (List.mem_singleton_self _)
      rw [if_pos hcode] at hcoherent
      exact Json.guessError_ne_undefined _ (hcoherent.1 rfl)
    · intro h p hp
      have hp' : p = (if body.code = 200 then .accepted else .rejected, Json.guessError body.code) :=
        List.mem_singleton.mp hp
      rw [hp', if_neg (h body rfl)]
      exact coherent_rejected (Json.guessError_ne_undefined _)
  · rw [hverdict, reply, seq_skip]
    refine iff_of_true (fun p hp => by cases hp) ?_
    rintro ack rfl
    cases hverdict

/-- The answer is coherent: no cancel of all orders with code 200, and no exception of the order management
    that contradicts itself. -/
def Consistent (kind : Kind) : (call : Call) → RestResponse call.Ack → Prop
  | .orderPlace .., r => ∀ e, RestResponse.exception r = some e → e.Sane kind
  | .orderModify .., r => ∀ e, RestResponse.exception r = some e → e.Sane kind
  | .orderCancel .., r => ∀ e, RestResponse.exception r = some e → e.Sane kind
  | .allOpenOrders .., r => ∀ ack : Json.CodeMsg, r = .success (.ok ack) → ack.code ≠ 200
  | _, _ => True

theorem stated_modified (kind : Kind) (t : Target) (ack : Json.Order) (w : World R) :
    ∀ p ∈ ((match ack.status with
        | .undefinedInternal | .unknownInternal | .new | .partiallyFilled =>
          if settings.experimental.disableFastOrderAck then skip
          else orderAck settings kind t ack.status.mapRequestStatus ack
        | .filled | .canceled | .expired | .newInsurance | .newAdl | .expiredInMatch =>
          tooLate (orderError t)) w).2.filterMap Output.stated, BinanceFutures.Coherent p.1 p.2 := by
  have hworking : ack.status.mapRequestStatus ≠ .rejected → ∀ p ∈
      ((if settings.experimental.disableFastOrderAck then skip
        else orderAck settings kind t ack.status.mapRequestStatus ack) w).2.filterMap Output.stated,
      BinanceFutures.Coherent p.1 p.2 := by
    intro hstatus p hp
    split at hp
    · cases hp
    · rw [stated_orderAck] at hp
      rw [List.mem_singleton.mp hp]
      exact coherent_undefined hstatus
  have hlate : ∀ p ∈ (tooLate (orderError t) w).2.filterMap Output.stated,
      BinanceFutures.Coherent p.1 p.2 := by
    intro p hp
    rw [List.mem_singleton.mp hp]
    exact coherent_rejected nofun
  cases hstatus : ack.status with
  | undefinedInternal | unknownInternal | new | partiallyFilled =>
    rw [hstatus] at hworking
    exact hworking nofun
  | filled | canceled | expired | newInsurance | newAdl | expiredInMatch => exact hlate

theorem coherent_acknowledge_iff (kind : Kind) (env : Answers) (d : Dispatcher) (call : Call)
    (r : RestResponse call.Ack) (w : World R) :
    (∀ o ∈ (acknowledge settings kind env d call r w).2, o.Coherent) ↔ Consistent kind call r := by
  have hsilent : call.reports = false →
      ∀ o ∈ (acknowledge settings kind env d call r w).2, o.Coherent := by
    intro hcall o ho
    exact coherent_of_silent (Bool.eq_false_iff.mpr (silent_acknowledge settings hcall r w o ho))
  cases call with
  | orderPlace symbol body userId orderId version =>
    refine coherent_order_iff settings kind _ r fun ack p hp => ?_
    rw [stated_orderAck] at hp
    rw [List.mem_singleton.mp hp]
    exact coherent_undefined nofun
  | orderModify body userId orderId version =>
    exact coherent_order_iff settings kind _ r fun ack => stated_modified settings kind _ ack w
  | orderCancel body userId orderId version =>
    refine coherent_order_iff settings kind _ r fun ack p hp => ?_
    split at hp
    · rw [List.mem_singleton.mp hp]
      exact coherent_rejected nofun
    · split at hp
      · cases hp
      · rw [stated_orderAck] at hp
        rw [List.mem_singleton.mp hp]
        exact coherent_undefined nofun
  | allOpenOrders symbol requestId => exact coherent_cancelAll_iff settings kind requestId r w
  | listenKey | accountBalance | accountStatus | position | openOrders | order | userTrades
  | countdownCancelAll => exact iff_of_true (hsilent rfl) trivial

/-! ### Events -/

/-- The event is no answer that contradicts itself. -/
def Plausible (s : World R × Bool) : Event → Prop
  | .answer n call r _ _ => s.2 = false → (n, call) ∈ s.1.stream.calls.entries →
    Consistent s.1.stream.kind call r
  | _ => True

theorem coherent_cancelSymbol (m : CancelAllOrders) (requestId symbol : String) (w : World R) :
    ∀ o ∈ (cancelSymbol m requestId symbol w).2, o.Coherent := by
  intro o ho p hp
  unfold cancelSymbol at ho
  split at ho
  · rcases List.mem_append.mp ho with hsend | hack
    · rw [List.mem_singleton.mp hsend] at hp
      cases hp
    · rw [List.mem_singleton.mp hack] at hp
      cases hp
  · cases ho

theorem coherent_step_iff (e : Event) (w : World R) :
    (∀ o ∈ (step settings e w).2, o.Coherent) ↔ Plausible (w, false) e := by
  have hsilent : (∀ n call r env d, e ≠ .answer n call r env d) → e.reports = false →
      ∀ o ∈ (step settings e w).2, o.Coherent := fun hanswer hcancel o ho =>
    coherent_of_silent (Bool.eq_false_iff.mpr (silent_step settings hanswer hcancel w o ho))
  cases e with
  | answer n call r env d =>
    by_cases hmem : (n, call) ∈ w.stream.calls.entries
    · rw [answer_of_mem settings hmem, coherent_acknowledge_iff]
      exact ⟨fun h _ _ => h, fun h => h rfl hmem⟩
    · rw [step, answer, if_neg hmem]
      exact iff_of_true (fun o ho => by cases ho) fun _ h => absurd h hmem
  | cancelAllOrders m requestId =>
    refine iff_of_true ?_ trivial
    have hnone : Silent (fun o => ¬ o.Coherent) (step (R := R) settings (.cancelAllOrders m requestId)) := by
      refine fun w => silent_map (fun symbol _ => ?_) w
      exact fun w o ho => not_not_intro (coherent_cancelSymbol m requestId symbol w o ho)
    exact fun o ho => not_not.mp (hnone w o ho)
  | _ => exact iff_of_true (hsilent (by simp) rfl) trivial

end

end RestStream

namespace WebSocket

section
variable {R : LimitRequest} (scanner : Json.Scanner) (settings : Settings)

/-- The response, if there is one, is coherent. -/
def Output.Coherent (o : Output) : Prop :=
  ∀ m, o.responded = some m → m.origin = .exchange → BinanceFutures.Coherent m.requestStatus m.error

/-- The action puts out what is coherent. -/
abbrev Cohering (f : Act R) : Prop := Silent (fun o => ¬ o.Coherent) f

theorem bare_of_contradicts {o : Output} (h : ¬ o.Coherent) : o.bare = false := by
  cases o with
  | response m => rfl
  | _ => exact absurd (fun m hm => by cases hm) h

theorem coherent_of_conclusive {m : Response} (h : Conclusive m) : (Output.response m).Coherent := by
  intro m' hm _
  obtain rfl := Option.some.inj hm
  rcases h with ⟨hstatus, herror⟩ | ⟨hstatus, herror⟩
  · rw [herror]
    exact coherent_undefined (by rw [hstatus]; simp)
  · exact ⟨fun heq => absurd heq hstatus, fun _ => herror⟩

/-- Every step puts out what is coherent. -/
theorem cohering_step (e : Event) : Cohering (R := R) (step scanner settings e) := by
  have hrest : ∀ {o : Output}, o.responded = none → ¬ ¬ o.Coherent := fun h =>
    not_not_intro fun m hm => by rw [h] at hm; cases hm
  cases e with
  | createOrder m userId body | modifyOrder m userId body | cancelOrder m userId body =>
    exact fun w => silent_orderRequest scanner (fun _ => bare_of_contradicts) (fun _ => hrest rfl) _ _
  | answer n reply arrangement env d =>
    exact silent_answer scanner settings (fun _ => bare_of_contradicts) (fun _ _ => hrest rfl)
      (fun _ h => not_not_intro (coherent_of_conclusive h)) (fun _ => ⟨hrest rfl, hrest rfl⟩)
      n reply arrangement env d
  | _ => exact silent_mono (fun _ => bare_of_contradicts) (bare_step scanner settings rfl)

end

end WebSocket

section
variable {R : LimitRequest} (scanner : Json.Scanner) (settings : Settings)

/-- EXACT: whatever a REST stream says of the exchange's answers in a run is coherent exactly if no answer
    is a success with code 200 to a request to cancel all orders, or an exception that contradicts
    itself; whatever the WebSocket stream says in a run is coherent. -/
theorem coherent_iff :
    (∀ (rest : RestStream.World R) (es : List RestStream.Event),
      (∀ o ∈ (run (mortal RestStream.kills (RestStream.step settings)) es (rest, false)).2, o.Coherent)
        ↔ Along (mortal RestStream.kills (RestStream.step settings)) RestStream.Plausible es
            (rest, false)) ∧
    ∀ (ws : WebSocket.World R) (es : List WebSocket.Event),
      ∀ o ∈ (run (mortal WebSocket.kills (WebSocket.step scanner settings)) es (ws, false)).2,
        o.Coherent := by
  refine ⟨fun rest es => ?_, fun ws es => ?_⟩
  · rw [forall_run_iff]
    refine along_congr (I := fun _ => True) (fun _ _ _ => trivial) (fun s e _ => ?_) trivial
    obtain ⟨w, dead⟩ := s
    cases dead with
    | false => exact RestStream.coherent_step_iff settings e w
    | true =>
      refine iff_of_true (fun o ho => by cases ho) ?_
      unfold RestStream.Plausible
      split
      · exact fun hdead => by cases hdead
      · trivial
  · rw [forall_run_iff]
    refine along_of_split fun pre e post _ o ho => ?_
    generalize (run (mortal WebSocket.kills (WebSocket.step scanner settings)) pre (ws, false)).1 = s at ho
    obtain ⟨w, dead⟩ := s
    cases dead with
    | false => exact not_not.mp (WebSocket.cohering_step scanner settings e w o ho)
    | true => cases ho

end

/-- A stream that has asked to cancel all orders on a symbol. -/
def cancelling : RestStream.World .simple where
  stream := {
    kind := .orderEntryClassic
    account := "A1"
    calls := Ledger.empty.enter (.allOpenOrders "BTCUSDT" "r1") }
  request := {}

/-- The exchange has cancelled them. -/
def allCancelled : List RestStream.Event :=
  [.answer 0 (.allOpenOrders "BTCUSDT" "r1")
    (.success (.ok (⟨200, "The operation of cancel all open order is done."⟩ : Json.CodeMsg)))
    { now := 1, downloading := false, visits := [] } (.knowing none)]

/-- The client is told that the request has been accepted, with an error. -/
theorem allCancelled_contradicts :
    ¬ ∀ o ∈ (run (mortal RestStream.kills (RestStream.step {})) allCancelled (cancelling, false)).2,
      o.Coherent := by
  intro h
  have hack := h
    (.cancelAllOrdersAck {
      account := "A1", origin := .exchange, requestStatus := .accepted, error := .unknown,
      text := "The operation of cancel all open order is done.", requestId := "r1" })
    (by decide) (.accepted, .unknown) rfl
  exact absurd (hack.1 rfl) nofun

end BinanceFutures
