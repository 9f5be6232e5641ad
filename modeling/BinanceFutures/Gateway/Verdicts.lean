import BinanceFutures.Gateway.RestStream

/-! # Verdicts

    Whatever comes back for a request, `process_response` funnels it into one of three: the process ends,
    the success handler runs, or the error handler does, once.

        2xx, body parsed ──────────────────────────▶ success
        3xx, 403 under terminate_on_403 ───────────▶ end of the process
        4xx with a code, 403, 418, 429, 5xx ───────▶ error, rejected
        1xx, unknown, body not parsed, exceptions ─▶ error, as the exception says

    `processResponse_eq` says that once; what the answers to order requests and to queries of stale
    orders publish follows from it. -/

namespace BinanceFutures
open Machine

/-- What `process_response` makes of a response. -/
inductive Verdict (α : Type) where
  | ends
  | succeeds (body : α)
  | fails (origin : Origin) (status : RequestStatus) (error : Error) (text : String)

/-- The verdict on an exception. -/
def Raised.verdict {α : Type} (kind : RestStream.Kind) : Raised → Verdict α
  | .oms origin status error what =>
    if kind = .restTrade then .fails .exchange .error .unknown what
    else .fails origin status error what
  | .network status error what => .fails .gateway status error what
  | .other what => .fails .exchange .error .unknown what

/-- The statuses of a client error that are about the gateway, not about the request. -/
def isLimit (status : ℕ) : Bool :=
  status = forbidden || status = iAmATeapot || status = tooManyRequests

/-- The verdict on a response. -/
def RestResponse.verdict {α : Type} (settings : Settings) (kind : RestStream.Kind) :
    RestResponse α → Verdict α
  | .unexpected e => e.verdict kind
  | .success (.ok body) => .succeeds body
  | .success (.error e) => e.verdict kind
  | .redirection => .ends
  | .clientError status text _ body =>
    if status = forbidden ∧ settings.rest.terminateOn403 then .ends
    else if isLimit status then .fails .exchange .rejected .requestRateLimitReached text
    else match body with
      | .ok error => .fails .exchange .rejected (Json.guessError error.code) error.msg
      | .error e => e.verdict kind
  | .serverError text => .fails .exchange .rejected .unknown text
  | .raised e => e.verdict kind

/-- The process ends: the exchange redirects, or forbids and the gateway is told to give up. -/
def RestResponse.ends {α : Type} (settings : Settings) : RestResponse α → Bool
  | .redirection => true
  | .clientError status _ _ _ => status = forbidden && settings.rest.terminateOn403
  | _ => false

/-- The exchange has answered that it does not know the order: a client error with the exchange's code,
    and not about the gateway's own limits. A body without a code is parsed with the code zero. -/
def RestResponse.disowns {α : Type} : RestResponse α → Bool
  | .clientError status _ _ (.ok error) => !isLimit status && error.code != 0
  | _ => false

/-- The exchange has answered about the order, or the process ends. -/
def RestResponse.conclusive {α : Type} (settings : Settings) (r : RestResponse α) : Bool :=
  match r with
  | .success (.ok _) => true
  | _ => r.disowns || r.ends settings

theorem Raised.verdict_fails {α : Type} (kind : RestStream.Kind) (e : Raised) :
    ∃ origin status error text, (e.verdict kind : Verdict α) = .fails origin status error text := by
  cases e with
  | oms origin status error what =>
    rw [Raised.verdict]
    split
    · exact ⟨_, _, _, _, rfl⟩
    · exact ⟨_, _, _, _, rfl⟩
  | network status error what => exact ⟨_, _, _, _, rfl⟩
  | other what => exact ⟨_, _, _, _, rfl⟩

/-- The process ends, a body has been parsed, or the request has failed. -/
theorem RestResponse.verdict_cases {α : Type} (settings : Settings) (kind : RestStream.Kind)
    (r : RestResponse α) :
    (r.verdict settings kind = .ends ∧ r.ends settings = true) ∨
    (∃ body, r = .success (.ok body) ∧ r.verdict settings kind = .succeeds body) ∨
    ((∃ origin status error text, r.verdict settings kind = .fails origin status error text) ∧
      r.ends settings = false) := by
  cases r with
  | unexpected e => exact Or.inr (Or.inr ⟨e.verdict_fails kind, rfl⟩)
  | success body =>
    cases body with
    | ok body => exact Or.inr (Or.inl ⟨body, rfl, rfl⟩)
    | error e => exact Or.inr (Or.inr ⟨e.verdict_fails kind, rfl⟩)
  | redirection => exact Or.inl ⟨rfl, rfl⟩
  | clientError status text retryAfter body =>
    by_cases hend : status = forbidden ∧ settings.rest.terminateOn403 = true
    · exact Or.inl ⟨by simp [verdict, hend], by simp [ends, hend]⟩
    · refine Or.inr (Or.inr ⟨?_, by simpa [ends] using hend⟩)
      unfold verdict
      dsimp only
      rw [if_neg hend]
      split
      · exact ⟨_, _, _, _, rfl⟩
      · cases body with
        | ok error => exact ⟨_, _, _, _, rfl⟩
        | error e => exact e.verdict_fails kind
  | serverError text => exact Or.inr (Or.inr ⟨⟨_, _, _, _, rfl⟩, rfl⟩)
  | raised e => exact Or.inr (Or.inr ⟨e.verdict_fails kind, rfl⟩)

namespace RestStream

section
variable {R : LimitRequest} (settings : Settings)

/-- The verdict, put into effect. -/
def act {α : Type} (onError : OnError R) (onSuccess : α → Act R) : Verdict α → Option (Act R)
  | .ends => none
  | .succeeds body => some (onSuccess body)
  | .fails origin status error text => some (onError origin status error text)

theorem caught_eq {α : Type} (kind : Kind) (onError : OnError R) (onSuccess : α → Act R) (e : Raised) :
    act onError onSuccess (e.verdict kind) = some (caught kind onError e) := by
  cases e with
  | oms origin status error what =>
    by_cases hkind : kind = .restTrade
    · simp [Raised.verdict, caught, hkind, act]
    · simp [Raised.verdict, caught, hkind, act]
  | network status error what => rfl
  | other what => rfl

/-- What becomes of a response is its verdict, put into effect after the connection may have been
    suspended. -/
theorem processResponse_eq {α : Type} (kind : Kind) (r : RestResponse α) (onError : OnError R)
    (onSuccess : α → Act R) : ∃ pre : List Output, (∀ o ∈ pre, ∃ t, o = .suspendFor t) ∧
      processResponse settings kind r onError onSuccess
        = (act onError onSuccess (r.verdict settings kind)).map (seq (emit pre)) := by
  have hnow : ∀ {f : Option (Act R)}, ∃ pre : List Output, (∀ o ∈ pre, ∃ t, o = .suspendFor t) ∧
      f = f.map (seq (emit pre)) := by
    intro f
    refine ⟨[], by simp, ?_⟩
    cases f with
    | none => rfl
    | some f => rfl
  cases r with
  | unexpected e =>
    rw [RestResponse.verdict, caught_eq]
    exact hnow
  | success body =>
    cases body with
    | ok body => exact hnow
    | error e =>
      rw [RestResponse.verdict, caught_eq]
      exact hnow
  | redirection => exact hnow
  | clientError status text retryAfter body =>
    have hpre : ∀ o ∈ (if retryAfter ≠ 0 then [.suspendFor retryAfter] else [] : List Output),
        ∃ t, o = .suspendFor t := by
      intro o ho
      split at ho
      · exact ⟨_, List.mem_singleton.mp ho⟩
      · cases ho
    by_cases hforbidden : status = forbidden
    · by_cases hend : settings.rest.terminateOn403 = true
      · refine ⟨[], by simp, ?_⟩
        simp [processResponse, RestResponse.verdict, hforbidden, hend, act]
      · refine ⟨.suspendFor settings.rest.backOffDelay ::
          (if retryAfter ≠ 0 then [.suspendFor retryAfter] else []), ?_, ?_⟩
        · rintro o (_ | ⟨_, ho⟩)
          · exact ⟨_, rfl⟩
          · exact hpre o ho
        · simp only [processResponse, RestResponse.verdict, hforbidden, hend, act, isLimit]
          rfl
    · by_cases hlimited : status = iAmATeapot ∨ status = tooManyRequests
      · have hstatus : isLimit status = true := by simpa [isLimit, hforbidden] using hlimited
        refine ⟨_, hpre, ?_⟩
        simp only [processResponse, RestResponse.verdict, hforbidden, hlimited, hstatus, act]
        rfl
      · have hstatus : isLimit status = false := by simpa [isLimit, hforbidden] using hlimited
        simp only [processResponse, RestResponse.verdict, hforbidden, hlimited, hstatus, if_false,
          false_and, Bool.false_eq_true]
        cases body with
        | ok error => exact hnow
        | error e =>
          rw [caught_eq]
          exact hnow
  | serverError text => exact hnow
  | raised e =>
    rw [RestResponse.verdict, caught_eq]
    exact hnow

/-- What follows a response, by its verdict. -/
def reply {α : Type} (v : Verdict α) (onError : OnError R) (onSuccess : α → Act R) (after : Act R) :
    Act R :=
  match v with
  | .ends => emit [.fatal]
  | .succeeds body => seq (onSuccess body) after
  | .fails origin status error text => seq (onError origin status error text) after

/-- Where the outputs do not count, the suspensions do not. -/
theorem filterMap_reply {α β : Type} {p : Output → Option β} (hp : ∀ t, p (.suspendFor t) = none)
    (kind : Kind) (r : RestResponse α) (onError : OnError R) (onSuccess : α → Act R) (after : Act R)
    (w : World R) :
    (andThen (processResponse settings kind r onError onSuccess) after w).2.filterMap p
      = (reply (r.verdict settings kind) onError onSuccess after w).2.filterMap p := by
  obtain ⟨pre, hpre, heq⟩ := processResponse_eq settings kind r onError onSuccess
  have hnone : pre.filterMap p = [] := by
    rw [List.filterMap_eq_nil_iff]
    intro o ho
    obtain ⟨t, rfl⟩ := hpre o ho
    exact hp t
  rw [heq]
  cases r.verdict settings kind with
  | ends => rfl
  | succeeds body => simp [act, andThen, reply, seq, hnone]
  | fails origin status error text => simp [act, andThen, reply, seq, hnone]

/-! ### Answers to order requests -/

/-- The request that a call is about. -/
def Call.target : Call → Option Target
  | .orderPlace _ _ userId orderId version => some ⟨.createOrder, userId, orderId, version⟩
  | .orderModify _ userId orderId version => some ⟨.modifyOrder, userId, orderId, version⟩
  | .orderCancel _ userId orderId version => some ⟨.cancelOrder, userId, orderId, version⟩
  | _ => none

/-- The response among what is put out. -/
def Output.responded : Output → Option Response
  | .response m => some m
  | _ => none

/-- The response is about the target. -/
structure About (m : Response) (t : Target) : Prop where
  requestType_eq : m.requestType = t.requestType
  userId_eq : m.userId = t.userId
  orderId_eq : m.orderId = t.orderId
  version_eq : m.version = t.version

/-- One response is put out, about the target. -/
def RespondsTo (t : Target) (os : List Output) : Prop :=
  ∃ m, os.filterMap Output.responded = [m] ∧ About m t

theorem respondsTo_orderError (t : Target) (origin : Origin) (status : RequestStatus) (error : Error)
    (text : String) (w : World R) : RespondsTo t (orderError t origin status error text w).2 :=
  ⟨_, rfl, rfl, rfl, rfl, rfl⟩

theorem respondsTo_orderAck (kind : Kind) (t : Target) (status : RequestStatus) (ack : Json.Order)
    (w : World R) : RespondsTo t (orderAck settings kind t status ack w).2 := by
  unfold orderAck
  dsimp only
  split
  · exact ⟨_, rfl, rfl, rfl, rfl, rfl⟩
  · exact ⟨_, rfl, rfl, rfl, rfl, rfl⟩

theorem respondsTo_reply {α : Type} (kind : Kind) {t : Target} {r : RestResponse α}
    (hends : r.ends settings = false) {onSuccess : α → Act R} {w : World R}
    (hsuccess : ∀ body, r = .success (.ok body) → RespondsTo t (onSuccess body w).2) :
    RespondsTo t
      (andThen (processResponse settings kind r (orderError t) onSuccess) skip w).2 := by
  rw [RespondsTo, filterMap_reply settings (fun _ => rfl)]
  rcases r.verdict_cases settings kind with ⟨-, hend⟩ | ⟨body, hr, hverdict⟩ | ⟨⟨_, _, _, _, hfails⟩, -⟩
  · rw [hends] at hend
    cases hend
  · rw [hverdict, reply, seq_skip]
    exact hsuccess body hr
  · rw [hfails, reply, seq_skip]
    exact respondsTo_orderError t _ _ _ _ w

theorem respondsTo_orderPlaceAck (kind : Kind) (t : Target) {r : RestResponse Json.Order}
    (hends : r.ends settings = false) (w : World R) :
    RespondsTo t (orderPlaceAck settings kind t r w).2 := by
  exact respondsTo_reply settings kind hends fun ack _ => respondsTo_orderAck settings _ _ _ _ _

/-- The orders that are not too late to be modified. -/
def modifiable : Json.OrderStatus → Bool
  | .undefinedInternal | .unknownInternal | .new | .partiallyFilled => true
  | .filled | .canceled | .expired | .newInsurance | .newAdl | .expiredInMatch => false

theorem respondsTo_orderModifyAck (kind : Kind) (t : Target) {r : RestResponse Json.Order}
    (hends : r.ends settings = false)
    (hfast : ∀ ack, r = .success (.ok ack) → modifiable ack.status = true →
      settings.experimental.disableFastOrderAck = false) (w : World R) :
    RespondsTo t (orderModifyAck settings kind t r w).2 := by
  refine respondsTo_reply settings kind hends fun ack hr => ?_
  cases hstatus : ack.status with
  | undefinedInternal | unknownInternal | new | partiallyFilled =>
    have hflag := hfast ack hr (by rw [hstatus]; rfl)
    simp only [hflag, Bool.false_eq_true, if_false]
    exact respondsTo_orderAck settings kind t _ ack w
  | filled | canceled | expired | newInsurance | newAdl | expiredInMatch =>
    exact respondsTo_orderError t _ _ _ _ w

theorem silent_orderModifyAck (kind : Kind) (t : Target) {ack : Json.Order}
    (hstatus : modifiable ack.status = true)
    (hflag : settings.experimental.disableFastOrderAck = true) (w : World R) :
    (orderModifyAck settings kind t (.success (.ok ack)) w).2 = [] := by
  cases h : ack.status <;> simp_all [orderModifyAck, processResponse, andThen, modifiable]

theorem respondsTo_orderCancelAck (kind : Kind) (t : Target) {r : RestResponse Json.Order}
    (hends : r.ends settings = false)
    (hfast : ∀ ack, r = .success (.ok ack) → ack.status ≠ .filled →
      settings.experimental.disableFastOrderAck = false) (w : World R) :
    RespondsTo t (orderCancelAck settings kind t r w).2 := by
  refine respondsTo_reply settings kind hends fun ack hr => ?_
  by_cases hfilled : ack.status = .filled
  · rw [if_pos hfilled]
    exact respondsTo_orderError t _ _ _ _ w
  · rw [if_neg hfilled, hfast ack hr hfilled]
    exact respondsTo_orderAck settings kind t _ ack w

theorem silent_orderCancelAck (kind : Kind) (t : Target) {ack : Json.Order}
    (hstatus : ack.status ≠ .filled) (hflag : settings.experimental.disableFastOrderAck = true)
    (w : World R) : (orderCancelAck settings kind t (.success (.ok ack)) w).2 = [] := by
  simp [orderCancelAck, processResponse, andThen, hstatus, hflag, seq_skip]

/-- The exchange has accepted a modify or a cancel. -/
def accepted : (call : Call) → RestResponse call.Ack → Bool
  | .orderModify .., .success (.ok ack) => modifiable ack.status
  | .orderCancel .., .success (.ok ack) => ack.status ≠ .filled
  | _, _ => false

theorem accepted_orderModify {body : String} {userId : UserId} {orderId : OrderId} {version : Version}
    {r : RestResponse Json.Order} (h : accepted (.orderModify body userId orderId version) r = true) :
    ∃ ack, r = .success (.ok ack) ∧ modifiable ack.status = true := by
  cases r with
  | success ack =>
    cases ack with
    | ok ack => exact ⟨ack, rfl, h⟩
    | error e => cases h
  | _ => cases h

theorem accepted_orderCancel {body : String} {userId : UserId} {orderId : OrderId} {version : Version}
    {r : RestResponse Json.Order} (h : accepted (.orderCancel body userId orderId version) r = true) :
    ∃ ack, r = .success (.ok ack) ∧ ack.status ≠ .filled := by
  cases r with
  | success ack =>
    cases ack with
    | ok ack => exact ⟨ack, rfl, by simpa [accepted] using h⟩
    | error e => cases h
  | _ => cases h

/-- What an answer to an order request puts out: nothing if it is an accepted modify or cancel under
    `disable_fast_order_ack`, otherwise one response. -/
def Responds (call : Call) (r : RestResponse call.Ack) (t : Target) (os : List Output) : Prop :=
  if accepted call r = true ∧ settings.experimental.disableFastOrderAck = true then
    os.filterMap Output.responded = []
  else RespondsTo t os

theorem responds_acknowledge {kind : Kind} {env : Answers} {d : Dispatcher} {call : Call}
    {r : RestResponse call.Ack} {t : Target} (ht : call.target = some t)
    (hends : r.ends settings = false) (w : World R) :
    Responds settings call r t (acknowledge settings kind env d call r w).2 := by
  cases call with
  | orderPlace symbol body userId orderId version =>
    obtain rfl := Option.some.inj ht
    exact respondsTo_orderPlaceAck settings kind _ hends w
  | orderModify body userId orderId version =>
    obtain rfl := Option.some.inj ht
    have hack : acknowledge settings kind env d (.orderModify body userId orderId version) r w
        = orderModifyAck settings kind ⟨.modifyOrder, userId, orderId, version⟩ r w := rfl
    rw [hack, Responds]
    split
    next hsilent =>
      obtain ⟨haccepted, hflag⟩ := hsilent
      obtain ⟨ack, rfl, hstatus⟩ := accepted_orderModify haccepted
      exact congrArg _ (silent_orderModifyAck settings kind _ hstatus hflag w)
    next hloud =>
      refine respondsTo_orderModifyAck settings kind _ hends (fun ack hr hstatus => ?_) w
      subst hr
      simpa [accepted, hstatus] using hloud
  | orderCancel body userId orderId version =>
    obtain rfl := Option.some.inj ht
    have hack : acknowledge settings kind env d (.orderCancel body userId orderId version) r w
        = orderCancelAck settings kind ⟨.cancelOrder, userId, orderId, version⟩ r w := rfl
    rw [hack, Responds]
    split
    next hsilent =>
      obtain ⟨haccepted, hflag⟩ := hsilent
      obtain ⟨ack, rfl, hstatus⟩ := accepted_orderCancel haccepted
      exact congrArg _ (silent_orderCancelAck settings kind _ hstatus hflag w)
    next hloud =>
      refine respondsTo_orderCancelAck settings kind _ hends (fun ack hr hstatus => ?_) w
      subst hr
      simpa [accepted, hstatus] using hloud
  | _ => cases ht

theorem answer_of_mem {n : ℕ} {call : Call} {w : World R} (h : (n, call) ∈ w.stream.calls.entries)
    (r : RestResponse call.Ack) (env : Answers) (d : Dispatcher) :
    step settings (.answer n call r env d) w = acknowledge settings w.stream.kind env d call r
      { w with stream.calls := w.stream.calls.settle n } := by
  rw [step, answer, if_pos h]

/-- CORRECT: the answer to an order request publishes one response about the request, unless the process
    ends, or the exchange has accepted a modify or a cancel and `disable_fast_order_ack` is set. -/
theorem responds_answer {n : ℕ} {call : Call} {w : World R} {t : Target}
    (hcall : (n, call) ∈ w.stream.calls.entries) (ht : call.target = some t)
    (r : RestResponse call.Ack) (hends : r.ends settings = false) (env : Answers) (d : Dispatcher) :
    Responds settings call r t (step settings (.answer n call r env d) w).2 := by
  rw [answer_of_mem settings hcall]
  exact responds_acknowledge settings ht hends _

/-- A stream that has placed an order gets a network error. -/
theorem responds_timeout :
    Responds {} (.orderPlace "BTCUSDT" "" 0 1 1) (.raised (.network .error .networkError "timeout"))
      ⟨.createOrder, 0, 1, 1⟩
      (step (R := .simple) {} (.answer 0 (.orderPlace "BTCUSDT" "" 0 1 1)
        (.raised (.network .error .networkError "timeout"))
        { now := 1, downloading := false, visits := [] } (.knowing none))
        ⟨{ kind := .orderEntryClassic, account := "A1",
           calls := Ledger.empty.enter (.orderPlace "BTCUSDT" "" 0 1 1) }, {}⟩).2 :=
  responds_answer {} (by decide) rfl _ rfl _ _

/-! ### Queries of stale orders -/

/-- The order management is told that the order has been rejected. -/
def Rejects (os : List Output) : Prop := ∃ m, .orderUpdate m ∈ os ∧ m.orderStatus = .rejected

theorem map_ne_rejected (status : Json.OrderStatus) : status.map ≠ .rejected := by
  cases status <;> simp [Json.OrderStatus.map]

/-- The update among what is put out. -/
def Output.updated : Output → Option OrderUpdate
  | .orderUpdate m => some m
  | _ => none

theorem mem_updated {m : OrderUpdate} {os : List Output} :
    .orderUpdate m ∈ os ↔ m ∈ os.filterMap Output.updated := by
  rw [List.mem_filterMap]
  constructor
  · exact fun ho => ⟨_, ho, rfl⟩
  · rintro ⟨o, ho, heq⟩
    cases o with
    | orderUpdate m' => rwa [← Option.some.inj heq]
    | _ => cases heq

theorem updated_orderAnswered (call : Call) (now : Nanos) (w : World R) :
    (orderAnswered call now w).2.filterMap Output.updated = [] := by
  unfold orderAnswered
  dsimp only
  split
  · rfl
  · rfl

/-- The answer to a query is a rejection exactly if the request has failed, whatever it failed with. -/
theorem rejects_getOrderAck (kind : Kind) (clientOrderId : String) (r : RestResponse Json.Order)
    (now : Nanos) (w : World R) :
    Rejects (getOrderAck settings kind clientOrderId r now w).2
    ↔ (∀ body, r ≠ .success (.ok body)) ∧ r.ends settings = false := by
  unfold Rejects
  simp only [mem_updated, getOrderAck]
  rw [filterMap_reply settings (fun _ => rfl)]
  rcases r.verdict_cases settings kind with ⟨hverdict, hend⟩ | ⟨body, hr, hverdict⟩ |
    ⟨⟨origin, status, error, text, hverdict⟩, hend⟩
  · rw [hverdict, reply, hend]
    exact iff_of_false (by rintro ⟨m, hm, -⟩; cases hm) (by rintro ⟨-, h⟩; cases h)
  · rw [hverdict, reply, seq_snd, List.filterMap_append, updated_orderAnswered, List.append_nil]
    refine iff_of_false ?_ (fun h => h.1 body hr)
    rintro ⟨m, hm, hstatus⟩
    obtain rfl := List.mem_singleton.mp hm
    exact map_ne_rejected _ hstatus
  · rw [hverdict, reply, seq_snd, List.filterMap_append, updated_orderAnswered, List.append_nil]
    refine iff_of_true ⟨_, List.mem_singleton_self _, rfl⟩ ⟨?_, hend⟩
    rintro body rfl
    cases hverdict

/-- EXACT: the answer to a query of a stale order rejects the order only if the exchange does not know
    it, exactly for the answers that are conclusive. -/
theorem rejects_only_iff {n : ℕ} {clientOrderId : String} {w : World R}
    (hcall : (n, .order clientOrderId) ∈ w.stream.calls.entries) (r : RestResponse Json.Order)
    (env : Answers) (d : Dispatcher) :
    (Rejects (step settings (.answer n (.order clientOrderId) r env d) w).2 → r.disowns = true)
    ↔ r.conclusive settings = true := by
  have hanswer : step settings (.answer n (.order clientOrderId) r env d) w
      = getOrderAck settings w.stream.kind clientOrderId r env.now
        { w with stream.calls := w.stream.calls.settle n } := answer_of_mem settings hcall r env d
  rw [hanswer, rejects_getOrderAck]
  by_cases hsuccess : ∃ body, r = .success (.ok body)
  · obtain ⟨body, rfl⟩ := hsuccess
    exact iff_of_true (fun h => absurd rfl (h.1 body)) rfl
  · have hnone : ∀ body, r ≠ .success (.ok body) := fun body hr => hsuccess ⟨body, hr⟩
    have hconclusive : r.conclusive settings = (r.disowns || r.ends settings) := by
      unfold RestResponse.conclusive
      split
      next body => exact absurd rfl (hnone body)
      next => rfl
    rw [hconclusive]
    cases hend : r.ends settings with
    | true => simp
    | false => simp [hnone]

/-- A stream that has asked for an order. -/
def asking : World .simple where
  stream := { kind := .orderEntryClassic, account := "A1", calls := Ledger.empty.enter (.order "C1") }
  request := {}

/-- A network error rejects the order. -/
theorem timeout_rejects :
    ¬ (Rejects (step {} (.answer 0 (.order "C1") (.raised (.network .error .networkError "timeout"))
          { now := 1, downloading := false, visits := [] } (.knowing none)) asking).2 →
        (RestResponse.raised (.network .error .networkError "timeout")
          : RestResponse Json.Order).disowns = true) := by
  intro h
  have hrejects := (rejects_getOrderAck (R := .simple) {} .orderEntryClassic "C1"
    (.raised (.network .error .networkError "timeout")) 1
    { asking with stream.calls := asking.stream.calls.settle 0 }).mpr ⟨by simp, rfl⟩
  exact absurd (h hrejects) (by decide)

/-- A client error with a code may. -/
theorem unknown_rejects :
    (Rejects (step {} (.answer 0 (.order "C1") (.clientError 400 "" 0 (.ok ⟨-2013, ""⟩))
        { now := 1, downloading := false, visits := [] } (.knowing none)) asking).2 →
      (RestResponse.clientError 400 "" 0 (.ok ⟨-2013, ""⟩)
        : RestResponse Json.Order).disowns = true)
    ↔ (RestResponse.clientError 400 "" 0 (.ok ⟨-2013, ""⟩)
        : RestResponse Json.Order).conclusive {} = true :=
  rejects_only_iff {} (by decide) _ _ _

end

end RestStream
end BinanceFutures
