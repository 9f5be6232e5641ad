import BinanceFutures.Gateway.Correlation
import BinanceFutures.Gateway.Verdicts

/-! # Outcomes of modify and cancel requests

    The exchange decides what becomes of a modify or a cancel. The gateway hears of it as an HTTP response
    or as a message on the socket, and concludes in two separate handlers.

        outcome ─┬─▶ RestResponse ─▶ order_modify_ack, order_cancel_ack ─▶ status, error ─┐
                 └─▶ Reply ───────▶ WSAPIOrderModify, WSAPIOrderCancel ──▶ status, error ─┴─ the same?

    They conclude the same except where the order's status is not known, where the failure is about the
    gateway's rate limits, and where the two read different errors into a failure. -/

namespace BinanceFutures
open Machine

/-- A request that the exchange has not carried out: an HTTP status of the 4xx or 5xx, and a code. -/
structure Failure where
  status : ℕ
  error : Json.CodeMsg
  isError : 400 ≤ status ∧ status < 600

/-- What the exchange makes of a modify or a cancel. -/
inductive Outcome where
  | success (order : Json.Order)
  | failure (f : Failure)

namespace Outcome

/-- The outcome as an HTTP response, whose category is that of its status. -/
def response (text : String) (retryAfter : Nanos) : Outcome → RestResponse Json.Order
  | .success order => .success (.ok order)
  | .failure f =>
    if f.status < 500 then .clientError f.status text retryAfter (.ok f.error) else .serverError text

/-- The outcome as a message. -/
def reply : Outcome → Json.Reply
  | .success order => ⟨ok, .result { order }⟩
  | .failure f => ⟨f.status, .error f.error⟩

/-- The exchange has given the code of a rejected cancel. -/
def cancelRejected : Outcome → Bool
  | .success _ => false
  | .failure f => f.error.code = -2011

end Outcome

/-- What a response concludes. -/
def Response.conclusion (m : Response) : RequestStatus × Error := (m.requestStatus, m.error)

/-- Both transports conclude the same, and conclude something. -/
structure Agree (rest ws : List (RequestStatus × Error)) : Prop where
  same : rest = ws
  conclusive : ∀ p ∈ rest ++ ws, p.1 = .accepted ∨ p.1 = .rejected

theorem agree_self {ps : List (RequestStatus × Error)} (h : ∀ p ∈ ps, p.1 = .accepted ∨ p.1 = .rejected) :
    Agree ps ps :=
  ⟨rfl, fun p hp => h p ((List.mem_append.mp hp).elim id id)⟩

/-- One rejection on each side. -/
theorem agree_rejected {error error' : Error} :
    Agree [(.rejected, error)] [(.rejected, error')] ↔ error = error' := by
  constructor
  · intro h
    simpa using h.same
  · rintro rfl
    exact agree_self (by simp)

/-! ### Over HTTP -/

namespace RestStream

section
variable {R : LimitRequest} (settings : Settings)

/-- What the stream concludes. -/
def concluded (os : List Output) : List (RequestStatus × Error) :=
  (os.filterMap Output.responded).map Response.conclusion

theorem concluded_orderAck (kind : Kind) (t : Target) (status : RequestStatus) (ack : Json.Order)
    (w : World R) : concluded (orderAck settings kind t status ack w).2 = [(status, .undefined)] := by
  unfold orderAck
  dsimp only
  split
  · rfl
  · rfl

/-- What is concluded from a failure; nothing where the process ends. -/
def failed (f : Failure) : List (RequestStatus × Error) :=
  if f.status < 500 then
    if f.status = forbidden ∧ settings.rest.terminateOn403 then []
    else [(.rejected, if isLimit f.status then .requestRateLimitReached
      else Json.guessError f.error.code)]
  else [(.rejected, .unknown)]

theorem concluded_failure (kind : Kind) (t : Target) (f : Failure) (text : String) (retryAfter : Nanos)
    (onSuccess : Json.Order → Act R) (w : World R) :
    concluded (andThen (processResponse settings kind ((Outcome.failure f).response text retryAfter)
      (orderError t) onSuccess) skip w).2 = failed settings f := by
  rw [concluded, filterMap_reply settings (fun _ => rfl), Outcome.response, failed]
  by_cases hserver : f.status < 500
  · rw [if_pos hserver, if_pos hserver, RestResponse.verdict]
    by_cases hend : f.status = forbidden ∧ settings.rest.terminateOn403 = true
    · rw [if_pos hend, if_pos hend]
      rfl
    · rw [if_neg hend, if_neg hend]
      by_cases hlimit : isLimit f.status = true
      · rw [if_pos hlimit, if_pos hlimit]
        rfl
      · rw [if_neg hlimit, if_neg hlimit]
        rfl
  · rw [if_neg hserver, if_neg hserver]
    rfl

/-- What is concluded from the answer to a modify. -/
def modified : Outcome → List (RequestStatus × Error)
  | .success order =>
    if modifiable order.status then
      if settings.experimental.disableFastOrderAck then []
      else [(order.status.mapRequestStatus, .undefined)]
    else [(.rejected, .tooLateToModifyOrCancel)]
  | .failure f => failed settings f

/-- What is concluded from the answer to a cancel. -/
def canceled : Outcome → List (RequestStatus × Error)
  | .success order =>
    if order.status = .filled then [(.rejected, .tooLateToModifyOrCancel)]
    else if settings.experimental.disableFastOrderAck then [] else [(.accepted, .undefined)]
  | .failure f => failed settings f

theorem concluded_orderModifyAck (kind : Kind) (t : Target) (outcome : Outcome) (text : String)
    (retryAfter : Nanos) (w : World R) :
    concluded (orderModifyAck settings kind t (outcome.response text retryAfter) w).2
      = modified settings outcome := by
  cases outcome with
  | failure f => exact concluded_failure settings kind t f text retryAfter _ w
  | success order =>
    rw [Outcome.response, orderModifyAck, processResponse, andThen, seq_skip, modified]
    cases hstatus : order.status with
    | undefinedInternal | unknownInternal | new | partiallyFilled =>
      simp only [modifiable, if_true]
      cases settings.experimental.disableFastOrderAck with
      | true => rfl
      | false =>
        simp only [Bool.false_eq_true, if_false]
        exact concluded_orderAck settings kind t _ order w
    | filled | canceled | expired | newInsurance | newAdl | expiredInMatch => rfl

theorem concluded_orderCancelAck (kind : Kind) (t : Target) (outcome : Outcome) (text : String)
    (retryAfter : Nanos) (w : World R) :
    concluded (orderCancelAck settings kind t (outcome.response text retryAfter) w).2
      = canceled settings outcome := by
  cases outcome with
  | failure f => exact concluded_failure settings kind t f text retryAfter _ w
  | success order =>
    rw [Outcome.response, orderCancelAck, processResponse, andThen, seq_skip, canceled]
    by_cases hfilled : order.status = .filled
    · rw [if_pos hfilled, if_pos hfilled]
      rfl
    · rw [if_neg hfilled, if_neg hfilled]
      cases settings.experimental.disableFastOrderAck with
      | true => rfl
      | false => exact concluded_orderAck settings kind t _ order w

end

end RestStream

/-! ### On the socket -/

namespace WebSocket

section
variable {R : LimitRequest} (scanner : Json.Scanner) (settings : Settings)

/-- The response among what is put out. -/
def Output.responded : Output → Option Response
  | .response m => some m
  | _ => none

/-- What the stream concludes. -/
def concluded (os : List Output) : List (RequestStatus × Error) :=
  (os.filterMap Output.responded).map Response.conclusion

theorem concluded_orderAck (requestType : RequestType) (request : Json.WSAPIRequest)
    (status : RequestStatus) (result : Json.Order) (w : World R) :
    concluded (orderAck settings requestType request status result w).2 = [(status, .undefined)] := by
  unfold orderAck
  dsimp only
  split
  · rfl
  · rfl

/-- What is concluded from the answer to a modify. -/
def modified : Outcome → List (RequestStatus × Error)
  | .success order =>
    if order.status.mapRequestStatus ≠ .accepted then
      [(order.status.mapRequestStatus, .tooLateToModifyOrCancel)]
    else if settings.experimental.disableFastOrderAck then [] else [(.accepted, .undefined)]
  | .failure f =>
    [(.rejected, if working scanner f.status then Json.guessError f.error.code
      else .tooLateToModifyOrCancel)]

/-- What is concluded from the answer to a cancel, but for the exchange's bug. -/
def canceled : Outcome → List (RequestStatus × Error)
  | .success order =>
    if order.status = .filled then [(.rejected, .tooLateToModifyOrCancel)]
    else if settings.experimental.disableFastOrderAck then [] else [(.accepted, .undefined)]
  | .failure f => [(.rejected, Json.guessError f.error.code)]

theorem status_ne_ok (f : Failure) : (Outcome.failure f).reply.parsed.status ≠ ok := by
  have hstatus := f.isError.1
  change (f.status : ℤ) ≠ ((200 : ℕ) : ℤ)
  omega

theorem concluded_orderModify (outcome : Outcome) (request : Json.WSAPIRequest) (w : World R) :
    concluded (wsapiOrderModify scanner settings outcome.reply.parsed request w).2
      = modified scanner settings outcome := by
  unfold wsapiOrderModify
  cases outcome with
  | success order =>
    have hworking : working scanner (Outcome.success order).reply.parsed.status = true :=
      working_ok scanner
    have hok : (Outcome.success order).reply.parsed.status = ok := rfl
    have horder : (Outcome.success order).reply.parsed.result.order = order := rfl
    rw [hworking, if_neg (by decide), if_pos hok, horder, modified]
    by_cases haccepted : order.status.mapRequestStatus = .accepted
    · rw [if_neg (not_not_intro haccepted), if_neg (not_not_intro haccepted)]
      cases settings.experimental.disableFastOrderAck with
      | true => rfl
      | false =>
        refine (concluded_orderAck settings .modifyOrder request _ order w).trans ?_
        simp [haccepted]
    · rw [if_pos haccepted, if_pos haccepted]
      rfl
  | failure f =>
    have hparsed : (Outcome.failure f).reply.parsed.status = (f.status : ℤ) := rfl
    rw [if_neg (status_ne_ok f), hparsed, modified]
    cases working scanner (f.status : ℤ) with
    | true => rfl
    | false => rfl

theorem concluded_orderCancel {outcome : Outcome} (hcode : outcome.cancelRejected = false)
    (request : Json.WSAPIRequest) (env : Answers) (d : Dispatcher) (w : World R) :
    concluded (wsapiOrderCancel settings outcome.reply.parsed request env d w).2
      = canceled settings outcome := by
  unfold wsapiOrderCancel
  cases outcome with
  | success order =>
    have hok : (Outcome.success order).reply.parsed.status = ok := rfl
    have horder : (Outcome.success order).reply.parsed.result.order = order := rfl
    rw [if_pos hok, horder, canceled]
    by_cases hfilled : order.status = .filled
    · rw [if_pos hfilled, if_pos hfilled]
      rfl
    · rw [if_neg hfilled, if_neg hfilled]
      cases settings.experimental.disableFastOrderAck with
      | true => rfl
      | false => exact concluded_orderAck settings .cancelOrder request _ order w
  | failure f =>
    have hcode' : f.error.code ≠ -2011 := by simpa [Outcome.cancelRejected] using hcode
    have hcancel : cancelError settings (Outcome.failure f).reply.parsed.error.code request env.nowUtc d
        = Json.guessError f.error.code := if_neg fun h => hcode' h.1
    rw [if_neg (status_ne_ok f), hcancel]
    rfl

/-- A stream that has run from its creation. -/
def after (account : String) (streamId : UInt16) (request : Request R) (es : List Event) : World R :=
  (run (step scanner settings) es (create account streamId request)).1

/-- The answer to a request that is outstanding is concluded by the handler of the request. -/
theorem concluded_answer {account : String} {streamId : UInt16} {request : Request R}
    {es : List Event} {n : ℕ} {sent : Sent}
    (hfind : (after scanner settings account streamId request es).socket.calls.find n = some sent)
    (reply : Json.Reply) (arrangement : Json.Arrangement) (env : Answers) (d : Dispatcher) :
    ∃ sequence w, concluded (step scanner settings (.answer n reply arrangement env d)
        (after scanner settings account streamId request es)).2
      = concluded
        (handle (R := R) scanner settings reply.parsed { sent.call.request with sequence } env d w).2 := by
  have hrun := keeps_run (correlated_step (R := R) scanner settings) es [] (create account streamId request)
    (correlated_create scanner settings account streamId request)
  obtain ⟨sequence, hid⟩ := hrun.packed n sent (Ledger.mem_of_find hfind)
  refine ⟨sequence, { after scanner settings account streamId request es with
    socket.calls := (after scanner settings account streamId request es).socket.calls.settle n }, ?_⟩
  simp only [step, answer, hfind]
  rw [text_answer scanner settings reply arrangement env d hid]
  simp [seqAll, seq, concluded, Output.responded, List.filterMap_cons]

end

end WebSocket

/-! ### Both -/

/-- The failure is about the request. A server that fails does not say that a cancel is rejected, that
    there is no such order or that the order is the same. -/
structure Failure.Plain (f : Failure) : Prop where
  request : isLimit f.status = false
  server : 500 ≤ f.status → f.error.code ≠ -2011 ∧ f.error.code ≠ -2013 ∧ f.error.code ≠ -4197

theorem Failure.plain_iff {f : Failure} : f.Plain ↔
    isLimit f.status = false ∧ (500 ≤ f.status → Json.guessError f.error.code = .unknown) := by
  rw [Json.guessError_eq_unknown_iff]
  exact ⟨fun h => ⟨h.request, h.server⟩, fun h => ⟨h.1, h.2⟩⟩

/-- A modify has been decided: the order's status is known, or the failure is plain and, where the socket
    takes its status for that of an order that is done, says that a cancel is rejected or that there is
    no such order. -/
def Outcome.DecidesModify (scanner : Json.Scanner) : Outcome → Prop
  | .success order => order.status ≠ .undefinedInternal ∧ order.status ≠ .unknownInternal
  | .failure f => f.Plain ∧
      (WebSocket.working scanner f.status = false → f.error.code = -2011 ∨ f.error.code = -2013)

/-- A cancel has been decided. -/
def Outcome.DecidesCancel : Outcome → Prop
  | .success _ => True
  | .failure f => f.Plain

section
variable (scanner : Json.Scanner) (settings : Settings)

theorem guessError_ne_limit (code : ℤ) : Json.guessError code ≠ .requestRateLimitReached := by
  unfold Json.guessError
  split
  · nofun
  · split
    · nofun
    · split <;> nofun

/-- Over HTTP a failure is concluded by its status first, on the socket by its code. -/
theorem agree_failed {f : Failure} {error : Error} (herror : error ≠ .requestRateLimitReached) :
    Agree (RestStream.failed settings f) [(.rejected, error)] ↔
      isLimit f.status = false ∧ error = if f.status < 500 then Json.guessError f.error.code else .unknown := by
  unfold RestStream.failed
  by_cases hserver : f.status < 500
  · rw [if_pos hserver, if_pos hserver]
    by_cases hlimit : isLimit f.status = true
    · refine iff_of_false ?_ (by simp [hlimit])
      rw [if_pos hlimit]
      by_cases hend : f.status = forbidden ∧ settings.rest.terminateOn403 = true
      · rw [if_pos hend]
        exact fun h => absurd h.same (by simp)
      · rw [if_neg hend, agree_rejected]
        exact herror.symm
    · have hend : ¬ (f.status = forbidden ∧ settings.rest.terminateOn403 = true) := by
        rintro ⟨hforbidden, -⟩
        exact hlimit (by simp [isLimit, hforbidden])
      rw [if_neg hend, if_neg hlimit, agree_rejected, eq_comm]
      simp [hlimit]
  · have hlimit : isLimit f.status = false := by
      have hstatus : ¬ f.status = 403 ∧ ¬ f.status = 418 ∧ ¬ f.status = 429 := by omega
      simp only [isLimit, forbidden, iAmATeapot, tooManyRequests, hstatus, decide_false, Bool.or_self]
    rw [if_neg hserver, if_neg hserver, agree_rejected, eq_comm]
    simp [hlimit]

/-- Both conclude the same from the answer to a modify exactly if the outcome decides it. -/
theorem agree_modified (outcome : Outcome) :
    Agree (RestStream.modified settings outcome) (WebSocket.modified scanner settings outcome)
      ↔ outcome.DecidesModify scanner := by
  cases outcome with
  | success order =>
    rw [Outcome.DecidesModify, RestStream.modified, WebSocket.modified]
    cases order.status with
    | undefinedInternal | unknownInternal =>
      -- one is silent or takes the order to be working, the other says that it is too late
      refine iff_of_false (fun h => ?_) (by simp)
      have hsame := h.same
      revert hsame
      cases settings.experimental.disableFastOrderAck <;> decide
    | new | partiallyFilled =>
      refine iff_of_true ?_ (by simp)
      cases settings.experimental.disableFastOrderAck with
      | true => exact agree_self (by decide)
      | false => exact agree_self (by decide)
    | filled | canceled | expired | newInsurance | newAdl | expiredInMatch =>
      exact iff_of_true (agree_rejected.mpr rfl) (by simp)
  | failure f =>
    have hlimit := guessError_ne_limit f.error.code
    rw [RestStream.modified, WebSocket.modified, agree_failed settings (by split <;> simp [hlimit]),
      Outcome.DecidesModify, Failure.plain_iff, ← Json.guessError_eq_tooLate_iff]
    by_cases hserver : f.status < 500
    · have hnot : ¬ 500 ≤ f.status := by omega
      rw [if_pos hserver]
      cases hworking : WebSocket.working scanner f.status with
      | true =>
        simp only [if_true, Bool.true_eq_false, false_imp_iff, and_true]
        exact ⟨fun h => ⟨h, fun hle => absurd hle hnot⟩, fun h => h.1⟩
      | false =>
        simp only [Bool.false_eq_true, if_false, forall_const]
        exact ⟨fun h => ⟨⟨h.1, fun hle => absurd hle hnot⟩, h.2.symm⟩, fun h => ⟨h.1.1, h.2.symm⟩⟩
    · have hle : 500 ≤ f.status := by omega
      rw [if_neg hserver]
      cases hworking : WebSocket.working scanner f.status with
      | true =>
        simp only [if_true, Bool.true_eq_false, false_imp_iff, and_true]
        exact ⟨fun h => ⟨h.1, fun _ => h.2⟩, fun h => ⟨h.1, h.2 hle⟩⟩
      | false =>
        -- over HTTP the error of a server error is unknown, so it cannot be too late
        simp only [Bool.false_eq_true, if_false, forall_const]
        refine iff_of_false (fun h => by cases h.2) fun h => ?_
        have hunknown := h.1.2 hle
        rw [h.2] at hunknown
        cases hunknown

/-- Both conclude the same from the answer to a cancel exactly if the outcome decides it. -/
theorem agree_canceled (outcome : Outcome) :
    Agree (RestStream.canceled settings outcome) (WebSocket.canceled settings outcome)
      ↔ outcome.DecidesCancel := by
  cases outcome with
  | success order =>
    refine iff_of_true (agree_self fun p hp => ?_) trivial
    rw [RestStream.canceled] at hp
    split at hp
    · exact Or.inr (by rw [List.mem_singleton.mp hp])
    · split at hp
      · cases hp
      · exact Or.inl (by rw [List.mem_singleton.mp hp])
  | failure f =>
    rw [RestStream.canceled, WebSocket.canceled, agree_failed settings (guessError_ne_limit _),
      Outcome.DecidesCancel, Failure.plain_iff]
    by_cases hserver : f.status < 500
    · have hnot : ¬ 500 ≤ f.status := by omega
      simp only [if_pos hserver, and_true]
      exact ⟨fun h => ⟨h, fun hle => absurd hle hnot⟩, fun h => h.1⟩
    · have hle : 500 ≤ f.status := by omega
      rw [if_neg hserver]
      exact ⟨fun h => ⟨h.1, fun _ => h.2⟩, fun h => ⟨h.1, h.2 hle⟩⟩

variable {R : LimitRequest}

/-- EXACT: an outstanding modify or cancel, answered with the same outcome on both transports, is
    concluded the same on both, as accepted or rejected, exactly if the outcome decides it. -/
theorem agree_iff (outcome : Outcome) (text : String) (retryAfter : Nanos)
    (arrangement : Json.Arrangement) (rest : RestStream.World R) (account : String) (streamId : UInt16)
    (request : Request R) (es : List WebSocket.Event) (n n' : ℕ) (userId : UserId) (orderId : OrderId)
    (version : Version) (body : String) (id : Json.Id) (env : RestStream.Answers)
    (env' : WebSocket.Answers) (d d' : Dispatcher) :
    ((n, .orderModify body userId orderId version) ∈ rest.stream.calls.entries →
      (WebSocket.after scanner settings account streamId request es).socket.calls.find n'
        = some ⟨.orderModify userId orderId version, id⟩ →
      (Agree
          (RestStream.concluded (RestStream.step settings (.answer n
            (.orderModify body userId orderId version) (outcome.response text retryAfter) env d) rest).2)
          (WebSocket.concluded (WebSocket.step scanner settings
            (.answer n' outcome.reply arrangement env' d')
            (WebSocket.after scanner settings account streamId request es)).2)
        ↔ outcome.DecidesModify scanner)) ∧
    ((n, .orderCancel body userId orderId version) ∈ rest.stream.calls.entries →
      (WebSocket.after scanner settings account streamId request es).socket.calls.find n'
        = some ⟨.orderCancel userId orderId version, id⟩ →
      outcome.cancelRejected = false →
      (Agree
          (RestStream.concluded (RestStream.step settings (.answer n
            (.orderCancel body userId orderId version) (outcome.response text retryAfter) env d) rest).2)
          (WebSocket.concluded (WebSocket.step scanner settings
            (.answer n' outcome.reply arrangement env' d')
            (WebSocket.after scanner settings account streamId request es)).2)
        ↔ outcome.DecidesCancel)) := by
  refine ⟨fun hrest hws => ?_, fun hrest hws hcode => ?_⟩
  · obtain ⟨sequence, w, hconcluded⟩ :=
      WebSocket.concluded_answer scanner settings hws outcome.reply arrangement env' d'
    have hanswer := RestStream.concluded_orderModifyAck settings rest.stream.kind
      ⟨.modifyOrder, userId, orderId, version⟩ outcome text retryAfter
      { rest with stream.calls := rest.stream.calls.settle n }
    have hanswer' := WebSocket.concluded_orderModify scanner settings outcome
      { (WebSocket.Call.orderModify userId orderId version).request with sequence } w
    rw [← agree_modified scanner settings outcome, ← hanswer, ← hanswer', hconcluded]
    exact Iff.of_eq (congrArg (fun r : RestStream.World R × List RestStream.Output =>
      Agree (RestStream.concluded r.2) _) (RestStream.answer_of_mem settings hrest _ env d))
  · obtain ⟨sequence, w, hconcluded⟩ :=
      WebSocket.concluded_answer scanner settings hws outcome.reply arrangement env' d'
    have hanswer := RestStream.concluded_orderCancelAck settings rest.stream.kind
      ⟨.cancelOrder, userId, orderId, version⟩ outcome text retryAfter
      { rest with stream.calls := rest.stream.calls.settle n }
    have hanswer' := WebSocket.concluded_orderCancel settings hcode
      { (WebSocket.Call.orderCancel userId orderId version).request with sequence } env' d' w
    rw [← agree_canceled settings outcome, ← hanswer, ← hanswer', hconcluded]
    exact Iff.of_eq (congrArg (fun r : RestStream.World R × List RestStream.Output =>
      Agree (RestStream.concluded r.2) _) (RestStream.answer_of_mem settings hrest _ env d))

end

/-- A REST stream that has asked for a modify, as number 0, and a cancel, as number 1. -/
def changing : RestStream.World .simple where
  stream := {
    kind := .orderEntryClassic
    account := "A1"
    calls := (Ledger.empty.enter (.orderModify "" 2 1 2)).enter (.orderCancel "" 2 1 3) }
  request := {}

/-- The same requests on a socket that is ready. -/
def changes : List WebSocket.Event :=
  [.ready [.done],
    .modifyOrder { account := "A1", orderId := 1, version := 2 } 2 (.ok ""),
    .cancelOrder { account := "A1", orderId := 1, version := 3 } 2 (.ok "")]

/-- A status that is not in the list of statuses. -/
def unknownStatus : Outcome :=
  .success { orderId := 7, symbol := "BTCUSDT", status := .unknownInternal, clientOrderId := "x1" }

/-- A rate limit has been exceeded. -/
def limited : Outcome := .failure ⟨429, ⟨-1003, ""⟩, by decide⟩

/-- What is concluded over HTTP. -/
def overHttp (n : ℕ) (call : RestStream.Call) (r : RestResponse call.Ack) : List (RequestStatus × Error) :=
  RestStream.concluded (RestStream.step {} (.answer n call r
    { now := 1, downloading := false, visits := [] } (.knowing none)) changing).2

/-- What is concluded on the socket. -/
def onSocket (n : ℕ) (reply : Json.Reply) : List (RequestStatus × Error) :=
  WebSocket.concluded (WebSocket.step .standard {} (.answer n reply
    ⟨[.id, .status, .body], by decide, by decide, by decide, by decide⟩
    { now := 1, nowUtc := 1, downloading := false, visits := [], allowUnknownEventTypes := false }
    (.knowing none)) (WebSocket.after (R := .simple) .standard {} "A1" 1 {} changes)).2

/-- Over HTTP the modify is answered without a conclusion; on the socket it is too late, without a
    conclusion either. -/
theorem unknownStatus_disagrees :
    ¬ Agree (overHttp 0 (.orderModify "" 2 1 2) (unknownStatus.response "" 0))
      (onSocket 0 unknownStatus.reply) := by
  intro h
  have hsame := h.same
  revert hsame
  decide

/-- The modify and the cancel have both exceeded the rate limit. -/
theorem limited_agree_iff :
    (Agree (overHttp 0 (.orderModify "" 2 1 2) (limited.response "" 0)) (onSocket 0 limited.reply)
      ↔ limited.DecidesModify .standard) ∧
    (Agree (overHttp 1 (.orderCancel "" 2 1 3) (limited.response "" 0)) (onSocket 1 limited.reply)
      ↔ limited.DecidesCancel) :=
  ⟨(agree_iff .standard {} limited "" 0 _ changing "A1" 1 {} changes 0 0 2 1 2 ""
      (Json.WSAPIRequest.encode Json.Scanner.standard.toCodec
        { (WebSocket.Call.orderModify 2 1 2).request with sequence := 1000001 }) _ _ _ _).1
      (by decide) (by rfl),
    (agree_iff .standard {} limited "" 0 _ changing "A1" 1 {} changes 1 1 2 1 3 ""
      (Json.WSAPIRequest.encode Json.Scanner.standard.toCodec
        { (WebSocket.Call.orderCancel 2 1 3).request with sequence := 1000002 }) _ _ _ _).2
      (by decide) (by rfl) (by decide)⟩

end BinanceFutures
