import BinanceFutures.Gateway.SocketMemory
import BinanceFutures.Schemes.Desk

/-! # Correlation of answers

    The WebSocket stream keeps no table of what it has sent: whatever it says about an answer it unpacks
    from the id. `responses_agree` compares it with a desk that keeps the table.

        stream:  order.place ─▶ id = encode(…, user, order, version) ─▶ decode(id) ─▶ Response
        desk:    ask ticket  ─▶ (n, ticket) in the table ─────────────▶ ticket -/

namespace BinanceFutures.WebSocket
open Machine

/-- What a response says about the request it belongs to. -/
structure Ticket where
  requestType : RequestType
  userId : UserId
  orderId : OrderId
  version : Version
  deriving DecidableEq

def Call.ticket : Call → Option Ticket
  | .orderPlace _ userId orderId version => some ⟨.createOrder, userId, orderId, version⟩
  | .orderModify userId orderId version => some ⟨.modifyOrder, userId, orderId, version⟩
  | .orderCancel userId orderId version => some ⟨.cancelOrder, userId, orderId, version⟩
  | _ => none

/-- The request that a client raises. -/
def Event.ticket : Event → Option Ticket
  | .createOrder m userId _ => some ⟨.createOrder, userId, m.orderId, 1⟩
  | .modifyOrder m userId _ => some ⟨.modifyOrder, userId, m.orderId, m.version⟩
  | .cancelOrder m userId _ => some ⟨.cancelOrder, userId, m.orderId, m.version⟩
  | _ => none

/-- The exchange has accepted a modify or a cancel. -/
def accepted (call : Call) (reply : Json.Reply) : Bool :=
  match call with
  | .orderModify .. =>
    reply.status = ok && reply.parsed.result.order.status.mapRequestStatus = .accepted
  | .orderCancel .. => reply.status = ok && reply.parsed.result.order.status ≠ .filled
  | _ => false

/-- What a desk reports about the answer to a call: one response to an order request, but for accepted
    modifies and cancels under `disable_fast_order_ack`. -/
def report (settings : Settings) (call : Call) (reply : Json.Reply) : List Ticket :=
  if settings.experimental.disableFastOrderAck && accepted call reply then [] else call.ticket.toList

/-- What the desk sees of the stream. -/
def observe : Output → Option (Desk.Event Call Json.Reply)
  | .sendText _ call => some (.ask call)
  | .answered n reply => some (.answer n reply)
  | .sessionEnd => some .hangUp
  | _ => none

def ticketOf (m : Response) : Ticket := ⟨m.requestType, m.userId, m.orderId, m.version⟩

/-- What the stream reports. -/
def reported : Output → Option Ticket
  | .response m => some (ticketOf m)
  | _ => none

section
variable {R : LimitRequest} (scanner : Json.Scanner) (settings : Settings) {owed : List Ticket}

/-- The invariant: the stream agrees with the desk, and every id stands for its request. -/
structure Correlated (owed : List Ticket) (out : List Output) (w : World R) : Prop where
  agrees : Desk.Agrees (report settings) observe reported owed out (w.socket.calls.map Sent.call)
  packed : ∀ n sent, (n, sent) ∈ w.socket.calls.entries → ∃ sequence,
    Json.WSAPIRequest.decode scanner.toCodec sent.id = some { sent.call.request with sequence }

/-! ### Actions without a response -/

theorem correlated_of_frame {f : Act R} (hcalls : ∀ w, (f w).1.socket.calls = w.socket.calls)
    (hobserve : ∀ w, ∀ o ∈ (f w).2, observe o = none)
    (hreported : ∀ w, ∀ o ∈ (f w).2, reported o = none) :
    Keeps (Correlated (R := R) scanner settings owed) f := by
  intro out w h
  refine ⟨?_, ?_⟩
  · rw [hcalls]
    exact Desk.agrees_append h.agrees (hobserve w) (hreported w)
  · rw [hcalls]
    exact h.packed

/-- A request goes out under an id that stands for it. -/
theorem correlated_send (call : Call) :
    Keeps (Correlated (R := R) scanner settings owed) (send scanner call) := by
  intro out w h
  have hasked : Desk.Agrees (report settings) observe reported owed
      (out ++ [.sendText w.socket.calls.next call])
      ((w.socket.calls.map Sent.call).enter call) := by
    have hobserved := Desk.agrees_observe (o := .sendText w.socket.calls.next call)
      h.agrees rfl rfl
    simpa only [Desk.step, modify_apply, List.append_nil] using hobserved
  refine ⟨?_, ?_⟩
  · simp only [send, Ledger.map_enter]
    exact hasked
  · intro n sent hmem
    rcases List.mem_append.mp hmem with hold | hnew
    · exact h.packed n sent hold
    · obtain ⟨rfl, rfl⟩ := Prod.mk.inj (List.mem_singleton.mp hnew)
      exact ⟨w.socket.requestId + 1, Json.WSAPIRequest.decode_encode scanner.toCodec _⟩

theorem common_quiet {o : Output} (h : o.common = true) : observe o = none ∧ reported o = none := by
  cases o <;> first | exact ⟨rfl, rfl⟩ | cases h

theorem rules_correlated : Rules scanner (Correlated (R := R) scanner settings owed) where
  frame hmemory hcommon := correlated_of_frame scanner settings
    (fun w => congrArg Prod.fst (hmemory w)) (fun w o ho => (common_quiet (hcommon w o ho)).1)
    fun w o ho => (common_quiet (hcommon w o ho)).2
  send := correlated_send scanner settings

theorem correlated_commit (c : Slot) (now : Nanos) :
    Keeps (Correlated (R := R) scanner settings owed) (commit c now) :=
  correlated_of_frame scanner settings (fun _ => rfl) (by simp [commit, observe])
    (by simp [commit, reported])

theorem correlated_deadline (t : Nanos) : Keeps (Correlated (R := R) scanner settings owed)
    (modify fun w => { w with socket.listenKeyRefresh := t }) :=
  correlated_of_frame scanner settings (fun _ => rfl) (by simp) (by simp)

theorem correlated_listenKey (m : Json.WSAPIMessage) (env : Answers) :
    Keeps (Correlated (R := R) scanner settings owed) (wsapiListenKey scanner settings m env) := by
  refine (rules_correlated scanner settings).listenKey settings (fun listenKey => ?_)
    (correlated_deadline scanner settings) m env
  exact correlated_of_frame scanner settings (fun _ => rfl) (by simp [observe]) (by simp [reported])

/-! ### Actions with a response -/

/-- The response that is owed, with or without an update. -/
theorem correlated_response {m : Response} {ticket : Ticket} {f : Act R} (hm : ticketOf m = ticket)
    (hf : ∀ w, ∃ os, f w = (w, .response m :: os) ∧
      ∀ o ∈ os, observe o = none ∧ reported o = none) :
    Triple (Correlated (R := R) scanner settings [ticket]) f (Correlated scanner settings []) := by
  intro out w h
  obtain ⟨os, hfw, hos⟩ := hf w
  have hresponse : Desk.Agrees (report settings) observe reported [] (out ++ [.response m])
      (w.socket.calls.map Sent.call) := Desk.agrees_report h.agrees rfl (congrArg some hm)
  have hupdate := Desk.agrees_append hresponse (fun o ho => (hos o ho).1) fun o ho => (hos o ho).2
  rw [List.append_assoc, List.singleton_append] at hupdate
  rw [hfw]
  exact ⟨hupdate, h.packed⟩

theorem correlated_orderError (requestType : RequestType) (request : Json.WSAPIRequest)
    (status : RequestStatus) (error : Error) (text : String) :
    Triple (Correlated (R := R) scanner settings
        [⟨requestType, request.userId, request.orderId, request.version⟩])
      (orderError requestType request status error text) (Correlated scanner settings []) :=
  correlated_response scanner settings (m := ⟨requestType, .exchange, status, error, text,
    request.version, "", nan, nan, request.userId, request.orderId⟩) rfl fun _ => ⟨[], rfl, by simp⟩

theorem correlated_orderAck (requestType : RequestType) (request : Json.WSAPIRequest)
    (status : RequestStatus) (result : Json.Order) :
    Triple (Correlated (R := R) scanner settings
        [⟨requestType, request.userId, request.orderId, request.version⟩])
      (orderAck settings requestType request status result) (Correlated scanner settings []) := by
  refine correlated_response scanner settings
    (m := orderResponse requestType request status result) rfl fun w => ⟨_, rfl, ?_⟩
  split <;> simp [observe, reported]

theorem status_parsed (reply : Json.Reply) : reply.parsed.status = reply.status := by
  unfold Json.Reply.parsed
  cases reply.body <;> rfl

/-- An HTTP status is no number of an order status. -/
theorem working_ok : working scanner ok = true := by
  have hcanceled := scanner.statusCode_ne .canceled
  have hexpired := scanner.statusCode_ne .expired
  simp only [working, ne_eq, Nat.cast_inj, Bool.and_eq_true, decide_eq_true_eq]
  exact ⟨Ne.symm hcanceled, Ne.symm hexpired⟩

theorem correlated_orderPlace (reply : Json.Reply) (symbol : String) (userId : UserId)
    (orderId : OrderId) (version : Version) (sequence : UInt32) (env : Answers) :
    Triple (Correlated (R := R) scanner settings
        (report settings (.orderPlace symbol userId orderId version) reply))
      (wsapiOrderPlace settings reply.parsed
        { (Call.orderPlace symbol userId orderId version).request with sequence } env)
      (Correlated scanner settings []) := by
  have howed : report settings (.orderPlace symbol userId orderId version) reply
      = [⟨.createOrder, userId, orderId, version⟩] := by simp [report, accepted, Call.ticket]
  rw [howed]
  unfold wsapiOrderPlace
  split
  · exact correlated_response scanner settings (m := orderResponse .createOrder
      { (Call.orderPlace symbol userId orderId version).request with sequence } .accepted
      reply.parsed.result.order) rfl fun w => ⟨_, rfl, by simp [observe, reported]⟩
  · exact correlated_orderError scanner settings .createOrder
      { (Call.orderPlace symbol userId orderId version).request with sequence } _ _ _

theorem correlated_orderModify (reply : Json.Reply) (userId : UserId) (orderId : OrderId)
    (version : Version) (sequence : UInt32) :
    Triple (Correlated (R := R) scanner settings
        (report settings (.orderModify userId orderId version) reply))
      (wsapiOrderModify scanner settings reply.parsed
        { (Call.orderModify userId orderId version).request with sequence })
      (Correlated scanner settings []) := by
  have herror : ∀ status error text, Triple
      (Correlated (R := R) scanner settings [⟨.modifyOrder, userId, orderId, version⟩])
      (orderError .modifyOrder { (Call.orderModify userId orderId version).request with sequence }
        status error text) (Correlated scanner settings []) :=
    correlated_orderError scanner settings .modifyOrder
      { (Call.orderModify userId orderId version).request with sequence }
  by_cases hok : reply.status = ok
  · have hstatus : reply.parsed.status = ok := by rw [status_parsed, hok]
    by_cases haccepted : reply.parsed.result.order.status.mapRequestStatus = .accepted
    · by_cases hfast : settings.experimental.disableFastOrderAck = true
      · -- the exemption
        have howed : report settings (.orderModify userId orderId version) reply = [] := by
          simp [report, accepted, hok, haccepted, hfast]
        rw [howed]
        simp only [wsapiOrderModify, hstatus, working_ok, haccepted, hfast, Bool.not_true,
          Bool.false_eq_true, if_false, if_true, ne_eq, not_true_eq_false]
        exact keeps_skip _
      · have howed : report settings (.orderModify userId orderId version) reply
            = [⟨.modifyOrder, userId, orderId, version⟩] := by
          simp [report, hfast, Call.ticket]
        rw [howed]
        simp only [wsapiOrderModify, hstatus, working_ok, haccepted, hfast, Bool.not_true,
          Bool.false_eq_true, if_false, if_true, ne_eq, not_true_eq_false]
        exact correlated_orderAck scanner settings .modifyOrder
          { (Call.orderModify userId orderId version).request with sequence } _ _
    · have howed : report settings (.orderModify userId orderId version) reply
          = [⟨.modifyOrder, userId, orderId, version⟩] := by
        simp [report, accepted, haccepted, Call.ticket]
      rw [howed]
      simp only [wsapiOrderModify, hstatus, working_ok, haccepted, Bool.not_true,
        Bool.false_eq_true, if_false, if_true, ne_eq, not_false_eq_true]
      exact herror _ _ _
  · have hstatus : ¬ reply.parsed.status = ok := by rw [status_parsed]; exact hok
    have howed : report settings (.orderModify userId orderId version) reply
        = [⟨.modifyOrder, userId, orderId, version⟩] := by
      simp [report, accepted, hok, Call.ticket]
    rw [howed]
    unfold wsapiOrderModify
    dsimp only
    split
    · exact herror _ _ _
    · exact herror _ _ _

theorem correlated_orderCancel (reply : Json.Reply) (userId : UserId) (orderId : OrderId)
    (version : Version) (sequence : UInt32) (env : Answers) (d : Dispatcher) :
    Triple (Correlated (R := R) scanner settings
        (report settings (.orderCancel userId orderId version) reply))
      (wsapiOrderCancel settings reply.parsed
        { (Call.orderCancel userId orderId version).request with sequence } env d)
      (Correlated scanner settings []) := by
  have herror : ∀ status error text, Triple
      (Correlated (R := R) scanner settings [⟨.cancelOrder, userId, orderId, version⟩])
      (orderError .cancelOrder { (Call.orderCancel userId orderId version).request with sequence }
        status error text) (Correlated scanner settings []) :=
    correlated_orderError scanner settings .cancelOrder
      { (Call.orderCancel userId orderId version).request with sequence }
  by_cases hok : reply.status = ok
  · have hstatus : reply.parsed.status = ok := by rw [status_parsed, hok]
    by_cases hfilled : reply.parsed.result.order.status = .filled
    · have howed : report settings (.orderCancel userId orderId version) reply
          = [⟨.cancelOrder, userId, orderId, version⟩] := by
        simp [report, accepted, hfilled, Call.ticket]
      rw [howed]
      simp only [wsapiOrderCancel, hstatus, hfilled, if_true]
      exact herror _ _ _
    · by_cases hfast : settings.experimental.disableFastOrderAck = true
      · -- the exemption
        have howed : report settings (.orderCancel userId orderId version) reply = [] := by
          simp [report, accepted, hok, hfilled, hfast]
        rw [howed]
        simp only [wsapiOrderCancel, hstatus, hfilled, hfast, if_true, if_false]
        exact keeps_skip _
      · have howed : report settings (.orderCancel userId orderId version) reply
            = [⟨.cancelOrder, userId, orderId, version⟩] := by
          simp [report, hfast, Call.ticket]
        rw [howed]
        simp only [wsapiOrderCancel, hstatus, hfilled, hfast, if_true, if_false]
        exact correlated_orderAck scanner settings .cancelOrder
          { (Call.orderCancel userId orderId version).request with sequence } _ _
  · have hstatus : ¬ reply.parsed.status = ok := by rw [status_parsed]; exact hok
    have howed : report settings (.orderCancel userId orderId version) reply
        = [⟨.cancelOrder, userId, orderId, version⟩] := by
      simp [report, accepted, hok, Call.ticket]
    rw [howed]
    simp only [wsapiOrderCancel, hstatus, if_false]
    exact herror _ _ _

theorem report_of_none {call : Call} (hcall : call.ticket = none) (reply : Json.Reply) :
    report settings call reply = [] := by
  rw [report, hcall]
  split <;> rfl

/-- The handler of a call pays what is owed for its answer. -/
theorem correlated_handle (reply : Json.Reply) (call : Call) (sequence : UInt32) (env : Answers)
    (d : Dispatcher) :
    Triple (Correlated (R := R) scanner settings (report settings call reply))
      (handle scanner settings reply.parsed { call.request with sequence } env d)
      (Correlated scanner settings []) := by
  cases call with
  | orderPlace symbol userId orderId version =>
    exact correlated_orderPlace scanner settings reply symbol userId orderId version sequence env
  | orderModify userId orderId version =>
    exact correlated_orderModify scanner settings reply userId orderId version sequence
  | orderCancel userId orderId version =>
    exact correlated_orderCancel scanner settings reply userId orderId version sequence env d
  | sessionLogon =>
    rw [report_of_none settings rfl]
    exact (rules_correlated scanner settings).sessionLogon _ _
  | userDataStreamStart | userDataStreamPing =>
    rw [report_of_none settings rfl]
    exact correlated_listenKey scanner settings _ _
  | accountBalance | accountStatus =>
    rw [report_of_none settings rfl]
    exact correlated_commit scanner settings _ _
  | accountPosition =>
    rw [report_of_none settings rfl]
    exact keeps_skip _

theorem type_request (call : Call) : call.request.type ≠ .undefinedInternal ∧
    call.request.type ≠ .unknownInternal := by
  cases call <;> exact ⟨nofun, nofun⟩

/-- The message of an answer is handled as the answer to its request. -/
theorem text_answer (reply : Json.Reply) (arrangement : Json.Arrangement) {call : Call}
    {id : Json.Id} {sequence : UInt32} (env : Answers) (d : Dispatcher)
    (hid : Json.WSAPIRequest.decode scanner.toCodec id = some { call.request with sequence }) :
    text (R := R) scanner settings (reply.message id arrangement) env d
      = handle scanner settings reply.parsed { call.request with sequence } env d := by
  have hdispatch := Json.WSAPIParser.dispatch_message scanner env.allowUnknownEventTypes reply
    arrangement hid (type_request call).1 (type_request call).2
  unfold text
  rw [hdispatch, Json.parse_message]
  exact seq_skip _

theorem correlated_answer (n : ℕ) (reply : Json.Reply) (arrangement : Json.Arrangement)
    (env : Answers) (d : Dispatcher) :
    Keeps (Correlated (R := R) scanner settings [])
      (answer scanner settings n reply arrangement env d) := by
  intro out w h
  unfold answer
  split
  next => simpa using h
  next sent hfind =>
    obtain ⟨sequence, hid⟩ := h.packed n sent (Ledger.mem_of_find hfind)
    -- the desk hears of the answer, and the stream owes what the desk reports
    have howed : Correlated scanner settings (report settings sent.call reply)
        (out ++ [.answered n reply])
        { w with socket.calls := w.socket.calls.settle n } := by
      refine ⟨?_, fun n' sent' hmem => h.packed n' sent' (Ledger.mem_settle.mp hmem).1⟩
      have hobserved := Desk.agrees_observe (o := .answered n reply) h.agrees rfl rfl
      simp only [Desk.step, Ledger.find_map, hfind, Option.map_some, List.nil_append] at hobserved
      rw [Ledger.map_settle]
      exact hobserved
    have hhandle := correlated_handle scanner settings reply sent.call sequence env d _ _ howed
    rw [text_answer scanner settings reply arrangement env d hid]
    simpa [seqAll, seq] using hhandle

/-! ### Events -/

theorem correlated_timer (now : Nanos) (refresh : Bool) (gate : Slot → Bool) :
    Keeps (Correlated (R := R) scanner settings owed)
      (step scanner settings (.timer now refresh gate)) := by
  have hrules : Rules scanner (Correlated (R := R) scanner settings owed) :=
    rules_correlated scanner settings
  have hslot : ∀ c, Keeps (Correlated (R := R) scanner settings owed) (modify fun w =>
      { w with request := w.request.checkPending c now (gate c) }) := fun c =>
    correlated_of_frame scanner settings (fun _ => rfl) (by simp) (by simp)
  exact keeps_timer settings (hrules.ping settings (correlated_deadline scanner settings) now)
    (keeps_seq (hrules.checkPending (hslot .balances) _) (hrules.checkPending (hslot .positions) _))
    refresh

theorem correlated_disconnected :
    Keeps (Correlated (R := R) scanner settings []) disconnected := by
  refine (rules_correlated scanner settings).disconnected ?_
  intro out w h
  refine ⟨?_, fun n sent hmem => by simp [Ledger.clear] at hmem⟩
  have hobserved := Desk.agrees_observe (o := .sessionEnd) h.agrees rfl rfl
  simp only [Desk.step, modify_apply, List.append_nil, ← Ledger.map_clear] at hobserved
  exact hobserved

/-- Every step keeps the agreement. -/
theorem correlated_step (e : Event) :
    Keeps (Correlated (R := R) scanner settings []) (step scanner settings e) := by
  have hvain : Keeps (Correlated (R := R) scanner settings []) (emit [.noListenKeyRefresh]) :=
    correlated_of_frame scanner settings (fun _ => rfl) (by simp [observe]) (by simp [reported])
  intro out w h
  exact (rules_correlated scanner settings).step settings
    (fun now refresh gate _ => correlated_timer scanner settings now refresh gate)
    (fun now _ => keeps_force (correlated_deadline scanner settings) hvain now)
    (fun _ => correlated_disconnected scanner settings out w h)
    (fun n reply arrangement env d _ =>
      correlated_answer scanner settings n reply arrangement env d out w h) h

/-! ### What is asked -/

/-- An order request that no client of the step has raised. -/
def Stray (ticket : Option Ticket) (o : Output) : Prop :=
  ∃ n call, o = .sendText n call ∧ call.ticket ≠ none ∧ call.ticket ≠ ticket

/-- An action that is bare raises no order request. -/
theorem Stray.bare {ticket : Option Ticket} {o : Output} (h : Stray ticket o) : o.bare = false := by
  obtain ⟨n, call, rfl, hsome, -⟩ := h
  cases call <;> first | rfl | exact absurd rfl hsome

theorem not_stray_of_ne {ticket : Option Ticket} {o : Output} (h : ∀ n call, o ≠ .sendText n call) :
    ¬ Stray ticket o := by
  rintro ⟨n, call, heq, -⟩
  exact h n call heq

theorem not_stray_sendText (n : ℕ) (call : Call) : ¬ Stray call.ticket (.sendText n call) := by
  rintro ⟨n', call', heq, -, hne⟩
  cases heq
  exact hne rfl

/-- The order requests that a step sends are the one that its client has raised. -/
theorem not_stray_step (e : Event) :
    Silent (Stray e.ticket) (step (R := R) scanner settings e) := by
  cases e with
  | answer n reply arrangement env d =>
    exact silent_answer scanner settings (fun _ => Stray.bare)
      (fun n reply => not_stray_of_ne (by simp)) (fun m _ => not_stray_of_ne (by simp))
      (fun listenKey => ⟨not_stray_of_ne (by simp), not_stray_of_ne (by simp)⟩)
      n reply arrangement env d
  | createOrder m userId body | modifyOrder m userId body | cancelOrder m userId body =>
    exact fun w => silent_orderRequest scanner (fun _ => Stray.bare)
      (fun n => not_stray_sendText n _) _ _
  | _ => exact silent_mono (fun _ => Stray.bare) (bare_step scanner settings rfl)

/-! ### What is answered -/

/-- The answer that the stream tells of. -/
def Output.told : Output → Option (ℕ × Json.Reply)
  | .answered n reply => some (n, reply)
  | _ => none

/-- The answer of the event, if it is to a request in the table. -/
def Event.answers (table : Ledger Call) : Event → List (ℕ × Json.Reply)
  | .answer n reply _ _ _ => if (table.find n).isSome then [(n, reply)] else []
  | _ => []

theorem bare_of_told {o : Output} (h : o.told ≠ none) : o.bare = false := by
  cases o <;> first | rfl | exact absurd rfl h

theorem told_eq_nil {os : List Output} (h : ∀ o ∈ os, ¬ o.told ≠ none) : os.filterMap Output.told = [] :=
  List.filterMap_eq_nil_iff.mpr fun o ho => not_not.mp (h o ho)

/-- The stream tells of the answers to what is outstanding. -/
theorem told_step (e : Event) (w : World R) :
    (step scanner settings e w).2.filterMap Output.told = e.answers (w.socket.calls.map Sent.call) := by
  cases e with
  | answer n reply arrangement env d =>
    simp only [step, answer, Event.answers, Ledger.find_map]
    cases w.socket.calls.find n with
    | none => rfl
    | some sent =>
      have htext := silent_text (R := R) scanner settings (fun _ => bare_of_told)
        (fun _ _ h => h rfl) (fun _ => ⟨fun h => h rfl, fun h => h rfl⟩)
        (reply.message sent.id arrangement) env d
      simp only [seqAll, seq_snd, modify_apply, emit_apply, skip_apply, List.nil_append, List.append_nil,
        List.singleton_append, List.filterMap_cons, Output.told, told_eq_nil (htext _)]
      rfl
  | createOrder m userId body | modifyOrder m userId body | cancelOrder m userId body =>
    exact told_eq_nil (silent_orderRequest scanner (fun _ => bare_of_told) (fun _ h => h rfl) _ _)
  | _ => exact told_eq_nil (silent_mono (fun _ => bare_of_told) (bare_step scanner settings rfl) w)

/-! ### Runs -/

theorem correlated_create (account : String) (streamId : UInt16) (request : Request R) :
    Correlated scanner settings [] [] (create account streamId request) where
  agrees := Desk.agrees_empty
  packed n sent hmem := by simp [create, Ledger.empty] at hmem

/-- Over every run the stream agrees with the desk. -/
theorem run_correlated (account : String) (streamId : UInt16) (request : Request R) (es : List Event) :
    let s := run (mortal kills (step scanner settings)) es (create account streamId request, false)
    Correlated scanner settings [] s.2 s.1.1 :=
  keeps_run (fun e => keeps_mortal (correlated_step scanner settings e)) es []
    (create account streamId request, false) (correlated_create scanner settings account streamId request)

/-- CORRECT: over every run the responses of the stream are those of a desk that keeps a table of what
    was asked, one for each answered order request and for its very ticket. What is asked is what the
    clients have raised, and what is answered is what the exchange answers of what is in the table. -/
theorem responses_agree (account : String) (streamId : UInt16) (request : Request R)
    (es : List Event) :
    (run (mortal kills (step scanner settings)) es (create account streamId request, false)).2.filterMap
        reported
      = (run (Desk.step (report settings))
          ((run (mortal kills (step scanner settings)) es
            (create account streamId request, false)).2.filterMap observe) .empty).2
    ∧ ∀ pre e post, es = pre ++ e :: post →
        let s := run (mortal kills (step scanner settings)) pre (create account streamId request, false)
        (∀ n call, Output.sendText n call ∈ (mortal kills (step scanner settings) e s.1).2 →
          call.ticket = none ∨ call.ticket = e.ticket) ∧
        (s.1.2 = false → (mortal kills (step scanner settings) e s.1).2.filterMap Output.told
          = e.answers (run (Desk.step (report settings)) (s.2.filterMap observe) .empty).1) := by
  refine ⟨?_, fun pre e post _ => ?_⟩
  · simpa using (run_correlated scanner settings account streamId request es).agrees.reports.symm
  · have hrun := run_correlated scanner settings account streamId request pre
    dsimp only at hrun ⊢
    generalize run (mortal kills (step scanner settings)) pre
      (create account streamId request, false) = s at hrun
    obtain ⟨⟨w, dead⟩, out⟩ := s
    refine ⟨fun n call hsent => ?_, ?_⟩
    · cases dead with
      | true => simp at hsent
      | false =>
        by_contra hne
        rw [not_or] at hne
        exact not_stray_step scanner settings e w _ hsent ⟨n, call, rfl, hne.1, hne.2⟩
    · rintro rfl
      rw [hrun.agrees.table]
      exact told_step scanner settings e w

end

/-- The exchange refuses the request of the number. -/
def refused (n : ℕ) : Event :=
  .answer n ⟨400, .error ⟨-1102, ""⟩⟩ ⟨[.status, .body, .id], by decide, by decide, by decide, by decide⟩
    { now := 1, nowUtc := 1, downloading := false, visits := [], allowUnknownEventTypes := false }
    (.knowing none)

/-- Two clients have a request outstanding, and the second is refused before the first. -/
def crossed : List Event := [
  .ready [.done],
  .createOrder { account := "A1", orderId := 1, symbol := "BTCUSDT" } 2 (.ok ""),
  .cancelOrder { account := "A1", orderId := 9, version := 3 } 5 (.ok ""),
  refused 1, refused 0]

/-- Each refusal is reported for its own request. -/
theorem crossed_responses :
    (run (mortal kills (step (R := .simple) .standard {})) crossed (create "A1" 1 {}, false)).2.filterMap
        reported
      = [⟨.cancelOrder, 5, 9, 3⟩, ⟨.createOrder, 2, 1, 1⟩] := by
  rw [(responses_agree .standard {} "A1" 1 {} crossed).1]
  decide

end BinanceFutures.WebSocket
