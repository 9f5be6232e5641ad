import BinanceFutures.Gateway.RestStream

/-! # Frames of a REST stream

    Most of what a REST stream does has nothing to do with the account's slots: it leaves the slots, the
    counter of stale orders and the class alone, and whatever it asks the exchange for has been asked for
    by no slot. `Tame` says so once for each action; `tame_step` says it of the events, and
    `acknowledge_eq` of all that an answer does before it closes its call.

        event  ── other than timer, answer ─▶ tame
        answer ── handlers of the response ─▶ tame ── closing ─▶ commit of the slot -/

namespace BinanceFutures.RestStream
open Machine

/-- An output that says nothing about slots. -/
def Output.quiet : Output → Bool
  | .callback .. | .commit .. => false
  | _ => true

/-- The call of a request that goes out. -/
def Output.requested : Output → Option Call
  | .request _ call => some call
  | _ => none

/-- A report to a client about its request. -/
def Output.reports : Output → Bool
  | .response _ | .cancelAllOrdersAck _ => true
  | _ => false

/-- An output that has nothing to do with slots, and does not end the process. It is a report only if that
    is said. -/
def Output.ordinary (loud : Bool) : Output → Bool
  | .callback .. | .commit .. | .fatal => false
  | .response _ | .cancelAllOrdersAck _ => loud
  | .request _ call => call.slot = none
  | _ => true

theorem quiet_of_ordinary {loud : Bool} {o : Output} (h : o.ordinary loud = true) : o.quiet = true := by
  cases o <;> first | rfl | cases h

theorem reports_of_ordinary {o : Output} (h : o.ordinary false = true) : o.reports = false := by
  cases o <;> first | rfl | cases h

/-- The calls of the requests that go out. -/
def requested (os : List Output) : List Call := os.filterMap Output.requested

theorem requested_append (os os' : List Output) : requested (os ++ os') = requested os ++ requested os' :=
  List.filterMap_append ..

theorem slot_of_ordinary {loud : Bool} {os : List Output} (h : ∀ o ∈ os, o.ordinary loud = true)
    {call : Call} (hcall : call ∈ requested os) : call.slot = none := by
  obtain ⟨o, ho, heq⟩ := List.mem_filterMap.mp hcall
  have hordinary := h o ho
  cases o with
  | request n call' =>
    obtain rfl := Option.some.inj heq
    simpa [Output.ordinary] using hordinary
  | _ => cases heq

theorem requested_eq_nil {os : List Output} (h : ∀ o ∈ os, o.requested = none) : requested os = [] :=
  List.filterMap_eq_nil_iff.mpr h

theorem requested_singleton {o : Output} (h : o.requested = none) : requested [o] = [] :=
  requested_eq_nil fun _ ho => by rw [List.mem_singleton.mp ho, h]

section
variable {R : LimitRequest} (settings : Settings) {loud : Bool}

/-- What has been put out since the world was `w₀`, and what the world is now, if nothing that has happened
    has to do with slots. Clients have had reports only if that is said. -/
structure Aside (loud : Bool) (w₀ : World R) (out : List Output) (w : World R) : Prop where
  kind_eq : w.stream.kind = w₀.stream.kind
  counter_eq : w.stream.downloadStaleOrdersCounter = w₀.stream.downloadStaleOrdersCounter
  request_eq : w.request = w₀.request
  calls_eq : w.stream.calls = w₀.stream.calls.enterAll (requested out)
  ordinary : ∀ o ∈ out, o.ordinary loud = true

/-- The action has nothing to do with slots. -/
def Tame (loud : Bool) (f : Act R) : Prop := ∀ w₀, Keeps (Aside loud w₀) f

theorem aside_refl (w : World R) : Aside loud w [] w where
  kind_eq := rfl
  counter_eq := rfl
  request_eq := rfl
  calls_eq := rfl
  ordinary _ h := by cases h

theorem Aside.trans {w₀ w w' : World R} {out os : List Output} (h : Aside loud w₀ out w)
    (h' : Aside loud w os w') : Aside loud w₀ (out ++ os) w' where
  kind_eq := h'.kind_eq.trans h.kind_eq
  counter_eq := h'.counter_eq.trans h.counter_eq
  request_eq := h'.request_eq.trans h.request_eq
  calls_eq := by rw [h'.calls_eq, h.calls_eq, requested_append, Ledger.enterAll_append]
  ordinary o ho := (List.mem_append.mp ho).elim (h.ordinary o) (h'.ordinary o)

theorem tame_of_aside {f : Act R} (h : ∀ w, Aside loud w (f w).2 (f w).1) : Tame loud f :=
  fun _ _ w hw => hw.trans (h w)

theorem Tame.aside {f : Act R} (h : Tame loud f) (w : World R) : Aside loud w (f w).2 (f w).1 :=
  h w [] w (aside_refl w)

theorem tame_skip : Tame loud (skip : Act R) := fun _ => keeps_skip _

theorem Tame.seq {f g : Act R} (hf : Tame loud f) (hg : Tame loud g) : Tame loud (seq f g) :=
  fun w₀ => keeps_seq (hf w₀) (hg w₀)

theorem tame_map {α : Type*} {f : α → Act R} {as : List α} (h : ∀ a ∈ as, Tame loud (f a)) :
    Tame loud (seqAll (as.map f)) :=
  fun w₀ => keeps_map fun a ha => h a ha w₀

/-- What the action does in each state is tame. -/
theorem tame_of {f : Act R} (h : ∀ w, ∃ g, Tame loud g ∧ f w = g w) : Tame loud f := by
  intro w₀ out w hw
  obtain ⟨g, hg, heq⟩ := h w
  rw [heq]
  exact hg w₀ out w hw

/-- An action that asks for nothing and touches nothing that slots depend on. -/
theorem tame_of_frame {f : Act R}
    (hstream : ∀ w, (f w).1.stream.kind = w.stream.kind ∧ (f w).1.stream.calls = w.stream.calls ∧
      (f w).1.stream.downloadStaleOrdersCounter = w.stream.downloadStaleOrdersCounter ∧
      (f w).1.request = w.request)
    (houtputs : ∀ w, ∀ o ∈ (f w).2, o.ordinary loud = true ∧ o.requested = none) : Tame loud f := by
  refine tame_of_aside fun w => ?_
  have hnone : requested (f w).2 = [] := requested_eq_nil fun o ho => (houtputs w o ho).2
  obtain ⟨hkind, hcalls, hcounter, hrequest⟩ := hstream w
  refine ⟨hkind, hcounter, hrequest, ?_, fun o ho => (houtputs w o ho).1⟩
  rw [hnone]
  exact hcalls

theorem tame_emit {o : Output} (hordinary : o.ordinary loud = true) (hrequested : o.requested = none) :
    Tame (R := R) loud (emit [o]) :=
  tame_of_frame (fun _ => ⟨rfl, rfl, rfl, rfl⟩) fun _ o' ho' => by
    rw [List.mem_singleton.mp ho']; exact ⟨hordinary, hrequested⟩

theorem tame_modify {f : World R → World R} (h : ∀ w, (f w).stream.kind = w.stream.kind ∧
    (f w).stream.calls = w.stream.calls ∧
    (f w).stream.downloadStaleOrdersCounter = w.stream.downloadStaleOrdersCounter ∧
    (f w).request = w.request) : Tame loud (modify f) :=
  tame_of_frame h fun _ _ ho => by cases ho

/-- A request that no slot has asked for. -/
theorem tame_send (call : Call) (hcall : call.slot = none) : Tame (R := R) loud (send call) :=
  tame_of_aside fun w => {
    kind_eq := rfl
    counter_eq := rfl
    request_eq := rfl
    calls_eq := rfl
    ordinary := fun o ho => by rw [List.mem_singleton.mp ho]; simpa [Output.ordinary] using hcall }

theorem tame_setStatus (status : ConnectionStatus) (reason : String) :
    Tame (R := R) loud (setStatus status reason) :=
  tame_of_frame (fun _ => ⟨rfl, rfl, rfl, rfl⟩) fun _ o ho => by
    rw [List.mem_singleton.mp ho]; exact ⟨rfl, rfl⟩

/-! ### Listen key -/

theorem tame_visit (visits : List State) : Tame (R := R) loud (visit visits) := by
  refine tame_map fun state _ => ?_
  cases state with
  | undefined => exact tame_skip
  | listenKey => exact (tame_setStatus _ _).seq (tame_send _ rfl)
  | done => exact tame_setStatus _ _

theorem tame_listenKeyAck (now : Nanos) (listenKey : String) :
    Tame (R := R) loud (listenKeyAck settings now listenKey) := by
  refine tame_of_frame (fun _ => ⟨rfl, rfl, rfl, rfl⟩) fun w o ho => ?_
  simp only [listenKeyAck, List.mem_cons] at ho
  rcases ho with rfl | ho
  · exact ⟨rfl, rfl⟩
  · split at ho
    · rw [List.mem_singleton.mp ho]; exact ⟨rfl, rfl⟩
    · cases ho

theorem tame_forceListenKeyRefresh (now : Nanos) :
    Tame (R := R) loud (forceListenKeyRefresh now) := by
  refine tame_of fun w => ?_
  unfold forceListenKeyRefresh
  split
  · exact ⟨modify fun w => { w with stream.listenKeyRefresh := now + defaultListenKeyRefreshDelay },
      tame_modify fun _ => ⟨rfl, rfl, rfl, rfl⟩, rfl⟩
  · exact ⟨emit [.noListenKeyRefresh], tame_emit rfl rfl, rfl⟩

theorem tame_refreshListenKey (now : Nanos) :
    Tame (R := R) loud (refreshListenKey settings now) := by
  refine tame_of fun w => ?_
  unfold refreshListenKey
  split
  · exact ⟨skip, tame_skip, rfl⟩
  · have hset : Tame (R := R) loud (modify fun w => { w with
        stream.listenKeyRefresh := now + settings.rest.listenKeyRefresh }) :=
      tame_modify fun _ => ⟨rfl, rfl, rfl, rfl⟩
    exact ⟨_, hset.seq (tame_send .listenKey rfl), rfl⟩

theorem tame_refreshBalance (now : Nanos) : Tame (R := R) loud (refreshBalance settings now) := by
  refine tame_of fun w => ?_
  unfold refreshBalance
  split
  · exact ⟨skip, tame_skip, rfl⟩
  · split
    · exact ⟨skip, tame_skip, rfl⟩
    · have hset : Tame (R := R) loud (modify fun w => { w with
          stream.balanceRefresh := now + settings.misc.pollBalanceFreq }) :=
        tame_modify fun _ => ⟨rfl, rfl, rfl, rfl⟩
      exact ⟨_, hset.seq (tame_send (.accountBalance true) rfl), rfl⟩

/-! ### Orders -/

theorem tame_openOrdersAck (items : List Json.Order) :
    Tame (R := R) loud (openOrdersAck settings items) := by
  refine tame_map fun item _ => ?_
  refine tame_of_frame (fun w => ?_) (fun w o ho => ?_)
  · unfold openOrder
    split
    · exact ⟨rfl, rfl, rfl, rfl⟩
    · exact ⟨rfl, rfl, rfl, rfl⟩
  · unfold openOrder at ho
    split at ho
    · rw [List.mem_singleton.mp ho]; exact ⟨rfl, rfl⟩
    · rcases List.mem_cons.mp ho with rfl | ho
      · exact ⟨rfl, rfl⟩
      · rw [List.mem_singleton.mp ho]; exact ⟨rfl, rfl⟩

theorem tame_orderError (t : Target) (origin : Origin) (status : RequestStatus) (error : Error)
    (text : String) : Tame (R := R) true (orderError t origin status error text) :=
  tame_of_frame (fun _ => ⟨rfl, rfl, rfl, rfl⟩) fun _ o ho => by
    rw [List.mem_singleton.mp ho]; exact ⟨rfl, rfl⟩

theorem tame_orderAck (kind : Kind) (t : Target) (status : RequestStatus) (ack : Json.Order) :
    Tame (R := R) true (orderAck settings kind t status ack) := by
  refine tame_of_frame (fun w => ?_) (fun w o ho => ?_)
  · unfold orderAck
    dsimp only
    split
    · exact ⟨rfl, rfl, rfl, rfl⟩
    · exact ⟨rfl, rfl, rfl, rfl⟩
  · unfold orderAck at ho
    dsimp only at ho
    split at ho
    · rw [List.mem_singleton.mp ho]; exact ⟨rfl, rfl⟩
    · rcases List.mem_cons.mp ho with rfl | ho
      · exact ⟨rfl, rfl⟩
      · rw [List.mem_singleton.mp ho]; exact ⟨rfl, rfl⟩

theorem tame_notReady : Tame (R := R) loud (emit [.throws (.notReady "not ready")]) :=
  tame_emit rfl rfl

theorem tame_sendEncoded {body : Except Exn String} {call : String → Call}
    (hcall : ∀ body, (call body).slot = none) : Tame (R := R) loud (sendEncoded body call) := by
  cases body with
  | ok body => exact tame_send _ (hcall body)
  | error e => exact tame_emit rfl rfl

theorem tame_orderAction {f : Act R} (hf : Tame loud f) : Tame loud (orderAction f) := by
  refine tame_of fun w => ?_
  unfold orderAction
  split
  · exact ⟨emit [.throws (.notSupported "not supported")], tame_emit rfl rfl, rfl⟩
  · exact ⟨f, hf, rfl⟩

theorem tame_orderPlace (m : CreateOrder) (userId : UserId) (body : Except Exn String) :
    Tame (R := R) loud (orderPlace m userId body) := by
  refine tame_of fun w => ?_
  have hset : Tame (R := R) loud (modify fun w => { w with
      stream.openOrdersSymbols := emplace w.stream.openOrdersSymbols m.symbol }) :=
    tame_modify fun _ => ⟨rfl, rfl, rfl, rfl⟩
  unfold orderPlace
  split
  · cases body with
    | ok body =>
      exact ⟨_, hset.seq (tame_send (.orderPlace m.symbol body userId m.orderId 1) rfl), rfl⟩
    | error e => exact ⟨_, hset.seq (tame_emit (o := .refused m.symbol e) rfl rfl), rfl⟩
  · exact ⟨_, tame_notReady, rfl⟩

theorem tame_orderModify (m : ModifyOrder) (userId : UserId) (body : Except Exn String) :
    Tame (R := R) loud (orderModify m userId body) := by
  refine tame_of fun w => ?_
  unfold orderModify
  split
  · exact ⟨_, tame_sendEncoded fun _ => rfl, rfl⟩
  · exact ⟨_, tame_notReady, rfl⟩

theorem tame_orderCancel (m : CancelOrder) (userId : UserId) (body : Except Exn String) :
    Tame (R := R) loud (orderCancel m userId body) := by
  refine tame_of fun w => ?_
  unfold orderCancel
  split
  · exact ⟨_, tame_sendEncoded fun _ => rfl, rfl⟩
  · exact ⟨_, tame_notReady, rfl⟩

theorem tame_openOrdersCancelAll (m : CancelAllOrders) (requestId : String) :
    Tame (R := R) true (openOrdersCancelAll m requestId) := by
  refine tame_of fun w => ⟨_, tame_map fun symbol _ => ?_, rfl⟩
  refine tame_of fun w => ?_
  unfold cancelSymbol
  split
  · exact ⟨_, (tame_send (.allOpenOrders symbol requestId) rfl).seq (tame_emit rfl rfl), rfl⟩
  · exact ⟨skip, tame_skip, rfl⟩

theorem tame_autoCancel (now : Nanos) : Tame (R := R) loud (autoCancel settings now) := by
  refine tame_of fun w => ?_
  have hcountdown : Tame (R := R) loud countdownCancelAll := by
    refine tame_of fun w => ⟨_, tame_map fun symbol _ => ?_, rfl⟩
    exact tame_send _ rfl
  unfold autoCancel
  split
  · have hset : Tame (R := R) loud (modify fun w => { w with
        stream.nextAutoCancel := now + settings.rest.orderCountdown / 4 }) :=
      tame_modify fun _ => ⟨rfl, rfl, rfl, rfl⟩
    exact ⟨_, hset.seq hcountdown, rfl⟩
  · exact ⟨skip, tame_skip, rfl⟩

/-! ### Answers -/

theorem tame_logError (origin : Origin) (status : RequestStatus) (error : Error) (text : String) :
    Tame (R := R) loud (logError origin status error text) := tame_skip

/-- What becomes of a response is tame where both handlers are. -/
theorem tame_processResponse {α : Type} {kind : Kind} {r : RestResponse α} {onError : OnError R}
    {onSuccess : α → Act R}
    (herror : ∀ origin status error text, Tame loud (onError origin status error text))
    (hsuccess : ∀ body, Tame loud (onSuccess body)) {f : Act R}
    (hf : processResponse settings kind r onError onSuccess = some f) : Tame loud f :=
  fun w₀ => keeps_processResponse settings (fun _ => tame_emit rfl rfl w₀)
    (fun origin status error text => herror origin status error text w₀)
    (fun body => hsuccess body w₀) hf

/-- What a callback does at its end, whatever the answer. -/
def closing (kind : Kind) (now : Nanos) : Call → Act R
  | .accountBalance false => commit .balances (.accountBalance false) now
  | .accountStatus => commit .positions .accountStatus now
  | .position => commit .positionsPm .position now
  | .openOrders => commit .openOrders .openOrders now
  | .order clientOrderId => orderAnswered (.order clientOrderId) now
  | .userTrades symbol => commit (tradesSlot kind) (.userTrades symbol) now
  | _ => skip

/-- Clients hear of the answers to their requests. -/
def Call.reports : Call → Bool
  | .orderPlace .. | .orderModify .. | .orderCancel .. | .allOpenOrders .. => true
  | _ => false

/-- Closing a call commits a slot, or is not seen. -/
theorem silent_closing (kind : Kind) (now : Nanos) (call : Call) :
    Silent (fun o => ∀ c call', o ≠ .commit c call') (closing (R := R) kind now call) := by
  have hcommit : ∀ c call', Silent (fun o => ∀ c call', o ≠ .commit c call')
      (commit (R := R) c call' now) := by
    intro c call' w o ho h
    exact h c call' (List.mem_singleton.mp ho)
  cases call with
  | accountBalance polling =>
    cases polling with
    | true => exact silent_skip _
    | false => exact hcommit _ _
  | accountStatus | position | openOrders | userTrades symbol => exact hcommit _ _
  | order clientOrderId =>
    intro w o ho
    simp only [closing, orderAnswered] at ho
    split at ho
    · exact hcommit _ _ _ o ho
    · cases ho
  | listenKey | orderPlace | orderModify | orderCancel | allOpenOrders | countdownCancelAll =>
    exact silent_skip _

/-- An answer ends the process, or is handled tamely and then closes its call. -/
theorem acknowledge_eq (kind : Kind) (env : Answers) (d : Dispatcher) (call : Call)
    (r : RestResponse call.Ack) :
    ∃ reply, acknowledge (R := R) settings kind env d call r = andThen reply (closing kind env.now call) ∧
      ∀ f, reply = some f → Tame call.reports f := by
  have hupdate : ∀ (loud : Bool) (g : World R → OrderUpdate),
      Tame (R := R) loud fun w => (w, [.orderUpdate (g w)]) := fun reports g =>
    tame_of_frame (fun _ => ⟨rfl, rfl, rfl, rfl⟩) fun _ o ho => by
      rw [List.mem_singleton.mp ho]; exact ⟨rfl, rfl⟩
  cases call with
  | listenKey =>
    refine ⟨_, rfl, fun f => tame_processResponse settings (fun _ _ _ _ => ?_) fun listenKey => ?_⟩
    · split
      · exact (tame_emit rfl rfl).seq (tame_visit _)
      · exact tame_skip
    · exact (tame_listenKeyAck settings _ _).seq ((tame_emit rfl rfl).seq
        ((tame_visit _).seq tame_skip))
  | accountBalance polling =>
    cases polling with
    | true => exact ⟨_, rfl, fun f => tame_processResponse settings tame_logError fun _ => tame_skip⟩
    | false => exact ⟨_, rfl, fun f => tame_processResponse settings tame_logError fun _ => tame_skip⟩
  | accountStatus | position | countdownCancelAll symbol =>
    exact ⟨_, rfl, fun f => tame_processResponse settings tame_logError fun _ => tame_skip⟩
  | openOrders =>
    exact ⟨_, rfl, fun f => tame_processResponse settings tame_logError (tame_openOrdersAck settings)⟩
  | order clientOrderId =>
    exact ⟨_, rfl, fun f => tame_processResponse settings (fun _ _ _ _ => hupdate _ _)
      fun _ => hupdate _ _⟩
  | userTrades symbol =>
    refine ⟨_, rfl, fun f => tame_processResponse settings tame_logError fun items => ?_⟩
    refine tame_of_frame (fun _ => ⟨rfl, rfl, rfl, rfl⟩) fun w o ho => ?_
    obtain ⟨item, _, rfl⟩ := List.mem_map.mp ho
    exact ⟨rfl, rfl⟩
  | orderPlace symbol body userId orderId version =>
    exact ⟨_, rfl, fun f => tame_processResponse settings (tame_orderError _) (tame_orderAck settings _ _ _)⟩
  | orderModify body userId orderId version =>
    refine ⟨_, rfl, fun f => tame_processResponse settings (tame_orderError _) fun ack => ?_⟩
    have hfast : Tame (R := R) true (if settings.experimental.disableFastOrderAck then skip
        else orderAck settings kind ⟨.modifyOrder, userId, orderId, version⟩
          ack.status.mapRequestStatus ack) := by
      split
      · exact tame_skip
      · exact tame_orderAck settings _ _ _ _
    split
    all_goals first | exact hfast | exact tame_orderError _ _ _ _ _
  | orderCancel body userId orderId version =>
    refine ⟨_, rfl, fun f => tame_processResponse settings (tame_orderError _) fun ack => ?_⟩
    split
    · exact tame_orderError _ _ _ _ _
    · split
      · exact tame_skip
      · exact tame_orderAck settings _ _ _ _
  | allOpenOrders symbol requestId =>
    refine ⟨_, rfl, fun f => tame_processResponse settings tame_logError fun _ => ?_⟩
    exact tame_of_frame (fun _ => ⟨rfl, rfl, rfl, rfl⟩) fun _ o ho => by
      rw [List.mem_singleton.mp ho]; exact ⟨rfl, rfl⟩

/-- Clients hear of no other answers. -/
theorem silent_acknowledge {kind : Kind} {env : Answers} {d : Dispatcher} {call : Call}
    (hcall : call.reports = false) (r : RestResponse call.Ack) :
    Silent (fun o => o.reports = true) (acknowledge (R := R) settings kind env d call r) := by
  obtain ⟨reply, heq, htame⟩ := acknowledge_eq (R := R) settings kind env d call r
  rw [heq]
  intro w o ho hreports
  cases reply with
  | none =>
    rw [List.mem_singleton.mp ho] at hreports
    cases hreports
  | some f =>
    rcases List.mem_append.mp ho with hreply | hclosing
    · have hordinary := ((htame f rfl).aside w).ordinary o hreply
      rw [hcall] at hordinary
      rw [reports_of_ordinary hordinary] at hreports
      cases hreports
    · refine silent_closing kind env.now call _ o hclosing ?_
      rintro c call' rfl
      cases hreports

/-! ### Events -/

/-- What a timer does before `check_request_queue`. -/
def beforeQueue (now : Nanos) : Kind → Act R
  | .orderEntryClassic => seq (refreshListenKey settings now) (autoCancel settings now)
  | .orderEntryPortfolio => seq (refreshListenKey settings now) (refreshBalance settings now)
  | .restTrade => skip

theorem timer_eq (now : Nanos) (gate : Slot → Bool) (d : Dispatcher) (kind : Kind) :
    timer (R := R) settings now gate d kind
      = seq (beforeQueue settings now kind) (checkRequestQueue settings kind now gate d) := by
  cases kind <;> simp only [timer, beforeQueue, seqAll, seq_skip, skip_seq, seq_assoc]

theorem tame_beforeQueue (loud : Bool) (now : Nanos) (kind : Kind) :
    Tame (R := R) loud (beforeQueue settings now kind) := by
  cases kind with
  | orderEntryClassic => exact (tame_refreshListenKey settings now).seq (tame_autoCancel settings now)
  | orderEntryPortfolio => exact (tame_refreshListenKey settings now).seq (tame_refreshBalance settings now)
  | restTrade => exact tame_skip

/-- A callback of a slot issues requests, and does nothing else that is seen. -/
theorem silent_serve (kind : Kind) (d : Dispatcher) (c : Slot) :
    Silent (fun o => o.requested = none) (serve (R := R) settings kind d c) := by
  have hsend : ∀ call, Silent (fun o => o.requested = none) (send (R := R) call) := by
    intro call w o ho
    rw [List.mem_singleton.mp ho]
    nofun
  cases c with
  | balances | positions | positionsPm | openOrders => exact hsend _
  | staleOrders =>
    refine fun w => silent_seq (silent_map fun key _ => ?_) (fun _ o ho => by cases ho) w
    intro w o ho
    unfold getOrder at ho
    split at ho
    · cases ho
    · exact hsend _ _ o ho
  | trades =>
    have hsymbols : Silent (fun o => o.requested = none)
        (seqAll (settings.download.symbols.map fun symbol => send (R := R) (.userTrades symbol))) := by
      refine silent_map fun symbol _ => ?_
      exact hsend _
    cases kind with
    | restTrade => exact fun _ o ho => by cases ho
    | orderEntryClassic | orderEntryPortfolio => exact hsymbols

/-- What a timer may put out. -/
def Output.timely : Output → Bool
  | .fatal | .commit .. | .response _ | .cancelAllOrdersAck _ => false
  | _ => true

theorem timely_timer (now : Nanos) (gate : Slot → Bool) (d : Dispatcher) (kind : Kind) :
    Silent (fun o => o.timely = false) (timer (R := R) settings now gate d kind) := by
  rw [timer_eq]
  refine silent_seq (fun w o ho => ?_) (silent_map fun c _ => ?_)
  · have hordinary := ((tame_beforeQueue settings false now kind).aside w).ordinary o ho
    cases o <;> first | cases hordinary; done | exact Bool.noConfusion
  · intro w o ho
    unfold checkPending at ho
    dsimp only at ho
    split at ho
    · rcases List.mem_append.mp ho with hserve | hlast
      · have hrequested := silent_serve settings kind d c _ o hserve
        cases o <;> first | exact absurd rfl hrequested | exact Bool.noConfusion
      · rw [List.mem_singleton.mp hlast]
        nofun
    · cases ho

/-- An event that has to do with slots, or with an answer. -/
def Event.slotted : Event → Bool
  | .timer .. | .answer .. => true
  | _ => false

/-- The client hears at once of a request to cancel all orders. -/
def Event.reports : Event → Bool
  | .cancelAllOrders .. => true
  | _ => false

theorem tame_step {e : Event} (he : e.slotted = false) : Tame (R := R) e.reports (step settings e) := by
  cases e with
  | timer | answer => cases he
  | start | stop => exact tame_emit rfl rfl
  | latency => exact tame_skip
  | connected visits =>
    refine tame_of fun w => ⟨connected visits w.stream.kind, ?_, rfl⟩
    cases w.stream.kind with
    | restTrade => exact tame_setStatus _ _
    | orderEntryClassic | orderEntryPortfolio => exact (tame_emit rfl rfl).seq (tame_visit visits)
  | disconnected =>
    refine tame_of fun w => ⟨disconnected w.stream.kind, ?_, rfl⟩
    cases w.stream.kind with
    | restTrade => exact tame_setStatus _ _
    | orderEntryClassic | orderEntryPortfolio => exact (tame_setStatus _ _).seq (tame_emit rfl rfl)
  | createOrder m userId body => exact tame_orderAction (tame_orderPlace m userId body)
  | modifyOrder m userId body => exact tame_orderAction (tame_orderModify m userId body)
  | cancelOrder m userId body => exact tame_orderAction (tame_orderCancel m userId body)
  | cancelAllOrders m requestId => exact tame_openOrdersCancelAll m requestId
  | forceListenKeyRefresh now => exact tame_forceListenKeyRefresh now

/-- What goes out is entered in the ledger. -/
def Entered (w₀ : World R) (out : List Output) (w : World R) : Prop :=
  w.stream.calls = w₀.stream.calls.enterAll (requested out)

theorem entered_of_tame {f : Act R} (hf : Tame loud f) (w₀ : World R) : Keeps (Entered w₀) f := by
  intro out w h
  have haside := hf.aside w
  rw [Entered, haside.calls_eq, h, requested_append, Ledger.enterAll_append]

/-- An action that asks for nothing. -/
theorem entered_of_frame {f : Act R} (hcalls : ∀ w, (f w).1.stream.calls = w.stream.calls)
    (hrequested : ∀ w, ∀ o ∈ (f w).2, o.requested = none) (w₀ : World R) : Keeps (Entered w₀) f := by
  intro out w h
  rw [Entered, hcalls, requested_append, requested_eq_nil (hrequested w), List.append_nil]
  exact h

theorem entered_of_keeps {f : Act R} (h : ∀ w₀, Keeps (Entered w₀) f) (w : World R) :
    Entered w (f w).2 (f w).1 := h w [] w rfl

theorem entered_send (call : Call) (w₀ : World R) : Keeps (Entered w₀) (send call) := by
  intro out w h
  rw [Entered, requested_append, Ledger.enterAll_append, ← h]
  rfl

theorem entered_serve (kind : Kind) (d : Dispatcher) (c : Slot) (w₀ : World R) :
    Keeps (Entered w₀) (serve settings kind d c) := by
  cases c with
  | balances | positions | positionsPm | openOrders => exact entered_send _ w₀
  | staleOrders =>
    intro out w h
    refine keeps_seq (keeps_map fun key _ => ?_)
      (entered_of_frame (fun _ => rfl) (fun _ _ ho => by cases ho) w₀) out w h
    intro out w h
    cases horder : d.findOrderById key.1 key.2 with
    | none => simpa [getOrder, horder] using h
    | some order =>
      have hsend := entered_send (.order order.clientOrderId) w₀ out { w with
        stream.downloadStaleOrdersCounter := w.stream.downloadStaleOrdersCounter + 1 } h
      simpa [getOrder, horder] using hsend
  | trades =>
    cases kind with
    | restTrade => exact entered_of_frame (fun _ => rfl) (fun _ _ ho => by cases ho) w₀
    | orderEntryClassic | orderEntryPortfolio =>
      refine keeps_map fun symbol _ => ?_
      exact entered_send _ w₀

theorem entered_timer (now : Nanos) (gate : Slot → Bool) (d : Dispatcher) (kind : Kind) (w₀ : World R) :
    Keeps (Entered w₀) (timer settings now gate d kind) := by
  rw [timer_eq]
  refine keeps_seq (entered_of_tame (tame_beforeQueue settings false now kind) w₀)
    (keeps_map fun c _ => ?_)
  intro out w h
  unfold checkPending
  dsimp only
  split
  · have hserve := entered_serve settings kind d c w₀ out
      { w with request := w.request.checkPending c now (gate c) } h
    -- what the callback puts out last asks for nothing
    rw [Entered, requested_append] at hserve ⊢
    rw [requested_append, requested_singleton rfl, List.append_nil]
    exact hserve
  · rw [List.append_nil]
    exact h

/-- Whatever goes out on an event other than an answer is entered in the ledger, and nothing leaves it. -/
theorem entered_step {e : Event} (hanswer : ∀ n call r env d, e ≠ .answer n call r env d) (w : World R) :
    Entered w (step settings e w).2 (step settings e w).1 := by
  refine entered_of_keeps (fun w₀ => ?_) w
  cases hslotted : e.slotted with
  | false => exact entered_of_tame (tame_step settings hslotted) w₀
  | true =>
    cases e with
    | answer n call r env d => exact absurd rfl (hanswer n call r env d)
    | timer now refresh gate d =>
      exact keeps_guarded _ fun out w' _ => entered_timer settings now gate d w'.stream.kind w₀ out w'
    | _ => cases hslotted

theorem entered_closing (kind : Kind) (now : Nanos) (call : Call) (w₀ : World R) :
    Keeps (Entered w₀) (closing kind now call) := by
  have hcommit : ∀ c call', Keeps (Entered w₀) (commit c call' now) := fun c call' =>
    entered_of_frame (fun _ => rfl) (fun _ o ho => by rw [List.mem_singleton.mp ho]; rfl) w₀
  cases call with
  | accountBalance polling =>
    cases polling with
    | true => exact keeps_skip _
    | false => exact hcommit _ _
  | accountStatus | position | openOrders | userTrades => exact hcommit _ _
  | order clientOrderId =>
    intro out w h
    simp only [closing, orderAnswered]
    split
    · exact hcommit .staleOrders (.order clientOrderId) out { w with
        stream.downloadStaleOrdersCounter := w.stream.downloadStaleOrdersCounter - 1 } h
    · rw [List.append_nil]
      exact h
  | listenKey | orderPlace | orderModify | orderCancel | allOpenOrders | countdownCancelAll =>
    exact keeps_skip _

/-- Handling an answer enters whatever goes out on it. -/
theorem entered_acknowledge (kind : Kind) (env : Answers) (d : Dispatcher) (call : Call)
    (r : RestResponse call.Ack) (w₀ : World R) :
    Keeps (Entered w₀) (acknowledge settings kind env d call r) := by
  obtain ⟨reply, heq, htame⟩ := acknowledge_eq (R := R) settings kind env d call r
  rw [heq]
  cases reply with
  | none =>
    exact entered_of_frame (fun _ => rfl) (fun _ o ho => by rw [List.mem_singleton.mp ho]; rfl) w₀
  | some f => exact keeps_seq (entered_of_tame (htame f rfl) w₀) (entered_closing kind env.now call w₀)

/-- A client hears of nothing but answers and requests to cancel all orders. -/
theorem silent_step {e : Event} (hanswer : ∀ n call r env d, e ≠ .answer n call r env d)
    (hcancel : e.reports = false) : Silent (fun o => o.reports = true) (step (R := R) settings e) := by
  cases hslotted : e.slotted with
  | false =>
    intro w o ho hreports
    have hordinary := ((tame_step settings hslotted).aside w).ordinary o ho
    rw [hcancel] at hordinary
    rw [reports_of_ordinary hordinary] at hreports
    cases hreports
  | true =>
    cases e with
    | answer n call r env d => exact absurd rfl (hanswer n call r env d)
    | timer now refresh gate d =>
      intro w o ho hreports
      simp only [step, guarded] at ho
      split at ho
      · refine timely_timer settings now gate d _ w o ho ?_
        cases o <;> first | cases hreports; done | rfl
      · cases ho
    | _ => cases hslotted

end

end BinanceFutures.RestStream
