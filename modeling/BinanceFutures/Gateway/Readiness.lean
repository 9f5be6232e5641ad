import BinanceFutures.Gateway.Batches
import BinanceFutures.Schemes.Stages
import BinanceFutures.Schemes.Trace

/-! # Readiness of the order entries over REST

    The order entry is ready once its download is done: it has asked for a listen key and got one.

        Connected ─▶ LISTEN_KEY ─ POST, 200 ─▶ DONE: READY ─▶ orders, slots, refreshes
                         └─ error ─▶ again
        Disconnected: the download is reset

    Before it is ready it asks for nothing but listen keys, except that it cancels open orders at any
    time. While it waits for a listen key, one has been asked for. -/

namespace BinanceFutures.RestStream
open Machine

/-- The stages of `download_`, with what `download` returns for a state. `proc` is `core::Download2` of
    the client library. -/
def downloads : Stages State where
  list := [.listenKey, .done]
  waits
    | .listenKey => true
    | .undefined | .done => false

/-- The download is begun or reset. -/
def Output.begins : Output → Bool
  | .downloadBegin | .downloadReset => true
  | _ => false

def Output.resets : Output → Bool
  | .downloadReset => true
  | _ => false

/-- The stream has been connected since the connection was last lost. -/
def Connected (out : List Output) : Prop := .downloadBegin ∈ Trace.since Output.resets out

/-- A listen key has been acknowledged since the download was last begun or reset. -/
def Acquired (out : List Output) : Prop :=
  ∃ listenKey, .listenKeyAck listenKey ∈ Trace.since Output.begins out

/-- What it takes to be ready. -/
def Established (out : List Output) : Prop := Connected out ∧ Acquired out

/-- The calls that may go out before. -/
def Call.early : Call → Bool
  | .listenKey | .allOpenOrders .. => true
  | _ => false

/-- The stream says that it is ready, and makes its calls, after a listen key has been acknowledged. -/
def Entitled (out : List Output) : Output → Prop
  | .streamStatus .ready _ => Established out
  | .request _ call => call.early = true ∨ Established out
  | _ => True

section
variable {R : LimitRequest} (settings : Settings) (proc : Stages.Procedure State)

/-- An order entry with its download. -/
structure Loading (R : LimitRequest) where
  world : World R
  download : Option State := none

/-- What an answer to `get_listen_key` asks of the download. -/
def replied (kind : Kind) (downloading : Bool) (r : RestResponse String) :
    Option (Stages.Request State) :=
  match r.verdict settings kind with
  | .succeeds _ => some (.checkRelaxed .listenKey)
  | .fails .. => if downloading then some (.retry .listenKey) else none
  | .ends => none

/-- What a turn asks of the download. -/
def asked (s : Loading R) : Turn → Option (Stages.Request State)
  | .own (.connected _) => some .begin
  | .own .disconnected => some .reset
  | .own (.answer n .listenKey r _ _) =>
    if s.world.stream.calls.entries.contains (n, .listenKey) then
      replied settings s.world.stream.kind s.download.isSome r
    else none
  | _ => none

/-- The turn with the download's answers. -/
def Turn.answering (downloading : Bool) (visits : List State) : Turn → Turn
  | .own (.connected _) => .own (.connected visits)
  | .own (.answer n call r env d) => .own (.answer n call r { env with downloading, visits } d)
  | e => e

/-- The download afterwards, and the states for which it calls back. -/
def advanced (again : Bool) (current : Option State) :
    Option (Stages.Request State) → Option State × List State
  | some request => proc.ask downloads again current request
  | none => (current, [])

/-- The listen key is the first stage, and a download that waits for it is done when it is checked. -/
theorem advanced_begin (again : Bool) (current : Option State) :
    advanced proc again current (some .begin) = (some .listenKey, [.listenKey]) :=
  proc.ask_begin ..

theorem advanced_check (again : Bool) (current : Option State) :
    advanced proc again current (some (.checkRelaxed .listenKey))
      = if current = some .listenKey then (none, [.done]) else (current, []) :=
  proc.ask_checkRelaxed ..

theorem advanced_retry (again : Bool) (current : Option State) :
    advanced proc again current (some (.retry .listenKey))
      = if again then (some .listenKey, [.listenKey]) else (current, []) :=
  proc.ask_retry ..

theorem advanced_reset (again : Bool) (current : Option State) :
    advanced proc again current (some .reset) = (none, []) :=
  proc.ask_reset ..

/-- A turn of the stream with its download, and with what the download makes of a retry. -/
def loadTurn (e : Turn × Bool) : Action (Loading R) Output := fun s =>
  let (download, visits) := advanced proc e.2 s.download (asked settings s e.1)
  let (world, out) := turn settings (e.1.answering s.download.isSome visits) s.world
  ({ world, download }, out)

/-! ### Actions that leave the status alone -/

/-- The output is not about the download or its listen key. -/
def Output.aside : Output → Bool
  | .downloadBegin | .downloadReset | .listenKeyAck _ => false
  | _ => true

/-- Nor is it about the status, and only calls of these go out. -/
def Output.steady (p : Call → Bool) : Output → Bool
  | .request _ call => p call
  | .streamStatus .. => false
  | o => o.aside

theorem aside_of_steady {p : Call → Bool} {o : Output} (h : o.steady p = true) : o.aside = true := by
  cases o <;> first | rfl | exact h

/-- What an action has done that leaves the status alone. -/
structure Unmoved (p : Call → Bool) (w₀ : World R) (out : List Output) (w : World R) : Prop where
  kind_eq : w.stream.kind = w₀.stream.kind
  status_eq : w.stream.connectionStatus = w₀.stream.connectionStatus
  steady : ∀ o ∈ out, o.steady p = true

/-- An action that leaves the status alone. -/
def Calls (p : Call → Bool) (f : Act R) : Prop := ∀ w₀, Keeps (Unmoved p w₀) f

variable {settings} {p : Call → Bool}

theorem calls_of_frame {f : Act R}
    (h : ∀ w, (f w).1.stream.kind = w.stream.kind ∧
      (f w).1.stream.connectionStatus = w.stream.connectionStatus ∧ ∀ o ∈ (f w).2, o.steady p = true) :
    Calls p f := by
  intro w₀ out w hw
  obtain ⟨hkind, hstatus, hout⟩ := h w
  exact ⟨hkind.trans hw.kind_eq, hstatus.trans hw.status_eq,
    fun o ho => (List.mem_append.mp ho).elim (hw.steady o) (hout o)⟩

theorem calls_skip : Calls p (skip : Act R) := fun _ => keeps_skip _

theorem Calls.seq {f g : Act R} (hf : Calls p f) (hg : Calls p g) : Calls p (seq f g) :=
  fun w₀ => keeps_seq (hf w₀) (hg w₀)

theorem calls_map {α : Type*} {f : α → Act R} {as : List α} (h : ∀ a ∈ as, Calls p (f a)) :
    Calls p (seqAll (as.map f)) :=
  fun w₀ => keeps_map fun a ha => h a ha w₀

/-- What the action does in each state is one that leaves the status alone. -/
theorem calls_of {f : Act R} (h : ∀ w, ∃ g, Calls p g ∧ f w = g w) : Calls p f :=
  fun w₀ => keeps_of_eq fun w => (h w).imp fun _ hg => ⟨hg.2, hg.1 w₀⟩

theorem calls_emit {o : Output} (h : o.steady p = true) : Calls (R := R) p (emit [o]) :=
  calls_of_frame fun w => ⟨rfl, rfl, by simpa using h⟩

theorem calls_send {call : Call} (h : p call = true) : Calls (R := R) p (send call) :=
  calls_of_frame fun w => ⟨rfl, rfl, by simpa [send, Output.steady] using h⟩

theorem calls_commit (c : Slot) (call : Call) (now : Nanos) : Calls (R := R) p (commit c call now) :=
  calls_of_frame fun w => ⟨rfl, rfl, by simp [commit, Output.steady, Output.aside]⟩

theorem calls_reply {α : Type} {kind : Kind} {r : RestResponse α} {onError : OnError R}
    {onSuccess : α → Act R} {after : Act R}
    (herror : ∀ origin status error text, Calls p (onError origin status error text))
    (hsuccess : ∀ body, Calls p (onSuccess body)) (hafter : Calls p after) :
    Calls p (andThen (processResponse settings kind r onError onSuccess) after) := by
  intro w₀
  cases hreply : processResponse settings kind r onError onSuccess with
  | none => exact calls_emit rfl w₀
  | some f =>
    exact keeps_seq (keeps_processResponse settings (fun _ => calls_emit rfl w₀)
      (fun origin status error text => herror origin status error text w₀)
      (fun body => hsuccess body w₀) hreply) (hafter w₀)

theorem calls_logError (origin : Origin) (status : RequestStatus) (error : Error) (text : String) :
    Calls p (logError (R := R) origin status error text) := calls_skip

/-- What becomes of an answer, if it is not about a listen key. -/
theorem calls_acknowledge (kind : Kind) (env : Answers) (d : Dispatcher) (call : Call)
    (r : RestResponse call.Ack) (hcall : call ≠ .listenKey) :
    Calls (R := R) p (acknowledge settings kind env d call r) := by
  have herror : ∀ t, ∀ origin status error text,
      Calls (R := R) p (orderError t origin status error text) := fun t origin status error text =>
    calls_of_frame fun w => ⟨rfl, rfl, by simp [orderError, Output.steady, Output.aside]⟩
  have hack : ∀ t status ack, Calls (R := R) p (orderAck settings kind t status ack) := by
    intro t status ack
    refine calls_of_frame fun w => ?_
    unfold orderAck
    dsimp only
    split <;> exact ⟨rfl, rfl, by simp [Output.steady, Output.aside]⟩
  have hskip : ∀ a : Unit, Calls p (skip : Act R) := fun _ => calls_skip
  cases call with
  | listenKey => exact absurd rfl hcall
  | accountBalance polling =>
    refine calls_reply calls_logError hskip ?_
    cases polling with
    | true => exact calls_skip
    | false => exact calls_commit _ _ _
  | accountStatus | position => exact calls_reply calls_logError hskip (calls_commit _ _ _)
  | openOrders =>
    refine calls_reply calls_logError (fun items => calls_map fun item _ => ?_) (calls_commit _ _ _)
    refine calls_of_frame fun w => ?_
    unfold openOrder
    split <;> exact ⟨rfl, rfl, by simp [Output.steady, Output.aside]⟩
  | order clientOrderId =>
    have hupdate : ∀ g : World R → OrderUpdate, Calls (R := R) p fun w => (w, [.orderUpdate (g w)]) :=
      fun g => calls_of_frame fun w => ⟨rfl, rfl, by simp [Output.steady, Output.aside]⟩
    refine calls_reply (fun _ _ error text => hupdate _) (fun item => hupdate _) ?_
    refine calls_of_frame fun w => ?_
    unfold orderAnswered
    dsimp only
    split <;> exact ⟨rfl, rfl, by simp [commit, Output.steady, Output.aside]⟩
  | userTrades symbol =>
    refine calls_reply calls_logError (fun items => ?_) (calls_commit _ _ _)
    refine calls_of_frame fun w => ⟨rfl, rfl, fun o ho => ?_⟩
    obtain ⟨item, -, rfl⟩ := List.mem_map.mp ho
    rfl
  | orderPlace symbol body userId orderId version =>
    exact calls_reply (herror _) (fun ack => hack _ _ ack) calls_skip
  | orderModify body userId orderId version =>
    refine calls_reply (herror _) (fun ack => ?_) calls_skip
    have hfast : Calls (R := R) p (if settings.experimental.disableFastOrderAck then skip
        else orderAck settings kind ⟨.modifyOrder, userId, orderId, version⟩
          ack.status.mapRequestStatus ack) := by
      split
      · exact calls_skip
      · exact hack _ _ _
    split
    all_goals first | exact hfast | exact herror _ _ _ _ _
  | orderCancel body userId orderId version =>
    refine calls_reply (herror _) (fun ack => ?_) calls_skip
    split
    · exact herror _ _ _ _ _
    · split
      · exact calls_skip
      · exact hack _ _ _
  | allOpenOrders symbol requestId =>
    refine calls_reply calls_logError (fun ack => ?_) calls_skip
    exact calls_of_frame fun w => ⟨rfl, rfl, by simp [Output.steady, Output.aside]⟩
  | countdownCancelAll symbol => exact calls_reply calls_logError hskip calls_skip

/-- Any call may go out. -/
abbrev anyCall (_ : Call) : Bool := true

/-- No calls at all. -/
abbrev noCall (_ : Call) : Bool := false

variable (settings)

theorem calls_serve (kind : Kind) (d : Dispatcher) (c : Slot) :
    Calls (R := R) anyCall (serve settings kind d c) := by
  cases c with
  | balances | positions | positionsPm | openOrders => exact calls_send rfl
  | staleOrders =>
    have hcount : Calls (R := R) anyCall (modify fun w => { w with
        stream.downloadStaleOrdersCounter := w.stream.downloadStaleOrdersCounter + 1 }) :=
      calls_of_frame fun w => ⟨rfl, rfl, by simp⟩
    have hclear : Calls (R := R) anyCall (modify fun w => { w with request.detailsStaleOrders := [] }) :=
      calls_of_frame fun w => ⟨rfl, rfl, by simp⟩
    intro w₀ out w
    refine keeps_seq (keeps_map fun key _ => keeps_of_eq fun w => ?_) (hclear w₀) out w
    unfold getOrder
    cases horder : d.findOrderById key.1 key.2 with
    | none => exact ⟨skip, rfl, keeps_skip _⟩
    | some order =>
      have hsend : Calls (R := R) anyCall (send (.order order.clientOrderId)) := calls_send rfl
      exact ⟨_, rfl, keeps_seq (hcount w₀) (hsend w₀)⟩
  | trades =>
    cases kind with
    | restTrade => exact calls_of_frame fun w => ⟨rfl, rfl, by simp [serve, getTrades]⟩
    | orderEntryClassic | orderEntryPortfolio => exact calls_map fun symbol _ => calls_send rfl

theorem calls_timer (now : Nanos) (gate : Slot → Bool) (d : Dispatcher) (kind : Kind) :
    Calls (R := R) anyCall (timer settings now gate d kind) := by
  have hrefresh : Calls (R := R) anyCall (refreshListenKey settings now) := by
    refine calls_of_frame fun w => ?_
    unfold refreshListenKey
    split <;> exact ⟨rfl, rfl, by simp [getListenKey, send, Output.steady, Output.aside]⟩
  have hcancel : Calls (R := R) anyCall (autoCancel settings now) := by
    refine fun w₀ => keeps_of_eq fun w => ?_
    unfold autoCancel
    split
    · refine ⟨Machine.seq (modify fun w => { w with
        stream.nextAutoCancel := now + settings.rest.orderCountdown / 4 }) countdownCancelAll, rfl, ?_⟩
      refine keeps_seq (calls_of_frame (fun w => ⟨rfl, rfl, by simp⟩) w₀) ?_
      refine keeps_of_eq fun w => ⟨seqAll (w.stream.openOrdersSymbols.map fun symbol =>
        send (.countdownCancelAll symbol)), rfl, ?_⟩
      exact calls_map (fun symbol _ => calls_send rfl) w₀
    · exact ⟨skip, rfl, keeps_skip _⟩
  have hbalance : Calls (R := R) anyCall (refreshBalance settings now) := by
    refine calls_of_frame fun w => ?_
    unfold refreshBalance
    split
    · exact ⟨rfl, rfl, by simp⟩
    · split <;> exact ⟨rfl, rfl, by simp [send, Output.steady, Output.aside]⟩
  have hqueue : Calls (R := R) anyCall (checkRequestQueue settings kind now gate d) := by
    refine calls_map fun c _ => fun w₀ out w hw => ?_
    unfold checkPending
    dsimp only
    split
    · have hserve := calls_serve settings kind d c w₀ out
        { w with request := w.request.checkPending c now (gate c) } ⟨hw.kind_eq, hw.status_eq, hw.steady⟩
      rw [← List.append_assoc]
      refine ⟨hserve.kind_eq, hserve.status_eq, fun o ho => ?_⟩
      rcases List.mem_append.mp ho with hbefore | hlast
      · exact hserve.steady o hbefore
      · rw [List.mem_singleton.mp hlast]
        rfl
    · rw [List.append_nil]
      exact ⟨hw.kind_eq, hw.status_eq, hw.steady⟩
  cases kind with
  | orderEntryClassic => exact hrefresh.seq (hcancel.seq (hqueue.seq calls_skip))
  | orderEntryPortfolio => exact hrefresh.seq (hbalance.seq (hqueue.seq calls_skip))
  | restTrade => exact hqueue

/-! ### Turns -/

theorem begins_of_aside {o : Output} (h : o.aside = true) : o.begins = false := by
  cases o <;> first | rfl | cases h

theorem connected_append {out os : List Output} (h : ∀ o ∈ os, o.begins = false) :
    Connected (out ++ os) ↔ Connected out := by
  have hresets : ∀ o ∈ os, o.resets = false := fun o ho => by
    have hbegins := h o ho
    cases o <;> first | rfl | cases hbegins
  unfold Connected
  rw [Trace.since_append hresets, List.mem_append]
  refine or_iff_left fun hmem => ?_
  have hbegins := h _ hmem
  cases hbegins

theorem acquired_append {out os : List Output} (h : ∀ o ∈ os, o.aside = true) :
    Acquired (out ++ os) ↔ Acquired out := by
  unfold Acquired
  refine exists_congr fun listenKey => ?_
  rw [Trace.since_append fun o ho => begins_of_aside (h o ho), List.mem_append]
  refine or_iff_left fun hmem => ?_
  have haside := h _ hmem
  cases haside

theorem established_append {out os : List Output} (h : ∀ o ∈ os, o.aside = true) :
    Established (out ++ os) ↔ Established out :=
  and_congr (connected_append fun o ho => begins_of_aside (h o ho)) (acquired_append h)

theorem waiting_append {out os : List Output} (h : ∀ o ∈ os, o.aside = true) :
    (Connected (out ++ os) ∧ ¬Acquired (out ++ os)) ↔ Connected out ∧ ¬Acquired out :=
  and_congr (connected_append fun o ho => begins_of_aside (h o ho)) (not_congr (acquired_append h))

/-- An order entry is ready as what has been put out says, and its download waits for the listen key. -/
structure Tracked (out : List Output) (s : Loading R) : Prop where
  kind_ne : s.world.stream.kind ≠ .restTrade
  ready_iff : s.world.stream.connectionStatus = .ready ↔ Established out
  download_cases : s.download = none ∨ s.download = some .listenKey
  waiting_iff : s.download = some .listenKey ↔ Connected out ∧ ¬Acquired out
  entitled : Trace.Each Entitled out

variable {settings} {proc} {out os : List Output} {s : Loading R} {w' : World R}

/-- What leaves the status alone makes the calls that may be made. -/
theorem Tracked.unmoved (h : Tracked out s)
    (hp : ∀ call, p call = true → call.early = true ∨ s.world.stream.connectionStatus = .ready)
    (hw : Unmoved p s.world os w') : Tracked (out ++ os) { s with world := w' } := by
  have haside : ∀ o ∈ os, o.aside = true := fun o ho => aside_of_steady (hw.steady o ho)
  refine ⟨hw.kind_eq ▸ h.kind_ne, ?_, h.download_cases, ?_, ?_⟩
  · rw [established_append haside, ← h.ready_iff]
    exact iff_of_eq (congrArg (· = ConnectionStatus.ready) hw.status_eq)
  · rw [waiting_append haside]
    exact h.waiting_iff
  · refine Trace.each_while (Q := fun o => o.aside = true) h.entitled haside fun more hmore o ho => ?_
    have hsteady := hw.steady o ho
    cases o with
    | request n call =>
      refine (hp call hsteady).imp_right fun hready => ?_
      exact (established_append hmore).mpr (h.ready_iff.mp hready)
    | streamStatus => cases hsteady
    | _ => trivial

theorem unmoved_of_calls {f : Act R} (hf : Calls p f) (w : World R) : Unmoved p w (f w).2 (f w).1 :=
  hf w [] w ⟨rfl, rfl, by simp⟩

theorem Unmoved.mono {p' : Call → Bool} {w : World R} (h : Unmoved p w os w')
    (hp : ∀ call, p call = true → p' call = true) : Unmoved p' w os w' := by
  refine ⟨h.kind_eq, h.status_eq, fun o ho => ?_⟩
  have hsteady := h.steady o ho
  cases o with
  | request n call => exact hp call hsteady
  | _ => exact hsteady

/-- The calls that may go out in the state. -/
def World.allows (w : World R) (call : Call) : Bool := call.early || isReady w

/-- An action of a stream that is ready. -/
theorem unmoved_whenReady {f : Act R} (hf : Calls anyCall f) (e : Exn) (w : World R) :
    let g : Act R := fun w => if isReady w then f w else (w, [.throws e])
    Unmoved w.allows w (g w).2 (g w).1 := by
  intro g
  simp only [g]
  split
  next hready =>
    exact (unmoved_of_calls hf w).mono fun call _ => by simp [World.allows, hready]
  next => exact unmoved_of_calls (calls_emit rfl) w

theorem unmoved_orderAction {f : Act R} {w : World R} (hf : Unmoved w.allows w (f w).2 (f w).1) :
    Unmoved w.allows w (orderAction f w).2 (orderAction f w).1 := by
  unfold orderAction
  split
  · exact unmoved_of_calls (calls_emit rfl) w
  · exact hf

theorem calls_sendEncoded (body : Except Exn String) (call : String → Call) :
    Calls (R := R) anyCall (sendEncoded body call) := by
  cases body with
  | ok body => exact calls_send rfl
  | error e => exact calls_emit rfl

theorem unmoved_orderPlace (m : CreateOrder) (userId : UserId) (body : Except Exn String) (w : World R) :
    Unmoved w.allows w (orderPlace m userId body w).2 (orderPlace m userId body w).1 := by
  have hplace : ∀ call, Calls (R := R) anyCall fun w => send call
      { w with stream.openOrdersSymbols := emplace w.stream.openOrdersSymbols m.symbol } := fun call =>
    calls_of_frame fun w => ⟨rfl, rfl, by simp [send, Output.steady, Output.aside]⟩
  have hrefused : ∀ e, Calls (R := R) anyCall fun w =>
      ({ w with stream.openOrdersSymbols := emplace w.stream.openOrdersSymbols m.symbol },
        [.refused m.symbol e]) := fun e =>
    calls_of_frame fun w => ⟨rfl, rfl, by simp [Output.steady, Output.aside]⟩
  cases body with
  | ok body => exact unmoved_whenReady (hplace _) _ w
  | error e => exact unmoved_whenReady (hrefused e) _ w

theorem calls_openOrdersCancelAll (m : CancelAllOrders) (requestId : String) :
    Calls (R := R) Call.early (openOrdersCancelAll m requestId) := by
  refine calls_of fun w => ⟨_, calls_map fun symbol _ => ?_, rfl⟩
  refine calls_of_frame fun w => ?_
  unfold cancelSymbol
  split <;> exact ⟨rfl, rfl, by simp [Machine.seq, send, emit, Output.steady, Output.aside, Call.early]⟩

/-- The download has nothing to do with the turn. -/
def Turn.plain : Turn → Bool
  | .own (.connected _) | .own .disconnected | .own (.answer ..) => false
  | _ => true

theorem unmoved_plain {e : Turn} (he : e.plain = true) (w : World R) :
    Unmoved w.allows w (turn settings e w).2 (turn settings e w).1 := by
  cases e with
  | own e =>
    cases e with
    | connected | disconnected | answer => cases he
    | start | stop => exact unmoved_of_calls (calls_emit rfl) w
    | latency => exact unmoved_of_calls calls_skip w
    | timer now refresh gate d =>
      simp only [turn, step, guarded]
      split
      next hready =>
        obtain ⟨-, hready⟩ : refresh = true ∧ isReady w = true := by simpa using hready
        exact (unmoved_of_calls (calls_timer settings now gate d w.stream.kind) w).mono
          fun call _ => by simp [World.allows, hready]
      next => exact unmoved_of_calls calls_skip w
    | createOrder m userId body => exact unmoved_orderAction (unmoved_orderPlace m userId body w)
    | modifyOrder m userId body | cancelOrder m userId body =>
      exact unmoved_orderAction (unmoved_whenReady (calls_sendEncoded body _) _ w)
    | cancelAllOrders m requestId =>
      exact (unmoved_of_calls (calls_openOrdersCancelAll m requestId) w).mono
        fun call hearly => by simp [World.allows, hearly]
    | forceListenKeyRefresh now =>
      simp only [turn, step, forceListenKeyRefresh]
      split <;> exact ⟨rfl, rfl, by simp [Output.steady, Output.aside]⟩
  | requested c now | stale details => exact ⟨rfl, rfl, by simp [turn]⟩
  | otherServed c gate now | otherCommitted c now =>
    simp only [turn]
    split <;> exact ⟨rfl, rfl, by simp⟩

theorem loadTurn_plain {e : Turn} (he : e.plain = true) (again : Bool) (s : Loading R) :
    loadTurn settings proc (e, again) s =
      ({ s with world := (turn settings e s.world).1 }, (turn settings e s.world).2) := by
  cases e with
  | own e =>
    cases e with
    | connected | disconnected | answer => cases he
    | _ => rfl
  | _ => rfl

theorem tracked_plain {e : Turn} (he : e.plain = true) (again : Bool) (h : Tracked out s) :
    Tracked (out ++ (loadTurn settings proc (e, again) s).2) (loadTurn settings proc (e, again) s).1 := by
  rw [loadTurn_plain he]
  refine h.unmoved (fun call hcall => ?_) (unmoved_plain he s.world)
  simpa [World.allows, isReady] using hcall

/-! ### Connections -/

theorem loadTurn_connected (hkind : s.world.stream.kind ≠ .restTrade) (again : Bool)
    (visits : List State) : loadTurn settings proc (.own (.connected visits), again) s =
      ({ world := (visit [.listenKey] s.world).1, download := some .listenKey },
        [.downloadBegin] ++ (visit [.listenKey] s.world).2) := by
  simp only [loadTurn, asked, advanced_begin, Turn.answering, turn, step]
  cases hcase : s.world.stream.kind with
  | restTrade => exact absurd hcase hkind
  | orderEntryClassic | orderEntryPortfolio => rfl

theorem tracked_connected (again : Bool) (visits : List State) (h : Tracked out s) :
    let s' := loadTurn settings proc (.own (.connected visits), again) s
    Tracked (out ++ s'.2) s'.1 := by
  have haside : ∀ o ∈ (visit [.listenKey] s.world).2, o.aside = true := by
    simp [visit, download, setStatus, getListenKey, send, Machine.seq, seqAll, Machine.skip, Output.aside]
  have hconnected : Connected (out ++ [.downloadBegin]) := by
    unfold Connected
    rw [Trace.since_append (by simp [Output.resets])]
    simp
  have hacquired : ¬Acquired (out ++ [.downloadBegin]) := by
    unfold Acquired
    rw [Trace.since_mark rfl]
    simp
  rw [loadTurn_connected h.kind_ne]
  dsimp only
  rw [← List.append_assoc]
  refine ⟨h.kind_ne, ?_, Or.inr rfl, ?_, ?_⟩
  · rw [established_append haside]
    exact iff_of_false (by rintro ⟨⟩) fun hestablished => hacquired hestablished.2
  · rw [waiting_append haside]
    exact iff_of_true rfl ⟨hconnected, hacquired⟩
  · refine Trace.each_append (Trace.each_concat h.entitled trivial) fun pre o ho => ?_
    have hos : o ∈ [Output.streamStatus .downloading "LISTEN_KEY",
      .request s.world.stream.calls.next .listenKey] := ho
    simp only [List.mem_cons, List.not_mem_nil, or_false] at hos
    rcases hos with rfl | rfl
    · trivial
    · exact Or.inl rfl

theorem tracked_disconnected (again : Bool) (h : Tracked out s) :
    let s' := loadTurn settings proc (.own .disconnected, again) s
    Tracked (out ++ s'.2) s'.1 := by
  have hstep : loadTurn settings proc (.own .disconnected, again) s =
      ({ world := (setStatus .disconnected "" s.world).1 },
        [.streamStatus .disconnected ""] ++ [.downloadReset]) := by
    have hkind := h.kind_ne
    simp only [loadTurn, asked, advanced_reset, Turn.answering, turn, step]
    cases hcase : s.world.stream.kind with
    | restTrade => exact absurd hcase hkind
    | orderEntryClassic | orderEntryPortfolio => rfl
  have hconnected : ¬Connected (out ++ [.streamStatus .disconnected ""] ++ [.downloadReset]) := by
    unfold Connected
    rw [Trace.since_mark rfl]
    simp
  rw [hstep]
  dsimp only
  rw [← List.append_assoc]
  refine ⟨h.kind_ne, iff_of_false (by rintro ⟨⟩) fun hestablished => hconnected hestablished.1,
    Or.inl rfl, iff_of_false (by rintro ⟨⟩) fun hwaiting => hconnected hwaiting.1, ?_⟩
  exact Trace.each_concat (Trace.each_concat h.entitled trivial) trivial

/-! ### Answers -/

/-- A listen key is refused while the download waits for it. -/
structure Stalled (w₀ : World R) (out : List Output) (w : World R) : Prop where
  kind_eq : w.stream.kind = w₀.stream.kind
  status_eq : w.stream.connectionStatus = w₀.stream.connectionStatus ∨
    w.stream.connectionStatus = .downloading
  aside : ∀ o ∈ out, o.aside = true
  entitled : ∀ pre, ∀ o ∈ out, Entitled pre o

theorem stalled_emit {os : List Output} (haside : ∀ o ∈ os, o.aside = true)
    (hentitled : ∀ pre, ∀ o ∈ os, Entitled pre o) (w₀ : World R) : Keeps (Stalled w₀) (emit os) := by
  intro out w h
  refine ⟨h.kind_eq, h.status_eq, fun o ho => ?_, fun pre o ho => ?_⟩
  · exact (List.mem_append.mp ho).elim (h.aside o) (haside o)
  · exact (List.mem_append.mp ho).elim (h.entitled pre o) (hentitled pre o)

theorem stalled_download (w₀ : World R) : Keeps (Stalled w₀) (download .listenKey) := by
  intro out w h
  let os : List Output :=
    [.streamStatus .downloading "LISTEN_KEY", .request w.stream.calls.next .listenKey]
  have haside : ∀ o ∈ os, o.aside = true := by simp [os, Output.aside]
  have hentitled : ∀ pre, ∀ o ∈ os, Entitled pre o := by
    intro pre o ho
    simp only [os, List.mem_cons, List.not_mem_nil, or_false] at ho
    rcases ho with rfl | rfl
    · trivial
    · exact Or.inl rfl
  have hasked := stalled_emit haside hentitled w₀ out w h
  exact ⟨h.kind_eq, Or.inr rfl, hasked.aside, hasked.entitled⟩

theorem Tracked.stalled (h : Tracked out s) (hs : s.download = some .listenKey)
    (hw : Stalled s.world os w') : Tracked (out ++ os) { s with world := w' } := by
  have hnot : ¬Established out := fun hestablished => (h.waiting_iff.mp hs).2 hestablished.2
  refine ⟨hw.kind_eq ▸ h.kind_ne, ?_, h.download_cases, ?_, Trace.each_append h.entitled hw.entitled⟩
  · rw [established_append hw.aside]
    refine iff_of_false (fun hready => ?_) hnot
    rcases hw.status_eq with hstatus | hstatus
    · exact hnot (h.ready_iff.mp (hstatus.symm.trans hready))
    · cases hstatus.symm.trans hready
  · rw [waiting_append hw.aside]
    exact h.waiting_iff

/-- A listen key is refused, and the download tries again. -/
def retry (env : Answers) : Act R :=
  if env.downloading then seq (emit [.downloadRetry .listenKey]) (visit env.visits) else skip

theorem getListenKeyAck_ends {kind : Kind} {r : RestResponse String}
    (hverdict : r.verdict settings kind = .ends) (env : Answers) :
    getListenKeyAck (R := R) settings kind r env = emit [.fatal] := by
  obtain ⟨pre, -, heq⟩ := processResponse_eq (R := R) settings kind r (fun _ _ _ _ => retry env)
    fun listenKey => seqAll [listenKeyAck settings env.now listenKey,
      emit [.downloadCheckRelaxed .listenKey], visit env.visits]
  rw [hverdict] at heq
  exact congrArg (andThen · skip) heq

theorem getListenKeyAck_fails {kind : Kind} {r : RestResponse String} {origin : Origin}
    {status : RequestStatus} {error : Error} {text : String}
    (hverdict : r.verdict settings kind = .fails origin status error text) (env : Answers) :
    ∃ pre : List Output, (∀ o ∈ pre, ∃ t, o = .suspendFor t) ∧
      getListenKeyAck (R := R) settings kind r env = seq (emit pre) (retry env) := by
  obtain ⟨pre, hpre, heq⟩ := processResponse_eq (R := R) settings kind r (fun _ _ _ _ => retry env)
    fun listenKey => seqAll [listenKeyAck settings env.now listenKey,
      emit [.downloadCheckRelaxed .listenKey], visit env.visits]
  rw [hverdict] at heq
  exact ⟨pre, hpre, (congrArg (andThen · skip) heq).trans (seq_skip _)⟩

theorem tracked_ends (again : Bool) (kind : Kind) {r : RestResponse String} (env : Answers)
    (hverdict : r.verdict settings kind = .ends) {current : Option State} {w : World R}
    (h : Tracked out ⟨w, current⟩) :
    let next := advanced proc again current (replied settings kind current.isSome r)
    let f : Act R := getListenKeyAck settings kind r
      { env with downloading := current.isSome, visits := next.2 }
    Tracked (out ++ (f w).2) ⟨(f w).1, next.1⟩ := by
  intro next f
  have hnext : next = (current, []) := by simp [next, replied, hverdict, advanced]
  simp only [f, getListenKeyAck_ends hverdict, hnext]
  exact h.unmoved (p := noCall) (fun call hcall => by cases hcall) (unmoved_of_calls (calls_emit rfl) w)

theorem tracked_fails (again : Bool) (kind : Kind) {r : RestResponse String} (env : Answers)
    {origin : Origin} {status : RequestStatus} {error : Error} {text : String}
    (hverdict : r.verdict settings kind = .fails origin status error text) {current : Option State}
    {w : World R} (h : Tracked out ⟨w, current⟩) :
    let next := advanced proc again current (replied settings kind current.isSome r)
    let f : Act R := getListenKeyAck settings kind r
      { env with downloading := current.isSome, visits := next.2 }
    Tracked (out ++ (f w).2) ⟨(f w).1, next.1⟩ := by
  intro next f
  obtain ⟨pre, hpre, hf⟩ := getListenKeyAck_fails (R := R) hverdict
    { env with downloading := current.isSome, visits := next.2 }
  simp only [f, hf]
  obtain rfl | rfl : current = none ∨ current = some .listenKey := h.download_cases
  · have hnext : next = (none, []) := by simp [next, replied, hverdict, advanced]
    have hsuspend : Calls (R := R) noCall (emit pre) := by
      refine calls_of_frame fun w => ⟨rfl, rfl, fun o ho => ?_⟩
      obtain ⟨t, rfl⟩ := hpre o ho
      rfl
    rw [hnext]
    refine h.unmoved (p := noCall) (fun call hcall => ?_) (unmoved_of_calls (hsuspend.seq calls_skip) w)
    cases hcall
  · obtain ⟨hdownload, hvisits⟩ : next.1 = some .listenKey ∧ ∀ t ∈ next.2, t = .listenKey := by
      cases again <;> simp [next, replied, hverdict, advanced_retry]
    have hsuspend : Keeps (Stalled w) (emit pre) := by
      refine stalled_emit (fun o ho => ?_) (fun _ o ho => ?_) w
      all_goals
        obtain ⟨t, rfl⟩ := hpre o ho
        first | rfl | trivial
    have hretry : Keeps (Stalled w) (emit [.downloadRetry .listenKey]) :=
      stalled_emit (by simp [Output.aside]) (fun _ o ho => by rw [List.mem_singleton.mp ho]; trivial) w
    have hstalled := keeps_seq hsuspend (keeps_seq hretry (keeps_map fun t ht =>
      hvisits t ht ▸ stalled_download w))
    rw [hdownload]
    exact h.stalled rfl (hstalled [] w ⟨rfl, Or.inl rfl, by simp, by simp⟩)

theorem getListenKeyAck_success (kind : Kind) (listenKey : String) (env : Answers) :
    getListenKeyAck (R := R) settings kind (.success (.ok listenKey)) env
      = seq (seq (listenKeyAck settings env.now listenKey) (emit [.downloadCheckRelaxed .listenKey]))
          (visit env.visits) := by
  simp only [getListenKeyAck, processResponse, andThen, seqAll, seq_skip, seq_assoc]

theorem tracked_success (again : Bool) (kind : Kind) (listenKey : String) (env : Answers)
    {current : Option State} {w : World R} (h : Tracked out ⟨w, current⟩) :
    let next := advanced proc again current
      (replied settings kind current.isSome (.success (.ok listenKey)))
    let f : Act R := getListenKeyAck settings kind (.success (.ok listenKey))
      { env with downloading := current.isSome, visits := next.2 }
    Tracked (out ++ (f w).2) ⟨(f w).1, next.1⟩ := by
  intro next f
  let g : Act R := seq (listenKeyAck settings env.now listenKey) (emit [.downloadCheckRelaxed .listenKey])
  have hkind : (g w).1.stream.kind ≠ .restTrade := h.kind_ne
  have hstatus : (g w).1.stream.connectionStatus = w.stream.connectionStatus := rfl
  obtain ⟨updates, hout, hupdates⟩ : ∃ updates, (g w).2 = .listenKeyAck listenKey :: updates ∧
      ∀ o ∈ updates, o.aside = true ∧ ∀ pre, Entitled pre o := by
    refine ⟨_, rfl, fun o ho => ?_⟩
    rcases List.mem_append.mp ho with ho | ho
    · split at ho
      · rw [List.mem_singleton.mp ho]
        exact ⟨rfl, fun _ => trivial⟩
      · cases ho
    · rw [List.mem_singleton.mp ho]
      exact ⟨rfl, fun _ => trivial⟩
  have hbegins : ∀ o ∈ (g w).2, o.begins = false := by
    rw [hout]
    exact List.forall_mem_cons.mpr ⟨rfl, fun o ho => begins_of_aside (hupdates o ho).1⟩
  have hacquired : Acquired (out ++ (g w).2) := by
    refine ⟨listenKey, ?_⟩
    rw [Trace.since_append hbegins, hout]
    exact List.mem_append_right _ List.mem_cons_self
  have hentitled : Trace.Each Entitled (out ++ (g w).2) := by
    refine Trace.each_append h.entitled fun pre o ho => ?_
    rw [hout] at ho
    rcases List.mem_cons.mp ho with rfl | ho
    · trivial
    · exact (hupdates o ho).2 pre
  have hconnected : Connected (out ++ (g w).2) ↔ Connected out := connected_append hbegins
  simp only [f, getListenKeyAck_success]
  obtain rfl | rfl : current = none ∨ current = some .listenKey := h.download_cases
  · -- the download is not under way: the listen key has been acquired before, or nothing is connected
    have hnext : next = (none, []) := by simp [next, replied, RestResponse.verdict, advanced_check]
    have hsettled : Connected out → Acquired out := fun hconn => by
      by_contra hnot
      cases h.waiting_iff.mpr ⟨hconn, hnot⟩
    have hvisit : seq g (visit []) = g := seq_skip g
    rw [hnext, hvisit]
    refine ⟨hkind, ?_, Or.inl rfl, ?_, hentitled⟩
    · rw [hstatus, h.ready_iff]
      exact ⟨fun hestablished => ⟨hconnected.mpr hestablished.1, hacquired⟩,
        fun hestablished => ⟨hconnected.mp hestablished.1, hsettled (hconnected.mp hestablished.1)⟩⟩
    · exact iff_of_false (by rintro ⟨⟩) fun hwaiting => hwaiting.2 hacquired
  · have hnext : next = (none, [.done]) := by
      simp [next, replied, RestResponse.verdict, advanced_check]
    have hestablished : Established (out ++ (g w).2) :=
      ⟨hconnected.mpr (h.waiting_iff.mp rfl).1, hacquired⟩
    have haside : ∀ o ∈ [Output.streamStatus .ready ""], o.aside = true := by simp [Output.aside]
    have hvisit : visit (R := R) [.done] = setStatus .ready "" := seq_skip _
    rw [hnext, hvisit]
    suffices hready : Tracked (out ++ (g w).2 ++ [.streamStatus .ready ""])
        ⟨(setStatus .ready "" (g w).1).1, none⟩ by
      rw [List.append_assoc] at hready
      exact hready
    refine ⟨hkind, iff_of_true rfl ((established_append haside).mpr hestablished), Or.inl rfl, ?_,
      Trace.each_concat hentitled hestablished⟩
    rw [acquired_append haside]
    exact iff_of_false (by rintro ⟨⟩) fun hwaiting => hwaiting.2 hacquired

/-- An answer to `get_listen_key`, with what the download makes of it. -/
theorem loadTurn_listenKey {n : ℕ} (hmem : (n, Call.listenKey) ∈ s.world.stream.calls.entries)
    (again : Bool) (r : RestResponse Call.listenKey.Ack) (env : Answers) (d : Dispatcher) :
    let next := advanced proc again s.download (replied settings s.world.stream.kind s.download.isSome r)
    let f : Act R := getListenKeyAck settings s.world.stream.kind r
      { env with downloading := s.download.isSome, visits := next.2 }
    let w : World R := { s.world with stream.calls := s.world.stream.calls.settle n }
    loadTurn settings proc (.own (.answer n .listenKey r env d), again) s = (⟨(f w).1, next.1⟩, (f w).2) := by
  simp only [loadTurn, asked, Turn.answering, turn, step, answer, acknowledge, if_pos hmem,
    List.contains_iff_mem.mpr hmem, if_true]

/-- An answer to another request. -/
theorem loadTurn_acknowledge {n : ℕ} {call : Call} (hcall : call ≠ .listenKey)
    (hmem : (n, call) ∈ s.world.stream.calls.entries) (again : Bool) (r : RestResponse call.Ack)
    (env : Answers) (d : Dispatcher) :
    let f : Act R := acknowledge settings s.world.stream.kind
      { env with downloading := s.download.isSome, visits := [] } d call r
    let w : World R := { s.world with stream.calls := s.world.stream.calls.settle n }
    loadTurn settings proc (.own (.answer n call r env d), again) s = (⟨(f w).1, s.download⟩, (f w).2) := by
  have hasked : asked settings s (.own (.answer n call r env d)) = none := by
    cases call <;> first | rfl | exact absurd rfl hcall
  simp only [loadTurn, hasked, Turn.answering, advanced, turn, step, answer, if_pos hmem]

/-- There are no other answers. -/
theorem loadTurn_unasked {n : ℕ} {call : Call} (hmem : (n, call) ∉ s.world.stream.calls.entries)
    (again : Bool) (r : RestResponse call.Ack) (env : Answers) (d : Dispatcher) :
    loadTurn settings proc (.own (.answer n call r env d), again) s = (s, []) := by
  have hasked : asked settings s (.own (.answer n call r env d)) = none := by
    cases call with
    | listenKey => simp only [asked, List.contains_iff_mem, if_neg hmem]
    | _ => rfl
  simp only [loadTurn, hasked, Turn.answering, advanced, turn, step, answer, if_neg hmem]

theorem tracked_answer (again : Bool) (n : ℕ) (call : Call) (r : RestResponse call.Ack) (env : Answers)
    (d : Dispatcher) (h : Tracked out s) :
    let s' := loadTurn settings proc (.own (.answer n call r env d), again) s
    Tracked (out ++ s'.2) s'.1 := by
  have hsettled : Tracked out
      ⟨{ s.world with stream.calls := s.world.stream.calls.settle n }, s.download⟩ :=
    ⟨h.kind_ne, h.ready_iff, h.download_cases, h.waiting_iff, h.entitled⟩
  by_cases hmem : (n, call) ∈ s.world.stream.calls.entries
  · by_cases hcall : call = .listenKey
    · subst hcall
      rw [loadTurn_listenKey hmem]
      rcases r.verdict_cases settings s.world.stream.kind with ⟨hverdict, -⟩ | ⟨listenKey, rfl, -⟩ |
        ⟨⟨origin, status, error, text, hverdict⟩, -⟩
      · exact tracked_ends again _ env hverdict hsettled
      · exact tracked_success again _ listenKey env hsettled
      · exact tracked_fails again _ env hverdict hsettled
    · have hcalls : Calls noCall (acknowledge (R := R) settings s.world.stream.kind
          { env with downloading := s.download.isSome, visits := [] } d call r) :=
        calls_acknowledge _ _ _ _ _ hcall
      rw [loadTurn_acknowledge hcall hmem]
      refine hsettled.unmoved (p := noCall) (fun call hcall => ?_) (unmoved_of_calls hcalls _)
      cases hcall
  · rw [loadTurn_unasked hmem]
    simpa only [List.append_nil] using h

variable (settings) (proc)

/-- What every turn keeps. -/
theorem tracked_turn (e : Turn × Bool) : Keeps (Tracked (R := R)) (loadTurn settings proc e) := by
  intro out s h
  obtain ⟨e, again⟩ := e
  by_cases he : e.plain = true
  · exact tracked_plain he again h
  · cases e with
    | own e =>
      cases e with
      | connected visits => exact tracked_connected again visits h
      | disconnected => exact tracked_disconnected again h
      | answer n call r env d => exact tracked_answer again n call r env d h
      | _ => exact absurd rfl he
    | _ => exact absurd rfl he

omit settings in
theorem tracked_create {kind : Kind} (hkind : kind ≠ .restTrade) (account : String)
    (request : Request R) : Tracked [] ⟨create kind account request, none⟩ := by
  have hnot : ¬Connected [] := fun hconnected => by cases hconnected
  exact ⟨hkind, iff_of_false (by rintro ⟨⟩) fun hestablished => hnot hestablished.1, Or.inl rfl,
    iff_of_false (by rintro ⟨⟩) fun hwaiting => hnot hwaiting.1, Trace.each_nil⟩

theorem tracked_run (kind : Kind) (hkind : kind ≠ .restTrade) (account : String) (request : Request R)
    (es : List (Turn × Bool)) :
    let r := run (loadTurn settings proc) es ⟨create kind account request, none⟩
    Tracked r.2 r.1 :=
  keeps_run (tracked_turn settings proc) es [] ⟨create kind account request, none⟩
    (tracked_create hkind account request)

/-- CORRECT: in every run of an order entry over REST with its download, the stream says that it is ready,
    and asks for anything but a listen key or the cancellation of open orders, only while it is connected
    and after a listen key has been acknowledged since. -/
theorem ready_with_listenKey (kind : Kind) (hkind : kind ≠ .restTrade) (account : String)
    (request : Request R) (es : List (Turn × Bool)) :
    Trace.Each Entitled (run (loadTurn settings proc) es ⟨create kind account request, none⟩).2 :=
  (tracked_run settings proc kind hkind account request es).entitled

/-- EXACT: in every state that a run reaches, the order entry is ready exactly if it has been connected
    since the connection was last lost, and a listen key has been acknowledged since the download was last
    begun. -/
theorem ready_exactly (kind : Kind) (hkind : kind ≠ .restTrade) (account : String) (request : Request R)
    (es : List (Turn × Bool)) :
    let r := run (loadTurn settings proc) es ⟨create kind account request, none⟩
    r.1.world.stream.connectionStatus = .ready ↔ Connected r.2 ∧ Acquired r.2 :=
  (tracked_run settings proc kind hkind account request es).ready_iff

/-! ### Progress -/

variable {settings} {proc}

/-- A download that waits has asked for a listen key and not been answered, while the process goes on. -/
def Awaits (out : List Output) (s : Loading R) : Prop :=
  s.download = some .listenKey → .fatal ∉ out →
    ∃ n, (n, Call.listenKey) ∈ s.world.stream.calls.entries

theorem mem_plain {e : Turn} (he : e.plain = true) {w : World R} {x : ℕ × Call}
    (hx : x ∈ w.stream.calls.entries) : x ∈ (turn settings e w).1.stream.calls.entries := by
  cases e with
  | own e =>
    have hentered : Entered w (step settings e w).2 (step settings e w).1 :=
      entered_step settings (fun n call r env d heq => by subst heq; cases he) w
    rw [turn, hentered]
    exact Ledger.mem_enterAll_of_mem hx _
  | requested | stale => exact hx
  | otherServed c gate now | otherCommitted c now =>
    simp only [turn]
    split <;> exact hx

theorem awaits_getListenKeyAck (kind : Kind) (r : RestResponse String) (env : Answers)
    {current : Option State} (hcurrent : current = none ∨ current = some .listenKey) (w : World R) :
    let next := advanced proc true current (replied settings kind current.isSome r)
    let f : Act R := getListenKeyAck settings kind r
      { env with downloading := current.isSome, visits := next.2 }
    Awaits (out ++ (f w).2) ⟨(f w).1, next.1⟩ := by
  intro next f hdownload hfatal
  have hwaits : next.1 = some .listenKey := hdownload
  rcases r.verdict_cases settings kind with ⟨hverdict, -⟩ | ⟨listenKey, rfl, -⟩ |
    ⟨⟨origin, status, error, text, hverdict⟩, -⟩
  · have hout : (f w).2 = [.fatal] := by
      simp only [f, getListenKeyAck_ends hverdict]
      rfl
    rw [hout] at hfatal
    exact absurd (List.mem_append_right _ (List.mem_singleton_self _)) hfatal
  · -- the download is done
    rcases hcurrent with rfl | rfl <;>
      simp [next, replied, RestResponse.verdict, advanced_check] at hwaits
  · rcases hcurrent with rfl | rfl
    · simp [next, replied, hverdict, advanced] at hwaits
    · have hnext : next = (some .listenKey, [.listenKey]) := by
        simp [next, replied, hverdict, advanced_retry]
      obtain ⟨pre, -, hf⟩ := getListenKeyAck_fails (R := R) hverdict
        { env with downloading := true, visits := [.listenKey] }
      have hcalls : (f w).1.stream.calls = w.stream.calls.enter .listenKey := by
        simp only [f, hnext, Option.isSome_some, hf]
        rfl
      refine ⟨w.stream.calls.next, ?_⟩
      dsimp only
      rw [hcalls]
      exact List.mem_append_right _ (List.mem_singleton_self _)

theorem awaits_answer (n : ℕ) (call : Call) (r : RestResponse call.Ack) (env : Answers) (d : Dispatcher)
    (ht : Tracked out s) (h : Awaits out s) :
    let s' := loadTurn settings proc (.own (.answer n call r env d), true) s
    Awaits (out ++ s'.2) s'.1 := by
  by_cases hmem : (n, call) ∈ s.world.stream.calls.entries
  · by_cases hcall : call = .listenKey
    · subst hcall
      rw [loadTurn_listenKey hmem]
      exact awaits_getListenKeyAck _ r env ht.download_cases _
    · rw [loadTurn_acknowledge hcall hmem]
      intro s' hdownload hfatal
      obtain ⟨n', hn'⟩ := h hdownload fun hmem => hfatal (List.mem_append_left _ hmem)
      have hne : n' ≠ n := by
        rintro rfl
        exact hcall (Ledger.entry_unique hmem hn')
      have hentered : s'.1.world.stream.calls = _ := entered_of_keeps
        (entered_acknowledge (R := R) settings s.world.stream.kind
          { env with downloading := s.download.isSome, visits := [] } d call r)
        { s.world with stream.calls := s.world.stream.calls.settle n }
      refine ⟨n', ?_⟩
      rw [hentered]
      exact Ledger.mem_enterAll_of_mem (Ledger.mem_settle.mpr ⟨hn', hne⟩) _
  · rw [loadTurn_unasked hmem]
    simpa only [List.append_nil] using h

/-- A turn in which a retry calls back again. -/
theorem awaits_turn {e : Turn × Bool} (hagain : e.2 = true) :
    Keeps (fun out s => Tracked out s ∧ Awaits out s) (loadTurn (R := R) settings proc e) := by
  rintro out s ⟨ht, h⟩
  obtain ⟨e, again⟩ := e
  obtain rfl : again = true := hagain
  refine ⟨tracked_turn settings proc (e, true) out s ht, ?_⟩
  by_cases he : e.plain = true
  · rw [loadTurn_plain he]
    intro hdownload hfatal
    obtain ⟨n, hn⟩ := h hdownload fun hmem => hfatal (List.mem_append_left _ hmem)
    exact ⟨n, mem_plain he hn⟩
  · cases e with
    | own e =>
      cases e with
      | connected visits =>
        rw [loadTurn_connected ht.kind_ne]
        intro _ _
        exact ⟨s.world.stream.calls.next, List.mem_append_right _ (List.mem_singleton_self _)⟩
      | disconnected =>
        intro hdownload _
        have hreset : (advanced proc true s.download (some .reset)).1 = some .listenKey := hdownload
        rw [advanced_reset] at hreset
        cases hreset
      | answer n call r env d => exact awaits_answer n call r env d ht h
      | _ => exact absurd rfl he
    | _ => exact absurd rfl he

theorem status_success (kind : Kind) (listenKey : String) {env : Answers} (hvisits : env.visits = [.done])
    (w : World R) : (getListenKeyAck settings kind (.success (.ok listenKey)) env
      w).1.stream.connectionStatus = .ready := by
  rw [getListenKeyAck_success, hvisits]
  rfl

/-- The listen key is what the download waits for. -/
theorem ready_of_success {n : ℕ} (hs : s.download = some .listenKey)
    (hmem : (n, Call.listenKey) ∈ s.world.stream.calls.entries) (again : Bool)
    {r : RestResponse Call.listenKey.Ack} {listenKey : String} (hr : r = .success (.ok listenKey))
    (env : Answers) (d : Dispatcher) :
    (loadTurn settings proc (.own (.answer n .listenKey r env d), again) s).1.world.stream.connectionStatus
      = .ready := by
  have hnext : advanced proc again s.download (replied settings s.world.stream.kind s.download.isSome r)
      = (none, [.done]) := by
    simp [hr, hs, replied, RestResponse.verdict, advanced_check]
  rw [loadTurn_listenKey hmem]
  simp only [hnext]
  subst hr
  exact status_success _ listenKey rfl _

variable (settings) (proc) in
/-- CORRECT: in every run in which a retry calls back again and the process goes on, an order entry that
    is connected and has not got a listen key has asked for one and not been answered, and the answer with
    a listen key makes it ready. -/
theorem listenKey_awaited (kind : Kind) (hkind : kind ≠ .restTrade) (account : String)
    (request : Request R) (es : List (Turn × Bool)) (hagain : ∀ e ∈ es, e.2 = true) :
    let r := run (loadTurn settings proc) es ⟨create kind account request, none⟩
    .fatal ∉ r.2 → Connected r.2 → ¬Acquired r.2 →
      ∃ n, (n, Call.listenKey) ∈ r.1.world.stream.calls.entries ∧
        ∀ (listenKey : String) (env : Answers) (d : Dispatcher) (again : Bool),
          (loadTurn settings proc (.own (.answer n .listenKey (.success (.ok listenKey)) env d), again)
            r.1).1.world.stream.connectionStatus = .ready := by
  intro r hfatal hconnected hacquired
  have hawaits : Awaits [] (⟨create kind account request, none⟩ : Loading R) := fun hdownload => by
    cases hdownload
  have hkeeps : Keeps (fun out (s : Loading R) => Tracked out s ∧ Awaits out s)
      (run (loadTurn settings proc) es) :=
    keeps_run_of fun e he => awaits_turn (hagain e he)
  obtain ⟨ht, h⟩ := hkeeps [] ⟨create kind account request, none⟩
    ⟨tracked_create hkind account request, hawaits⟩
  have hs : r.1.download = some .listenKey := ht.waiting_iff.mpr ⟨hconnected, hacquired⟩
  obtain ⟨n, hn⟩ := h hs hfatal
  exact ⟨n, hn, fun listenKey env d again => ready_of_success hs hn again rfl env d⟩

end

/-- The listen key is refused once, and an order is canceled before the connection is lost. -/
def reconnected : List (Turn × Bool) :=
  let env : Answers := { now := 1, downloading := false, visits := [] }
  [(.own (.connected []), true),
    (.own (.answer 0 .listenKey (.serverError "") env (.knowing none)), true),
    (.own (.answer 1 .listenKey (.success (.ok "K1")) env (.knowing none)), true),
    (.own (.cancelOrder ⟨"A1", 7, 2⟩ 1 (.ok "symbol=BTCUSDT")), true),
    (.own .disconnected, true),
    (.own (.connected []), true)]

theorem ready_reconnected : Trace.Each Entitled
    (run (loadTurn (R := .simple) {} .standard) reconnected ⟨create .orderEntryClassic "A1" {}, none⟩).2 :=
  ready_with_listenKey {} .standard .orderEntryClassic (by decide) "A1" {} reconnected

/-- The order goes out. -/
example : Output.request 2 (.orderCancel "symbol=BTCUSDT" 1 7 2) ∈
    (run (loadTurn (R := .simple) {} .standard) reconnected
      ⟨create .orderEntryClassic "A1" {}, none⟩).2 := by
  decide +kernel

theorem ready_exactly_answered :
    let r := run (loadTurn (R := .simple) {} .standard) (reconnected.take 3)
      ⟨create .orderEntryPortfolio "A1" {}, none⟩
    r.1.world.stream.connectionStatus = .ready ↔ Connected r.2 ∧ Acquired r.2 :=
  ready_exactly {} .standard .orderEntryPortfolio (by decide) "A1" {} (reconnected.take 3)

theorem listenKey_reconnected :
    let r := run (loadTurn (R := .simple) {} .standard) reconnected ⟨create .orderEntryClassic "A1" {}, none⟩
    ∃ n, (n, Call.listenKey) ∈ r.1.world.stream.calls.entries ∧
      ∀ (listenKey : String) (env : Answers) (d : Dispatcher) (again : Bool),
        (loadTurn {} .standard (.own (.answer n .listenKey (.success (.ok listenKey)) env d), again)
          r.1).1.world.stream.connectionStatus = .ready := by
  have hconnected : Connected
      (run (loadTurn (R := .simple) {} .standard) reconnected
        ⟨create .orderEntryClassic "A1" {}, none⟩).2 := by
    unfold Connected
    decide +kernel
  have htracked := tracked_run (R := .simple) {} .standard .orderEntryClassic (by decide) "A1" {} reconnected
  refine listenKey_awaited {} .standard .orderEntryClassic (by decide) "A1" {} reconnected (by decide)
    (by decide +kernel) hconnected fun hacquired => ?_
  exact absurd (htracked.ready_iff.mpr ⟨hconnected, hacquired⟩) (by decide +kernel)

end BinanceFutures.RestStream
