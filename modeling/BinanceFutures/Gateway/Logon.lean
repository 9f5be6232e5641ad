import BinanceFutures.Gateway.Correlation
import BinanceFutures.Gateway.Session
import BinanceFutures.Schemes.Stages
import BinanceFutures.Schemes.Trace

/-! # Logon

    A stream is ready once its download is done. The download logs the session on, starts the user data
    stream and asks for the positions; it waits for the first two to be answered.

        Ready ─▶ session.logon ─200─▶ userDataStream.start ─200─▶ account.… ─▶ READY ─▶ order.…
                      └─ Disconnected: the download is reset, the session is over -/

namespace BinanceFutures.WebSocket
open Machine

/-- The stages of `download_`, with what `download` returns for a state. `proc` is `core::Download2` of
    the client library. -/
def downloads : Stages State where
  list := [.sessionLogon, .userDataStreamStart, .accountPosition, .done]
  waits
    | .sessionLogon | .userDataStreamStart => true
    | _ => false

/-- The requests of the logon. -/
def Call.logon : List Call := [.sessionLogon, .userDataStreamStart]

/-- The requests that have to be acknowledged before a request is sent. -/
def Call.requires : Call → List Call
  | .sessionLogon => []
  | .userDataStreamStart => [.sessionLogon]
  | _ => Call.logon

/-- The same for the state of a download. -/
def State.requires : State → List Call
  | .undefined | .sessionLogon => []
  | .userDataStreamStart => [.sessionLogon]
  | .accountPosition | .done => Call.logon

/-- The end of a session. -/
def Output.ends (o : Output) : Bool := o = .sessionEnd

/-- The request has been sent in the current session, and acknowledged with status 200. -/
def Acknowledged (out : List Output) (call : Call) : Prop :=
  ∃ (n : ℕ) (reply : Json.Reply), .sendText n call ∈ Trace.since Output.ends out ∧
    .answered n reply ∈ Trace.since Output.ends out ∧ reply.status = ok

/-- A request goes out after those that it requires. -/
def Admitted (out : List Output) : Output → Prop
  | .sendText _ call => ∀ c ∈ call.requires, Acknowledged out c
  | _ => True

section
variable {R : LimitRequest} (scanner : Json.Scanner) (settings : Settings)
  (proc : Stages.Procedure State)

/-- A stream with its download. -/
structure Logon (R : LimitRequest) where
  world : World R
  download : Option State := none

/-- What an answer asks of the download. -/
def replied (downloading : Bool) (state : State) (reply : Json.Reply) :
    Option (Stages.Request State) :=
  if reply.status = ok then some (.checkRelaxed state)
  else if downloading then some (.retry state)
  else none

/-- What a step asks of the download. -/
def asked (s : Logon R) : Turn → Option (Stages.Request State)
  | .own (.ready _) => some .begin
  | .own .disconnected => some .reset
  | .own (.answer n reply ..) =>
    match (s.world.socket.calls.find n).map Sent.call with
    | some .sessionLogon => replied s.download.isSome .sessionLogon reply
    | some .userDataStreamStart | some .userDataStreamPing =>
      replied s.download.isSome .userDataStreamStart reply
    | _ => none
  | _ => none

/-- The turn with the download's answers. -/
def Turn.answered (downloading : Bool) (visits : List State) : Turn → Turn
  | .own (.ready _) => .own (.ready visits)
  | .own (.answer n reply arrangement env d) =>
    .own (.answer n reply arrangement { env with downloading, visits } d)
  | e => e

/-- The download after a turn, and the states for which it calls back. -/
def moved (s : Logon R) (again : Bool) (e : Turn) : Option State × List State :=
  match asked s e with
  | some request => proc.ask downloads again s.download request
  | none => (s.download, [])

theorem moved_ready (s : Logon R) (again : Bool) (visits : List State) :
    moved proc s again (.own (.ready visits)) = (some .sessionLogon, [.sessionLogon]) :=
  proc.ask_begin ..

theorem moved_disconnected (s : Logon R) (again : Bool) :
    moved proc s again (.own .disconnected) = (none, []) :=
  proc.ask_reset ..

/-- A turn of the stream, with what the download makes of a retry. -/
def logonStep (e : Turn × Bool) : Action (Logon R) Output := fun s =>
  let (download, visits) := moved proc s e.2 e.1
  let (world, out) := turn scanner settings (e.1.answered s.download.isSome visits) s.world
  ({ world, download }, out)

/-! ### Acknowledgements -/

/-- Neither a request nor the end of a session. -/
def Output.plain : Output → Bool
  | .sendText .. | .sessionEnd => false
  | _ => true

theorem ends_of_plain {o : Output} (h : o.plain = true) : o.ends = false := by
  cases o <;> simp_all [Output.plain, Output.ends]

theorem admitted_of_plain {o : Output} (h : o.plain = true) (out : List Output) : Admitted out o := by
  cases o <;> simp_all [Output.plain, Admitted]

variable {out os : List Output} {cs : List Call} {w : World R}

/-- What has been acknowledged stays so while the session lasts. -/
theorem Acknowledged.append {call : Call} (h : Acknowledged out call)
    (hos : ∀ o ∈ os, o.ends = false) : Acknowledged (out ++ os) call := by
  obtain ⟨n, reply, hsent, hanswered, hstatus⟩ := h
  refine ⟨n, reply, ?_, ?_, hstatus⟩
  · rw [Trace.since_append hos]
    exact List.mem_append_left _ hsent
  · rw [Trace.since_append hos]
    exact List.mem_append_left _ hanswered

/-- The invariant of the socket. The requests of `cs` are known to be acknowledged. -/
structure Logged (cs : List Call) (out : List Output) (w : World R) : Prop where
  sent : ∀ n sent, (n, sent) ∈ w.socket.calls.entries →
    .sendText n sent.call ∈ Trace.since Output.ends out
  entitled : ∀ n sent, (n, sent) ∈ w.socket.calls.entries →
    ∀ c ∈ sent.call.requires, Acknowledged out c
  ready : w.socket.connectionStatus = .ready → ∀ c ∈ Call.logon, Acknowledged out c
  admitted : Trace.Each Admitted out
  acknowledged : ∀ c ∈ cs, Acknowledged out c

theorem Logged.with (h : Logged cs out w) {cs' : List Call}
    (hcs' : ∀ c ∈ cs', Acknowledged out c) : Logged cs' out w :=
  ⟨h.sent, h.entitled, h.ready, h.admitted, hcs'⟩

theorem Logged.forget (h : Logged cs out w) : Logged [] out w := h.with (by simp)

/-- The session goes on. -/
theorem Logged.append (h : Logged cs out w) (hos : ∀ o ∈ os, o.ends = false)
    (hadmitted : Trace.Each Admitted (out ++ os)) : Logged cs (out ++ os) w where
  sent n sent hmem := by
    rw [Trace.since_append hos]
    exact List.mem_append_left _ (h.sent n sent hmem)
  entitled n sent hmem c hc := (h.entitled n sent hmem c hc).append hos
  ready hstatus c hc := (h.ready hstatus c hc).append hos
  admitted := hadmitted
  acknowledged c hc := (h.acknowledged c hc).append hos

theorem Logged.plain (h : Logged cs out w) (hos : ∀ o ∈ os, o.plain = true) :
    Logged cs (out ++ os) w :=
  h.append (fun o ho => ends_of_plain (hos o ho))
    (Trace.each_append h.admitted fun pre o ho => admitted_of_plain (hos o ho) pre)

/-- Actions that neither send nor touch the status. -/
theorem logged_of_frame {f : Act R} (hcalls : ∀ w, (f w).1.socket.calls = w.socket.calls)
    (hstatus : ∀ w, (f w).1.socket.connectionStatus = w.socket.connectionStatus)
    (hplain : ∀ w, ∀ o ∈ (f w).2, o.plain = true) : Keeps (Logged (R := R) cs) f := by
  intro out w h
  have hout := h.plain (hplain w)
  refine ⟨?_, ?_, ?_, hout.admitted, hout.acknowledged⟩
  · rw [hcalls]
    exact hout.sent
  · rw [hcalls]
    exact hout.entitled
  · rw [hstatus]
    exact hout.ready

theorem logged_emit {os : List Output} (hos : ∀ o ∈ os, o.plain = true) :
    Keeps (Logged (R := R) cs) (emit os) :=
  logged_of_frame (fun _ => rfl) (fun _ => rfl) fun _ => hos

/-- The stream says that it is ready once the logon is acknowledged. -/
theorem logged_setStatus {status : ConnectionStatus} (reason : String)
    (hready : status = .ready → ∀ c ∈ Call.logon, c ∈ cs) :
    Keeps (Logged (R := R) cs) (setStatus status reason) := by
  intro out w h
  have hout : Logged cs (out ++ [.streamStatus status reason]) w :=
    h.plain fun o ho => by rw [List.mem_singleton.mp ho]; rfl
  exact ⟨hout.sent, hout.entitled, fun hstatus c hc => hout.acknowledged c (hready hstatus c hc),
    hout.admitted, hout.acknowledged⟩

/-- A request goes out whose requirements are met. -/
theorem Logged.send {call : Call} (h : Logged cs out w)
    (hcall : ∀ c ∈ call.requires, Acknowledged out c) :
    Logged cs (out ++ (send scanner call w).2) (WebSocket.send scanner call w).1 := by
  have hends : ∀ o ∈ [Output.sendText w.socket.calls.next call], o.ends = false := by
    intro o ho
    rw [List.mem_singleton.mp ho]
    rfl
  have hout := h.append hends (Trace.each_concat h.admitted hcall)
  refine ⟨?_, ?_, hout.ready, hout.admitted, hout.acknowledged⟩
  · intro n sent hmem
    rcases List.mem_append.mp hmem with hold | hnew
    · exact hout.sent n sent hold
    · obtain ⟨rfl, rfl⟩ := Prod.mk.inj (List.mem_singleton.mp hnew)
      rw [WebSocket.send, Trace.since_append hends]
      exact List.mem_append_right _ (List.mem_singleton_self _)
  · intro n sent hmem c hc
    rcases List.mem_append.mp hmem with hold | hnew
    · exact hout.entitled n sent hold c hc
    · obtain ⟨rfl, rfl⟩ := Prod.mk.inj (List.mem_singleton.mp hnew)
      exact (hcall c hc).append hends

theorem logged_send {call : Call} (hcall : ∀ c ∈ call.requires, c ∈ cs) :
    Keeps (Logged (R := R) cs) (WebSocket.send scanner call) :=
  fun _ _ h => h.send scanner fun c hc => h.acknowledged c (hcall c hc)

/-- The download enters states whose requirements are met. -/
theorem logged_visit {visits : List State} (hvisits : ∀ state ∈ visits, ∀ c ∈ state.requires, c ∈ cs) :
    Keeps (Logged (R := R) cs) (visit scanner visits) := by
  refine keeps_map fun state hstate => ?_
  have hrequires := hvisits state hstate
  cases state with
  | undefined => exact keeps_skip _
  | sessionLogon =>
    exact keeps_seq (logged_setStatus _ nofun) (keeps_seq (logged_send scanner nofun)
      (keeps_seq (logged_setStatus _ nofun) (keeps_skip _)))
  | userDataStreamStart | accountPosition =>
    exact keeps_seq (logged_setStatus _ nofun) (logged_send scanner hrequires)
  | done => exact logged_setStatus _ fun _ => hrequires

/-! ### Answers -/

theorem logged_retry {state : State} {env : Answers}
    (hvisits : ∀ state ∈ env.visits, ∀ c ∈ state.requires, c ∈ cs) :
    Keeps (Logged (R := R) cs) (retry scanner state env) := by
  unfold retry
  split
  · exact keeps_seq (logged_emit (by simp [Output.plain])) (logged_visit scanner hvisits)
  · exact keeps_skip _

theorem logged_publish {f : Act R} (hf : Publishes f) : Keeps (Logged (R := R) cs) f := by
  refine logged_of_frame (fun w => by rw [(hf w).1]) (fun w => by rw [(hf w).1]) fun w o ho => ?_
  have ho := (hf w).2 o ho
  cases o <;> first | rfl | cases ho

/-- The handler of an answer, where the download enters states whose requirements are met. -/
theorem logged_handle (reply : Json.Reply) (call : Call) (sequence : UInt32) {env : Answers}
    (d : Dispatcher) (hvisits : ∀ state ∈ env.visits, ∀ c ∈ state.requires, c ∈ cs) :
    Keeps (Logged (R := R) cs)
      (handle scanner settings reply.parsed { call.request with sequence } env d) := by
  cases call with
  | sessionLogon =>
    unfold handle wsapiSessionLogon
    dsimp only [Call.request]
    split
    · exact keeps_seq (logged_emit (by simp [Output.plain])) (logged_visit scanner hvisits)
    · exact logged_retry scanner hvisits
  | userDataStreamStart | userDataStreamPing =>
    unfold handle wsapiListenKey
    dsimp only [Call.request]
    split
    · refine keeps_seq ?_ (keeps_seq (logged_emit (by simp [Output.plain]))
        (keeps_seq (logged_visit scanner hvisits) (keeps_seq ?_ (keeps_skip _))))
      · exact logged_of_frame (fun _ => rfl) (fun _ => rfl) (by simp [Output.plain])
      · exact logged_of_frame (fun _ => rfl) (fun _ => rfl) (by simp)
    · exact logged_retry scanner hvisits
  | accountBalance | accountStatus =>
    exact logged_of_frame (fun _ => rfl) (fun _ => rfl)
      (by simp [handle, Call.request, wsapiAccount, commit, Output.plain])
  | accountPosition => exact keeps_skip _
  | orderPlace => exact logged_publish (publishes_orderPlace settings _ _ _)
  | orderModify => exact logged_publish (publishes_orderModify scanner settings _ _)
  | orderCancel => exact logged_publish (publishes_orderCancel settings _ _ _ _)

/-- An answer to a request of the session, before it is handled. -/
theorem Logged.answered (h : Logged cs out w) {n : ℕ} {sent : Sent}
    (hfind : w.socket.calls.find n = some sent) (reply : Json.Reply) :
    Logged cs (out ++ [.answered n reply])
        { w with socket.calls := w.socket.calls.settle n } ∧
      (∀ c ∈ sent.call.requires, Acknowledged (out ++ [.answered n reply]) c) ∧
      (reply.status = ok → Acknowledged (out ++ [.answered n reply]) sent.call) := by
  have hplain : ∀ o ∈ [Output.answered n reply], o.plain = true := by simp [Output.plain]
  have hends : ∀ o ∈ [Output.answered n reply], o.ends = false :=
    fun o ho => ends_of_plain (hplain o ho)
  have hmem := Ledger.mem_of_find hfind
  have hout := h.plain hplain
  refine ⟨⟨?_, ?_, hout.ready, hout.admitted, hout.acknowledged⟩, hout.entitled n sent hmem, ?_⟩
  · intro n' sent' hmem'
    exact hout.sent n' sent' (Ledger.mem_settle.mp hmem').1
  · intro n' sent' hmem'
    exact hout.entitled n' sent' (Ledger.mem_settle.mp hmem').1
  · intro hstatus
    refine ⟨n, reply, hout.sent n sent hmem, ?_, hstatus⟩
    rw [Trace.since_append hends]
    exact List.mem_append_right _ (List.mem_singleton_self _)

/-! ### Orders and timers -/

theorem Logged.sendEncoded {call : Call} (h : Logged cs out w) (body : Except Exn String)
    (hcall : ∀ c ∈ call.requires, Acknowledged out c) :
    Logged cs (out ++ (WebSocket.sendEncoded scanner body call w).2)
      (WebSocket.sendEncoded scanner body call w).1 := by
  cases body with
  | ok body => exact h.send scanner hcall
  | error e =>
    have hout : Logged cs (out ++ [.throws e]) w := h.plain (by simp [Output.plain])
    exact ⟨hout.sent, hout.entitled, hout.ready, hout.admitted, hout.acknowledged⟩

theorem Logged.isReady (h : Logged cs out w) (hready : isReady w = true) :
    ∀ c ∈ Call.logon, Acknowledged out c :=
  h.ready (by simpa [WebSocket.isReady] using hready)

theorem logged_ping (now : Nanos) :
    Keeps (Logged (R := R) cs) (userDataStreamPing scanner settings now) := by
  intro out w h
  unfold userDataStreamPing
  split
  next => simpa using h
  next hready =>
    split
    · simpa using h
    · split
      · simpa using h
      · have hset : Logged cs out { w with
            socket.listenKeyRefresh := now + settings.rest.listenKeyRefresh } :=
          ⟨h.sent, h.entitled, h.ready, h.admitted, h.acknowledged⟩
        exact hset.send scanner (h.isReady (by simpa using hready))

theorem logged_checkPending (c : Slot) (call : Call) (hcs : ∀ c ∈ Call.logon, c ∈ cs)
    (hcall : call.requires = Call.logon) (now : Nanos) (gate : Slot → Bool) :
    Keeps (Logged (R := R) cs) (checkPending scanner c call now gate) := by
  intro out w h
  have hset : Logged cs out { w with request := w.request.checkPending c now (gate c) } :=
    ⟨h.sent, h.entitled, h.ready, h.admitted, h.acknowledged⟩
  unfold checkPending
  dsimp only
  split
  · exact logged_send scanner (fun c hc => hcs c (hcall ▸ hc)) out _ hset
  · simpa using hset

theorem logged_timer (now : Nanos) (gate : Slot → Bool) :
    Keeps (Logged (R := R) cs) (timer scanner settings now gate) := by
  refine keeps_seq (logged_ping scanner settings now) (keeps_guarded _ fun out w hready h => ?_)
  have hlogon : Logged (Call.logon ++ cs) out w := by
    refine h.with fun c hc => ?_
    rcases List.mem_append.mp hc with hc | hc
    · exact h.isReady hready c hc
    · exact h.acknowledged c hc
  have hcs : ∀ c ∈ Call.logon, c ∈ Call.logon ++ cs := fun _ => List.mem_append_left _
  have hqueue := keeps_seq (logged_checkPending scanner .balances .accountBalance hcs rfl now gate)
    (logged_checkPending scanner .positions .accountStatus hcs rfl now gate) out w hlogon
  exact hqueue.with fun c hc => hqueue.acknowledged c (List.mem_append_right _ hc)

/-- The order requests. -/
theorem logged_order (body : Except Exn String) (call : Call) (symbols : World R → List String)
    (hcall : call.requires = Call.logon) (h : Logged cs out w) :
    Logged cs
      (out ++ (if isReady w then
        WebSocket.sendEncoded scanner body call { w with socket.openOrdersSymbols := symbols w }
        else (w, [.throws (.notReady "not ready")])).2)
      (if isReady w then
        WebSocket.sendEncoded scanner body call { w with socket.openOrdersSymbols := symbols w }
        else (w, [.throws (.notReady "not ready")])).1 := by
  split
  next hready =>
    have hset : Logged cs out { w with socket.openOrdersSymbols := symbols w } :=
      ⟨h.sent, h.entitled, h.ready, h.admitted, h.acknowledged⟩
    exact hset.sendEncoded scanner body fun c hc => h.isReady hready c (hcall ▸ hc)
  next => exact h.plain (by simp [Output.plain])

/-! ### The download -/

/-- The states of the download whose requirements are met. -/
abbrev Permitted (out : List Output) (state : State) : Prop :=
  ∀ c ∈ state.requires, Acknowledged out c

/-- A request that the download gets with good reason. -/
def Justified (out : List Output) : Stages.Request State → Prop
  | .checkRelaxed state => ∀ next ∈ (downloads.onward state).tail.head?, Permitted out next
  | .retry state => Permitted out state
  | _ => True

/-- The download goes no further than what has been acknowledged. -/
theorem permitted_ask (again : Bool) {current : Option State} {request : Stages.Request State}
    (hcurrent : ∀ state ∈ current, Permitted out state) (hrequest : Justified out request) :
    (∀ state ∈ (proc.ask downloads again current request).2, Permitted out state) ∧
      ∀ state ∈ (proc.ask downloads again current request).1, Permitted out state := by
  refine Stages.ask_permitted ?_ hcurrent ?_ ?_ ?_
  · simp [downloads, Permitted, State.requires]
  · rintro -
    simp [downloads, Permitted, State.requires]
  · rintro state rfl -
    exact hrequest
  · rintro state rfl
    exact hrequest

/-- An answer has a good reason for what it asks of the download. -/
theorem justified_asked {s : Logon R} {n : ℕ} {sent : Sent} {reply : Json.Reply}
    {arrangement : Json.Arrangement} {env : Answers} {d : Dispatcher}
    (hfind : s.world.socket.calls.find n = some sent)
    (hrequires : ∀ c ∈ sent.call.requires, Acknowledged out c)
    (hacknowledged : reply.status = ok → Acknowledged out sent.call)
    {request : Stages.Request State}
    (hasked : asked s (.own (.answer n reply arrangement env d)) = some request) :
    Justified out request := by
  have hreplied : ∀ state, Permitted out state →
      (reply.status = ok → ∀ next ∈ (downloads.onward state).tail.head?, Permitted out next) →
      replied s.download.isSome state reply = some request → Justified out request := by
    intro state hretry hcheck h
    unfold replied at h
    split at h
    next hstatus =>
      obtain rfl := Option.some.inj h
      exact hcheck hstatus
    next =>
      split at h
      · obtain rfl := Option.some.inj h
        exact hretry
      · cases h
  simp only [asked, hfind, Option.map_some] at hasked
  cases hcall : sent.call with
  | sessionLogon =>
    rw [hcall] at hasked hacknowledged
    refine hreplied .sessionLogon (by simp [Permitted, State.requires]) (fun hstatus => ?_) hasked
    simpa [downloads, Stages.onward, Permitted, State.requires] using hacknowledged hstatus
  | userDataStreamStart =>
    rw [hcall] at hasked hacknowledged hrequires
    refine hreplied .userDataStreamStart hrequires (fun hstatus => ?_) hasked
    have hlogon : Acknowledged out .sessionLogon := hrequires _ (by simp [Call.requires])
    simpa [downloads, Stages.onward, Permitted, State.requires, Call.logon]
      using ⟨hlogon, hacknowledged hstatus⟩
  | userDataStreamPing =>
    rw [hcall] at hasked hrequires
    have hlogon : Acknowledged out .sessionLogon ∧ Acknowledged out .userDataStreamStart := by
      simpa [Call.requires, Call.logon] using hrequires
    refine hreplied .userDataStreamStart ?_ (fun _ => ?_) hasked
    · simpa [Permitted, State.requires] using hlogon.1
    · simpa [downloads, Stages.onward, Permitted, State.requires, Call.logon] using hlogon
  | _ => simp [hcall] at hasked

/-! ### Runs -/

/-- The invariant of a stream and its download. -/
structure LoggedOn (out : List Output) (s : Logon R) : Prop where
  correlated : Correlated scanner settings [] out s.world
  logged : Logged [] out s.world
  permitted : ∀ state ∈ s.download, Permitted out state

/-- The events that the download has a part in. -/
def Event.downloads : Event → Bool
  | .ready _ | .answer .. | .disconnected => true
  | _ => false

theorem logged_step {e : Event} (he : e.downloads = false) (h : Logged cs out w) :
    Logged cs (out ++ (step scanner settings e w).2) (step scanner settings e w).1 := by
  cases e with
  | start | stop | binary | cancelAllOrders m =>
    exact logged_emit (by simp [Output.plain]) out w h
  | connected | close | latency => exact keeps_skip _ out w h
  | disconnected | ready | answer => cases he
  | timer now refresh gate =>
    exact keeps_guarded _ (fun out w _ => logged_timer scanner settings now gate out w) out w h
  | createOrder m userId body =>
    exact logged_order scanner body (.orderPlace m.symbol userId m.orderId 1)
      (fun w => emplace w.socket.openOrdersSymbols m.symbol) rfl h
  | modifyOrder m userId body =>
    exact logged_order scanner body (.orderModify userId m.orderId m.version)
      (fun w => w.socket.openOrdersSymbols) rfl h
  | cancelOrder m userId body =>
    exact logged_order scanner body (.orderCancel userId m.orderId m.version)
      (fun w => w.socket.openOrdersSymbols) rfl h
  | forceListenKeyRefresh now =>
    simp only [step, forceListenKeyRefresh]
    split
    · rw [List.append_nil]
      exact ⟨h.sent, h.entitled, h.ready, h.admitted, h.acknowledged⟩
    · exact h.plain (by simp [Output.plain])

/-- What the states require. -/
def requirements (states : List State) : List Call := states.flatMap State.requires

theorem requirements_permitted {states : List State}
    (h : ∀ state ∈ states, Permitted out state) : ∀ c ∈ requirements states, Acknowledged out c := by
  intro c hc
  obtain ⟨state, hstate, hmem⟩ := List.mem_flatMap.mp hc
  exact h state hstate c hmem

theorem mem_requirements {states : List State} {state : State} (h : state ∈ states) :
    ∀ c ∈ state.requires, c ∈ requirements states :=
  fun _ hc => List.mem_flatMap.mpr ⟨state, h, hc⟩

/-- A stream whose download has not moved. -/
theorem LoggedOn.stay {s : Logon R} (h : LoggedOn scanner settings out s) {w : World R}
    (hcorrelated : Correlated scanner settings [] (out ++ os) w)
    (hlogged : Logged (requirements s.download.toList) out s.world →
      Logged (requirements s.download.toList) (out ++ os) w) :
    LoggedOn scanner settings (out ++ os) { world := w, download := s.download } := by
  have hbefore : Logged (requirements s.download.toList) out s.world :=
    h.logged.with (requirements_permitted (by simpa using h.permitted))
  have hafter := hlogged hbefore
  refine ⟨hcorrelated, hafter.forget, fun state hstate c hc => ?_⟩
  exact hafter.acknowledged c (mem_requirements (by simpa using hstate) c hc)

/-- A stream whose download has moved on to states whose requirements are met. -/
theorem LoggedOn.move {out₁ : List Output} {w₁ w : World R} {download : Option State}
    {visits : List State} (hlogged₁ : Logged [] out₁ w₁)
    (hvisits : ∀ state ∈ visits, Permitted out₁ state)
    (hdownload : ∀ state ∈ download, Permitted out₁ state)
    (hcorrelated : Correlated scanner settings [] (out₁ ++ os) w)
    (hlogged : ∀ cs, (∀ state ∈ visits, ∀ c ∈ state.requires, c ∈ cs) →
      Logged cs out₁ w₁ → Logged cs (out₁ ++ os) w) :
    LoggedOn scanner settings (out₁ ++ os) { world := w, download } := by
  have hbefore : Logged (requirements (visits ++ download.toList)) out₁ w₁ := by
    refine hlogged₁.with (requirements_permitted fun state hstate => ?_)
    rcases List.mem_append.mp hstate with hmem | hmem
    · exact hvisits state hmem
    · exact hdownload state (by simpa using hmem)
  have hafter := hlogged _
    (fun state hstate => mem_requirements (List.mem_append_left _ hstate)) hbefore
  refine ⟨hcorrelated, hafter.forget, fun state hstate c hc => ?_⟩
  exact hafter.acknowledged c
    (mem_requirements (List.mem_append_right _ (by simpa using hstate)) c hc)

/-- An answer, and what the download makes of it. -/
theorem loggedOn_answer (n : ℕ) (reply : Json.Reply) (arrangement : Json.Arrangement)
    (env : Answers) (d : Dispatcher) (again : Bool) :
    Keeps (LoggedOn (R := R) scanner settings)
      (logonStep scanner settings proc (.own (.answer n reply arrangement env d), again)) := by
  intro out s h
  have hcorrelated := correlated_turn scanner settings
    (Turn.answered s.download.isSome (moved proc s again (.own (.answer n reply arrangement env d))).2
      (.own (.answer n reply arrangement env d))) out s.world h.correlated
  dsimp only [logonStep]
  cases hfind : s.world.socket.calls.find n with
  | none =>
    have hmoved : moved proc s again (.own (.answer n reply arrangement env d)) = (s.download, []) := by
      simp [moved, asked, hfind]
    rw [hmoved] at hcorrelated ⊢
    refine h.stay scanner settings hcorrelated fun hlogged => ?_
    simpa [turn, step, answer, hfind, Turn.answered] using hlogged
  | some sent =>
    obtain ⟨hanswered, hrequires, hacknowledged⟩ := h.logged.answered hfind reply
    obtain ⟨sequence, hid⟩ := h.correlated.packed n sent (Ledger.mem_of_find hfind)
    have hends : ∀ o ∈ [Output.answered n reply], o.ends = false := by simp [Output.ends]
    have hcurrent : ∀ state ∈ s.download, Permitted (out ++ [.answered n reply]) state :=
      fun state hstate c hc => (h.permitted state hstate c hc).append hends
    have hmoved : (∀ state ∈ (moved proc s again (.own (.answer n reply arrangement env d))).2,
        Permitted (out ++ [.answered n reply]) state) ∧
        ∀ state ∈ (moved proc s again (.own (.answer n reply arrangement env d))).1,
          Permitted (out ++ [.answered n reply]) state := by
      unfold moved
      split
      next request hasked =>
        exact permitted_ask proc again hcurrent (justified_asked hfind hrequires hacknowledged hasked)
      next => exact ⟨by simp, hcurrent⟩
    revert hcorrelated hmoved
    generalize moved proc s again (.own (.answer n reply arrangement env d)) = move
    obtain ⟨download, visits⟩ := move
    intro hcorrelated hmoved
    have hstep : turn scanner settings (Turn.answered s.download.isSome visits
        (.own (.answer n reply arrangement env d))) s.world
        = seqAll [modify fun w => { w with socket.calls := w.socket.calls.settle n },
            emit [.answered n reply],
            handle scanner settings reply.parsed { sent.call.request with sequence }
              { env with downloading := s.download.isSome, visits } d] s.world := by
      simp only [turn, Turn.answered, step, answer, hfind,
        text_answer scanner settings reply arrangement _ d hid]
    rw [hstep] at hcorrelated ⊢
    simp only [seqAll, seq_fst, seq_snd, modify_apply, emit_apply, skip_apply, List.nil_append,
      List.append_nil, ← List.append_assoc] at hcorrelated ⊢
    exact LoggedOn.move scanner settings hanswered hmoved.1 hmoved.2 hcorrelated
      fun cs hvisits => logged_handle scanner settings reply sent.call sequence d hvisits _ _

/-- The download begins. -/
theorem loggedOn_ready (visits : List State) (again : Bool) :
    Keeps (LoggedOn (R := R) scanner settings)
      (logonStep scanner settings proc (.own (.ready visits), again)) := by
  intro out s h
  have hbegin : Justified out .begin := trivial
  have hmoved := permitted_ask proc again h.permitted hbegin
  exact LoggedOn.move scanner settings h.logged hmoved.1 hmoved.2
    (correlated_turn scanner settings (.own (.ready _)) out s.world h.correlated)
    fun cs hvisits => keeps_seq (logged_emit (by simp [Output.plain])) (logged_visit scanner hvisits) _ _

/-- The session is over, and with it what has been acknowledged. -/
theorem loggedOn_disconnected (again : Bool) :
    Keeps (LoggedOn (R := R) scanner settings)
      (logonStep scanner settings proc (.own .disconnected, again)) := by
  intro out s h
  have hcorrelated := correlated_turn scanner settings (.own .disconnected) out s.world h.correlated
  have hout : (step (R := R) scanner settings .disconnected s.world).2
      = [.streamStatus .disconnected "", .downloadReset, .sessionEnd] := rfl
  have hplain : ∀ o ∈ [Output.streamStatus .disconnected "", .downloadReset, .sessionEnd],
      ∀ pre, Admitted pre o := by simp [Admitted]
  have hreset : (logonStep scanner settings proc (.own .disconnected, again) s).1.download = none :=
    congrArg Prod.fst (moved_disconnected proc s again)
  refine ⟨hcorrelated, ⟨by nofun, by nofun, by nofun, ?_, by nofun⟩, by rw [hreset]; nofun⟩
  exact Trace.each_append h.logged.admitted fun pre o ho => hplain o (hout ▸ ho) pre

theorem loggedOn_step (e : Turn × Bool) :
    Keeps (LoggedOn (R := R) scanner settings) (logonStep scanner settings proc e) := by
  obtain ⟨e, again⟩ := e
  have hstay : ∀ e : Turn, (∀ dl visits, e.answered dl visits = e) →
      (∀ s : Logon R, asked s e = none) →
      (∀ cs, Keeps (Logged cs) (turn (R := R) scanner settings e)) →
      Keeps (LoggedOn (R := R) scanner settings) (logonStep scanner settings proc (e, again)) := by
    intro e hanswered hasked hlogged out s h
    have hmoved : moved proc s again e = (s.download, []) := by simp [moved, hasked]
    dsimp only [logonStep]
    rw [hmoved, hanswered]
    exact h.stay scanner settings (correlated_turn scanner settings e out s.world h.correlated)
      (hlogged _ out s.world)
  have hshared : ∀ e : Turn, (∀ e', e ≠ .own e') →
      ∀ cs, Keeps (Logged cs) (turn (R := R) scanner settings e) := by
    intro e he cs out w h
    obtain ⟨hsocket, hout⟩ := socket_turn scanner settings e w he
    rw [hout, List.append_nil]
    refine ⟨?_, ?_, ?_, h.admitted, h.acknowledged⟩
    · rw [hsocket]
      exact h.sent
    · rw [hsocket]
      exact h.entitled
    · rw [hsocket]
      exact h.ready
  cases e with
  | requested | stale | otherServed | otherCommitted =>
    refine hstay _ (fun _ _ => rfl) (fun _ => rfl) (hshared _ ?_)
    rintro e' ⟨⟩
  | own e =>
    cases e with
    | ready visits => exact loggedOn_ready scanner settings proc visits again
    | disconnected => exact loggedOn_disconnected scanner settings proc again
    | answer n reply arrangement env d =>
      exact loggedOn_answer scanner settings proc n reply arrangement env d again
    | _ =>
      exact hstay _ (fun _ _ => rfl) (fun _ => rfl)
        fun cs out w h => logged_step scanner settings rfl h

/-! ### What is asked of the download -/

/-- The request to the download that is put out. -/
def Output.request : Output → Option (Stages.Request State)
  | .downloadBegin => some .begin
  | .downloadReset => some .reset
  | .downloadRetry state => some (.retry state)
  | .downloadCheckRelaxed state => some (.checkRelaxed state)
  | _ => none

/-- The action asks nothing of the download. -/
abbrev Undemanding (f : Act R) : Prop := Silent (fun o => o.request ≠ none) f

theorem undemanding_of {f : Act R} (h : ∀ w, ∀ o ∈ (f w).2, o.request = none) : Undemanding f :=
  fun w o ho hne => hne (h w o ho)

theorem Undemanding.requests {f : Act R} (h : Undemanding f) (w : World R) :
    (f w).2.filterMap Output.request = [] :=
  List.filterMap_eq_nil_iff.mpr fun o ho => not_not.mp (h w o ho)

theorem undemanding_visit (visits : List State) : Undemanding (R := R) (visit scanner visits) := by
  refine silent_map fun state _ => ?_
  cases state <;>
    exact undemanding_of (by simp [download, seqAll, seq, skip, setStatus, send, Output.request])

theorem undemanding_publish {f : Act R} (hf : Publishes f) : Undemanding f := by
  refine undemanding_of fun w o ho => ?_
  have ho := (hf w).2 o ho
  cases o <;> first | rfl | cases ho

theorem undemanding_sendEncoded (body : Except Exn String) (call : Call) :
    Undemanding (R := R) (sendEncoded scanner body call) := by
  cases body <;> exact undemanding_of (by simp [sendEncoded, send, Output.request])

theorem undemanding_timer (now : Nanos) (gate : Slot → Bool) :
    Undemanding (R := R) (timer scanner settings now gate) := by
  have hpending : ∀ c call, Undemanding (R := R) (checkPending scanner c call now gate) := by
    intro c call
    refine undemanding_of fun w => ?_
    unfold checkPending
    dsimp only
    split <;> simp [send, Output.request]
  refine silent_seq (undemanding_of fun w => ?_) (silent_guarded _ (silent_seq (hpending _ _)
    (hpending _ _)))
  unfold userDataStreamPing
  split
  · simp
  · split
    · simp
    · split <;> simp [send, Output.request]

theorem requests_retry (state : State) (env : Answers) (w : World R) :
    (retry scanner state env w).2.filterMap Output.request
      = if env.downloading then [.retry state] else [] := by
  unfold retry
  split
  · simp [seq, Output.request, (undemanding_visit scanner env.visits).requests]
  · rfl

/-- The handler of an answer asks what the answer means for the state that waits for it. -/
theorem requests_handle (reply : Json.Reply) (call : Call) (sequence : UInt32) (env : Answers)
    (d : Dispatcher) (w : World R) :
    (handle scanner settings reply.parsed { call.request with sequence } env d w).2.filterMap
        Output.request
      = match call with
        | .sessionLogon => (replied env.downloading .sessionLogon reply).toList
        | .userDataStreamStart | .userDataStreamPing =>
          (replied env.downloading .userDataStreamStart reply).toList
        | _ => [] := by
  have hvisit := (undemanding_visit (R := R) scanner env.visits).requests
  cases call with
  | sessionLogon =>
    unfold handle wsapiSessionLogon replied
    dsimp only [Call.request]
    rw [status_parsed]
    split
    · simp [seq, Output.request, hvisit]
    · rw [requests_retry]
      split <;> rfl
  | userDataStreamStart | userDataStreamPing =>
    unfold handle wsapiListenKey replied
    dsimp only [Call.request]
    rw [status_parsed]
    split
    · simp [seqAll, seq, List.filterMap_cons, Output.request, hvisit]
    · rw [requests_retry]
      split <;> rfl
  | accountBalance | accountStatus => rfl
  | accountPosition => rfl
  | orderPlace => exact (undemanding_publish (publishes_orderPlace settings _ _ env)).requests w
  | orderModify => exact (undemanding_publish (publishes_orderModify scanner settings _ _)).requests w
  | orderCancel => exact (undemanding_publish (publishes_orderCancel settings _ _ env d)).requests w

/-- The download hears of everything that a step asks of it, and of nothing else. -/
theorem requests_logonStep (e : Turn) (again : Bool) {out : List Output} {s : Logon R}
    (h : LoggedOn scanner settings out s) :
    (logonStep scanner settings proc (e, again) s).2.filterMap Output.request = (asked s e).toList := by
  have hquiet : ∀ e : Turn, (∀ dl visits, e.answered dl visits = e) →
      Undemanding (turn (R := R) scanner settings e) →
      (logonStep scanner settings proc (e, again) s).2.filterMap Output.request = [] := by
    intro e hanswered he
    dsimp only [logonStep]
    rw [hanswered]
    exact he.requests _
  cases e with
  | requested c now | stale details => rfl
  | otherServed c gate now | otherCommitted c now =>
    refine hquiet _ (fun _ _ => rfl) (undemanding_of fun w => ?_)
    rw [(socket_turn scanner settings _ w (by rintro e' ⟨⟩)).2]
    simp
  | own e =>
    cases e with
    | ready visits =>
      simp [logonStep, Turn.answered, turn, step, seq, asked, Output.request,
        (undemanding_visit scanner _).requests]
    | disconnected => rfl
    | answer n reply arrangement env d =>
      cases hfind : s.world.socket.calls.find n with
      | none => simp [logonStep, Turn.answered, turn, step, answer, asked, hfind]
      | some sent =>
        obtain ⟨sequence, hid⟩ := h.correlated.packed n sent (Ledger.mem_of_find hfind)
        simp only [logonStep, Turn.answered, turn, step, answer, asked, hfind, Option.map_some,
          text_answer scanner settings reply arrangement _ d hid, seqAll, seq_snd, modify_apply,
          emit_apply, skip_apply, List.nil_append, List.append_nil, List.filterMap_append,
          requests_handle]
        cases sent.call <;> rfl
    | start | stop | binary | cancelAllOrders m | connected | close | latency => rfl
    | timer now refresh gate =>
      exact hquiet _ (fun _ _ => rfl)
        (silent_guarded _ (undemanding_timer scanner settings now gate))
    | createOrder m userId body =>
      refine hquiet _ (fun _ _ => rfl) fun w => ?_
      simp only [turn, step, orderPlace]
      split
      · exact undemanding_sendEncoded scanner body _ _
      · simp [Output.request]
    | modifyOrder m userId body =>
      refine hquiet _ (fun _ _ => rfl) fun w => ?_
      simp only [turn, step, orderModify]
      split
      · exact undemanding_sendEncoded scanner body _ _
      · simp [Output.request]
    | cancelOrder m userId body =>
      refine hquiet _ (fun _ _ => rfl) fun w => ?_
      simp only [turn, step, orderCancel]
      split
      · exact undemanding_sendEncoded scanner body _ _
      · simp [Output.request]
    | forceListenKeyRefresh now =>
      refine hquiet _ (fun _ _ => rfl) (undemanding_of fun w => ?_)
      simp only [turn, step, forceListenKeyRefresh]
      split <;> simp [Output.request]

/-- A stream as the controller creates it, with nothing to download. -/
def createLogon (account : String) (streamId : UInt16) (request : Request R) : Logon R where
  world := create account streamId request

theorem loggedOn_create (account : String) (streamId : UInt16) (request : Request R) :
    LoggedOn scanner settings [] (createLogon account streamId request) where
  correlated := correlated_create scanner settings account streamId request
  logged := ⟨by nofun, by nofun, by nofun, Trace.each_nil, by nofun⟩
  permitted := by nofun

/-- The requests that only a session that is logged on may see. -/
def Call.privileged : Call → Bool
  | .orderPlace .. | .orderModify .. | .orderCancel .. | .userDataStreamPing => true
  | _ => false

/-- A request of a client. -/
def Event.order : Event → Bool
  | .createOrder .. | .modifyOrder .. | .cancelOrder .. => true
  | _ => false

/-- The session is logged on: both requests have been acknowledged in it. -/
def SessionLoggedOn (out : List Output) : Prop :=
  Acknowledged out .sessionLogon ∧ Acknowledged out .userDataStreamStart

theorem order_notReady {e : Event} (he : e.order = true) (again : Bool) {s : Logon R}
    (hready : isReady s.world = false) :
    logonStep scanner settings proc (.own e, again) s = (s, [.throws (.notReady "not ready")]) := by
  cases e with
  | createOrder m userId body | modifyOrder m userId body | cancelOrder m userId body =>
    simp [logonStep, moved, asked, Turn.answered, turn, step, orderPlace, orderModify, orderCancel,
      hready]
  | _ => cases he

/-- In every run, an order request or a ping of the user data stream goes out only in a session that is
    logged on. A request of a client that arrives at another time throws, and nothing changes. -/
theorem privileged_loggedOn (account : String) (streamId : UInt16) (request : Request R)
    (es : List (Turn × Bool)) :
    let r := run (logonStep scanner settings proc) es (createLogon account streamId request)
    (∀ pre n call post, r.2 = pre ++ .sendText n call :: post → call.privileged = true →
      SessionLoggedOn pre)
    ∧ ∀ e again, e.order = true → ¬ (isReady r.1.world = true ∧ SessionLoggedOn r.2) →
      logonStep scanner settings proc (.own e, again) r.1
        = (r.1, [.throws (.notReady "not ready")]) := by
  have h := keeps_run (loggedOn_step (R := R) scanner settings proc) es [] _
    (loggedOn_create scanner settings account streamId request)
  rw [List.nil_append] at h
  refine ⟨?_, ?_⟩
  · intro pre n call post hout hcall
    have hadmitted := h.logged.admitted pre (.sendText n call) post hout
    have hlogon : call.requires = Call.logon := by cases call <;> first | rfl | cases hcall
    exact ⟨hadmitted _ (by simp [hlogon, Call.logon]), hadmitted _ (by simp [hlogon, Call.logon])⟩
  · intro e again he hnot
    refine order_notReady scanner settings proc he again (Bool.eq_false_iff.mpr fun hready => hnot ?_)
    have hlogon := h.logged.isReady hready
    exact ⟨hready, hlogon _ (by simp [Call.logon]), hlogon _ (by simp [Call.logon])⟩

end

/-- An answer with the status, and nothing else in it. -/
def answered (n : ℕ) (status : ℤ) : Turn × Bool :=
  (.own (.answer n ⟨status, .result {}⟩ inOrder
    { now := 1, nowUtc := 1, downloading := false, visits := [], allowUnknownEventTypes := false }
    (.knowing none)), false)

/-- The stream logs on. -/
def logsOn : List (Turn × Bool) := [(.own (.ready []), false), answered 0 200, answered 1 200]

/-- A new order. -/
def places : Event := .createOrder { account := "A1", orderId := 1, symbol := "BTCUSDT" } 1 (.ok "order")

/-- The order goes out once the session is logged on; before that it is turned down. -/
theorem places_loggedOn :
    SessionLoggedOn (run (logonStep .standard {} .standard) logsOn
      (createLogon (R := .simple) "A1" 1 {})).2
    ∧ logonStep .standard {} .standard (.own places, false) (createLogon (R := .simple) "A1" 1 {})
      = (createLogon "A1" 1 {}, [.throws (.notReady "not ready")]) := by
  have hsent : (run (logonStep .standard {} .standard) (logsOn ++ [(.own places, false)])
      (createLogon (R := .simple) "A1" 1 {})).2
      = (run (logonStep .standard {} .standard) logsOn (createLogon (R := .simple) "A1" 1 {})).2
        ++ .sendText 3 (.orderPlace "BTCUSDT" 1 1 1) :: [] := by decide
  have hlogs := privileged_loggedOn (R := .simple) .standard {} .standard "A1" 1 {}
    (logsOn ++ [(.own places, false)])
  have hthrows := (privileged_loggedOn (R := .simple) .standard {} .standard "A1" 1 {} []).2 places false rfl
  rw [run_nil] at hthrows
  exact ⟨hlogs.1 _ 3 _ [] hsent rfl, hthrows fun h => absurd h.1 (by decide)⟩

end BinanceFutures.WebSocket
