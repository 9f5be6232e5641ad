import BinanceFutures.Gateway.WebSocket

/-! # What a WebSocket remembers

    The stream has three things to remember between two events: the requests that it waits for, the slots
    that it shares, and when the listen key is to be refreshed. Most of what it does concerns none of them.

        send, answer, Disconnected ──▶ calls
        check_pending, commit ───────▶ slots
        listen key, its timer ───────▶ deadline

    `Rules` says what an invariant of the three needs, and `Rules.step` that every event keeps it. -/

namespace BinanceFutures.WebSocket
open Machine

/-- Nothing about a request, an order or the deadline of a listen key. -/
def Output.common : Output → Bool
  | .sendText .. | .answered .. | .sessionEnd | .response _ => false
  | .listenKeyUpdate _ | .noListenKeyRefresh => false
  | _ => true

section
variable {R : LimitRequest} (scanner : Json.Scanner) (settings : Settings)

/-! ### What is published about orders -/

/-- A response, or an update. -/
def Output.published : Output → Bool
  | .response _ | .orderUpdate _ => true
  | _ => false

/-- The action only publishes. -/
def Publishes (f : Act R) : Prop := ∀ w, (f w).1 = w ∧ ∀ o ∈ (f w).2, o.published = true

theorem publishes_skip : Publishes (R := R) skip := fun _ => ⟨rfl, by simp⟩

theorem publishes_orderError (requestType : RequestType) (request : Json.WSAPIRequest)
    (status : RequestStatus) (error : Error) (text : String) :
    Publishes (R := R) (orderError requestType request status error text) :=
  fun _ => ⟨rfl, by simp [orderError, Output.published]⟩

theorem publishes_orderAck (requestType : RequestType) (request : Json.WSAPIRequest)
    (status : RequestStatus) (result : Json.Order) :
    Publishes (R := R) (orderAck settings requestType request status result) := by
  refine fun w => ⟨rfl, ?_⟩
  unfold orderAck
  split <;> simp [Output.published]

theorem publishes_openOrdersCancelAll (m : Json.WSAPIMessage) :
    Publishes (R := R) (wsapiOpenOrdersCancelAll settings m) := by
  intro w
  dsimp only [wsapiOpenOrdersCancelAll]
  split
  · refine ⟨rfl, fun o ho => ?_⟩
    obtain ⟨item, -, rfl⟩ := List.mem_map.mp ho
    rfl
  · exact ⟨rfl, by simp⟩

theorem publishes_orderPlace (m : Json.WSAPIMessage) (request : Json.WSAPIRequest) (env : Answers) :
    Publishes (R := R) (wsapiOrderPlace settings m request env) := by
  intro w
  unfold wsapiOrderPlace
  split
  · exact ⟨rfl, by simp [Output.published]⟩
  · exact publishes_orderError _ _ _ _ _ w

theorem publishes_orderModify (m : Json.WSAPIMessage) (request : Json.WSAPIRequest) :
    Publishes (R := R) (wsapiOrderModify scanner settings m request) := by
  unfold wsapiOrderModify
  dsimp only
  split
  · exact publishes_orderError _ _ _ _ _
  · split
    · split
      · exact publishes_orderError _ _ _ _ _
      · split
        · exact publishes_skip
        · exact publishes_orderAck settings _ _ _ _
    · exact publishes_orderError _ _ _ _ _

theorem publishes_orderCancel (m : Json.WSAPIMessage) (request : Json.WSAPIRequest) (env : Answers)
    (d : Dispatcher) : Publishes (R := R) (wsapiOrderCancel settings m request env d) := by
  unfold wsapiOrderCancel
  split
  · split
    · exact publishes_orderError _ _ _ _ _
    · split
      · exact publishes_skip
      · exact publishes_orderAck settings _ _ _ _
  · exact publishes_orderError _ _ _ _ _

/-! ### Rules -/

def World.memory (w : World R) : Ledger Sent × Request R × Nanos :=
  (w.socket.calls, w.request, w.socket.listenKeyRefresh)

/-- What an invariant of the memory needs: it survives what does not concern the memory, and requests. -/
structure Rules (I : List Output → World R → Prop) : Prop where
  frame : ∀ {f : Act R}, Frame World.memory f → (∀ w, ∀ o ∈ (f w).2, o.common = true) → Keeps I f
  send : ∀ call, Keeps I (send scanner call)

variable {scanner} {I : List Output → World R → Prop} (h : Rules scanner I)
include h

theorem Rules.emit {o : Output} (hcommon : o.common = true) : Keeps I (emit [o]) :=
  h.frame (fun _ => rfl) fun _ o' ho' => by rw [List.mem_singleton.mp ho']; exact hcommon

theorem Rules.modify {f : World R → World R} (hf : ∀ w, (f w).memory = w.memory) :
    Keeps I (modify f) :=
  h.frame hf fun _ _ ho => by cases ho

theorem Rules.setStatus (status : ConnectionStatus) (reason : String) :
    Keeps I (setStatus status reason) :=
  h.frame (fun _ => rfl) fun _ o ho => by rw [List.mem_singleton.mp ho]; rfl

theorem Rules.visit (visits : List State) : Keeps I (visit scanner visits) := by
  refine keeps_map fun state _ => ?_
  cases state with
  | undefined => exact keeps_skip I
  | sessionLogon =>
    exact keeps_seq (h.setStatus _ _) (keeps_seq (h.send _)
      (keeps_seq (h.setStatus _ _) (keeps_skip I)))
  | userDataStreamStart | accountPosition => exact keeps_seq (h.setStatus _ _) (h.send _)
  | done => exact h.setStatus _ _

theorem Rules.retry (state : State) (env : Answers) : Keeps I (retry scanner state env) := by
  unfold WebSocket.retry
  split
  · exact keeps_seq (h.emit rfl) (h.visit _)
  · exact keeps_skip I

/-! ### Answers -/

theorem Rules.sessionLogon (m : Json.WSAPIMessage) (env : Answers) :
    Keeps I (wsapiSessionLogon scanner m env) := by
  unfold wsapiSessionLogon
  split
  · exact keeps_seq (h.emit rfl) (h.visit _)
  · exact h.retry _ _

/-- A listen key is published, and the deadline is set. -/
theorem Rules.listenKey
    (hpublish : ∀ listenKey, Keeps I fun w : World R =>
      ({ w with socket.listenKey := listenKey }, [.listenKeyAck listenKey, .listenKeyUpdate listenKey]))
    (hset : ∀ t, Keeps I (Machine.modify fun w : World R => { w with socket.listenKeyRefresh := t }))
    (m : Json.WSAPIMessage) (env : Answers) : Keeps I (wsapiListenKey scanner settings m env) := by
  unfold wsapiListenKey
  split
  · exact keeps_seq (hpublish _) (keeps_seq (h.emit rfl) (keeps_seq (h.visit _)
      (keeps_seq (hset _) (keeps_skip I))))
  · exact h.retry _ _

/-! ### Orders -/

theorem Rules.sendEncoded (body : Except Exn String) (call : Call) :
    Keeps I (sendEncoded scanner body call) := by
  cases body with
  | ok body => exact h.send call
  | error e => exact h.frame (fun _ => rfl) fun _ o ho => by rw [List.mem_singleton.mp ho]; rfl

/-- An order request goes out only if the stream is ready. -/
theorem Rules.whenReady {f : Act R} (hf : Keeps I f) :
    Keeps I fun w => if isReady w then f w else (w, [.throws (.notReady "not ready")]) := by
  refine keeps_of_eq fun w => ?_
  split
  · exact ⟨f, rfl, hf⟩
  · exact ⟨Machine.emit _, rfl, h.emit rfl⟩

theorem Rules.orderPlace (m : CreateOrder) (userId : UserId) (body : Except Exn String) :
    Keeps I (orderPlace scanner m userId body) := by
  have hsymbol : Keeps I (Machine.modify fun w : World R => { w with
      socket.openOrdersSymbols := emplace w.socket.openOrdersSymbols m.symbol }) :=
    h.modify fun _ => rfl
  exact h.whenReady (keeps_seq hsymbol (h.sendEncoded _ _))

/-! ### Timers -/

/-- A slot that is served sends its request. -/
theorem Rules.checkPending {c : Slot} {now : Nanos} {gate : Slot → Bool}
    (hslot : Keeps I (Machine.modify fun w : World R => { w with
      request := w.request.checkPending c now (gate c) })) (call : Call) :
    Keeps I (checkPending scanner c call now gate) := by
  refine keeps_of_eq fun w => ?_
  unfold WebSocket.checkPending
  dsimp only
  split
  · exact ⟨_, rfl, keeps_seq hslot (h.send call)⟩
  · exact ⟨_, rfl, hslot⟩

/-- A listen key that is due is refreshed. -/
theorem Rules.ping
    (hset : ∀ t, Keeps I (Machine.modify fun w : World R => { w with socket.listenKeyRefresh := t }))
    (now : Nanos) : Keeps I (userDataStreamPing scanner settings now) := by
  refine keeps_of_eq fun w => ?_
  unfold userDataStreamPing
  split
  · exact ⟨skip, rfl, keeps_skip I⟩
  · split
    · exact ⟨skip, rfl, keeps_skip I⟩
    · split
      · exact ⟨skip, rfl, keeps_skip I⟩
      · exact ⟨_, rfl, keeps_seq (hset _) (h.send _)⟩

omit h in
theorem keeps_force
    (hset : ∀ t, Keeps I (Machine.modify fun w : World R => { w with socket.listenKeyRefresh := t }))
    (hvain : Keeps I (Machine.emit [.noListenKeyRefresh])) (now : Nanos) :
    Keeps I (forceListenKeyRefresh now) := by
  refine keeps_of_eq fun w => ?_
  unfold forceListenKeyRefresh
  split
  · exact ⟨_, rfl, hset _⟩
  · exact ⟨_, rfl, hvain⟩

omit h in
/-- A timer keeps what refreshing the listen key and serving the slots keep. -/
theorem keeps_timer {now : Nanos} {gate : Slot → Bool}
    (hping : Keeps I (userDataStreamPing scanner settings now))
    (hqueue : Keeps I (checkRequestQueue scanner now gate)) (refresh : Bool) :
    Keeps I (step scanner settings (.timer now refresh gate)) :=
  keeps_guarded _ fun out w _ =>
    keeps_seq hping (keeps_guarded _ fun out w _ => hqueue out w) out w

/-! ### Events -/

/-- The session ends, and with it what has been asked in it. -/
theorem Rules.disconnected (hclear : Keeps I fun w : World R =>
      ({ w with socket.calls := w.socket.calls.clear }, [.sessionEnd])) :
    Keeps I disconnected :=
  keeps_seq (h.setStatus _ _) (keeps_seq (h.emit rfl) (keeps_seq hclear (keeps_skip I)))

/-- Every event keeps the invariant, if those do that are about the memory. -/
theorem Rules.step {e : Event} {out : List Output} {w : World R}
    (htimer : ∀ now refresh gate, e = .timer now refresh gate →
      Keeps I (WebSocket.step scanner settings (.timer now refresh gate)))
    (hforce : ∀ now, e = .forceListenKeyRefresh now → Keeps I (forceListenKeyRefresh now))
    (hdisconnected : e = .disconnected →
      I (out ++ (WebSocket.disconnected w).2) (WebSocket.disconnected w).1)
    (hanswer : ∀ n reply arrangement env d, e = .answer n reply arrangement env d →
      I (out ++ (answer scanner settings n reply arrangement env d w).2)
        (answer scanner settings n reply arrangement env d w).1)
    (hI : I out w) :
    I (out ++ (WebSocket.step scanner settings e w).2) (WebSocket.step scanner settings e w).1 := by
  cases e with
  | start | stop | binary | cancelAllOrders m => exact h.emit rfl out w hI
  | connected | close | latency => exact keeps_skip I out w hI
  | disconnected => exact hdisconnected rfl
  | ready visits => exact keeps_seq (h.emit rfl) (h.visit visits) out w hI
  | timer now refresh gate => exact htimer now refresh gate rfl out w hI
  | forceListenKeyRefresh now => exact hforce now rfl out w hI
  | answer n reply arrangement env d => exact hanswer n reply arrangement env d rfl
  | createOrder m userId body => exact h.orderPlace m userId body out w hI
  | modifyOrder m userId body => exact h.whenReady (h.sendEncoded body _) out w hI
  | cancelOrder m userId body => exact h.whenReady (h.sendEncoded body _) out w hI

end

end BinanceFutures.WebSocket
