import BinanceFutures.Gateway.Lifecycle
import BinanceFutures.Gateway.SocketMemory
import BinanceFutures.Schemes.Machine

/-! # Deadlines of listen keys

    An order-entry stream has a deadline by which it refreshes its listen key, and none as long as it has
    no listen key. The drop copy is created on the stream's word, and removed by the controller, which
    then has the stream refresh earlier; a stream without a deadline would only log an error.

        order entry ── ListenKeyUpdate ─▶ drop copy            deadline now + listen_key_refresh
        timer, drop copy removed ── force_listen_key_refresh ─▶ deadline now + 10s

    The two are in different classes, and what relates them is what the stream has published: that is what
    a drop copy is created from, and it comes with a deadline. -/

namespace BinanceFutures
open Machine

/-! ### REST streams -/

namespace RestStream

/-- A listen key is published. -/
def Output.announces (o : Output) : Prop := ∃ listenKey, o.latchEvent = some (.offer listenKey)

/-- The time at which an answer is handled. -/
def Event.answered : Event → Option Nanos
  | .answer _ _ _ env _ => some env.now
  | _ => none

/-- A refresh is forced. -/
def Event.forces : Event → Bool
  | .forceListenKeyRefresh _ => true
  | _ => false

theorem silent_common {o : Output} (h : o.common = true) :
    ¬ (o.announces ∨ o = .noListenKeyRefresh) := by
  rintro (⟨listenKey, hoffer⟩ | rfl)
  · rw [latchEvent_plain (plain_of_common h)] at hoffer
    cases hoffer
  · cases h

section
variable {R : LimitRequest} (settings : Settings) {b : Prop}

/-- A stream that has published a listen key has a deadline. -/
abbrev Scheduled (b : Prop) : List Output → World R → Prop :=
  Dated (·.stream.listenKeyRefresh) Output.announces (· = .noListenKeyRefresh) b

theorem rules_scheduled : Rules (R := R) settings (Scheduled b) where
  frame hmemory hcommon := by
    refine keeps_dated_of_frame (fun w => ?_) fun w o ho => ?_
    · exact congrArg (fun m => m.2.2.1) (hmemory w)
    · exact silent_common (by simpa using hcommon w o ho)
  openOrder item := by
    refine keeps_dated_of_frame (fun w => ?_) fun w o ho => ?_
    · unfold openOrder
      split <;> rfl
    · unfold openOrder at ho
      split at ho <;> simp only [List.mem_cons, List.not_mem_nil, or_false] at ho
      · simp [ho, Output.announces, Output.latchEvent]
      · rcases ho with rfl | rfl <;> simp [Output.announces, Output.latchEvent]
  orderPlace m userId body := by
    refine keeps_dated_of_frame (fun w => ?_) fun w o ho => ?_
    · unfold orderPlace
      cases body <;> split <;> rfl
    · unfold orderPlace at ho
      cases body <;> split at ho <;> rw [List.mem_singleton.mp ho] <;>
        simp [Output.announces, Output.latchEvent]

/-- A listen key that is due is refreshed, and is due again later. -/
theorem scheduled_refreshListenKey (now : Nanos) :
    Keeps (Scheduled (R := R) b) (refreshListenKey settings now) := by
  refine keeps_dated fun w => ?_
  unfold refreshListenKey
  split
  next => exact dated_nil w
  next hdue =>
    rw [not_or, not_lt] at hdue
    have hnow : 0 < now := lt_of_lt_of_le (Nat.pos_of_ne_zero hdue.1) hdue.2
    refine ⟨fun _ => (Nat.add_pos_left hnow _).ne', fun o ho => ?_⟩
    rw [List.mem_singleton.mp ho]
    nofun

theorem scheduled_listenKeyAck {now : Nanos} (hnow : 0 < now) (listenKey : String) :
    Keeps (Scheduled (R := R) b) (listenKeyAck settings now listenKey) := by
  refine keeps_dated_of_set (fun w => (Nat.add_pos_left hnow _).ne') fun w o ho => ?_
  simp only [listenKeyAck, List.mem_cons] at ho
  rintro rfl
  rcases ho with heq | ho
  · cases heq
  · split at ho
    · cases List.mem_singleton.mp ho
    · cases ho

/-- A refresh that is forced on a stream with a deadline puts it off. -/
theorem forceListenKeyRefresh_eq (now : Nanos) {w : World R} (h : w.stream.listenKeyRefresh ≠ 0) :
    forceListenKeyRefresh now w
      = ({ w with stream.listenKeyRefresh := now + defaultListenKeyRefreshDelay }, []) :=
  if_pos h

/-- Every event keeps the deadline, if none is forced where there is none. -/
theorem scheduled_step {e : Event} (hanswered : ∀ now, e.answered = some now → 0 < now) {w : World R}
    (hforces : e.forces = true → w.stream.listenKeyRefresh ≠ 0) :
    Scheduled (w.stream.listenKeyRefresh ≠ 0) (step settings e w).2 (step settings e w).1 := by
  cases hforce : e.forces with
  | true =>
    obtain ⟨now, rfl⟩ : ∃ now, e = .forceListenKeyRefresh now := by
      cases e <;> first | cases hforce; done | exact ⟨_, rfl⟩
    rw [step, forceListenKeyRefresh_eq now (hforces hforce)]
    exact ⟨fun _ => by simp [defaultListenKeyRefreshDelay, seconds], by simp⟩
  | false =>
    refine Rules.step (I := fun _ => Scheduled (w.stream.listenKeyRefresh ≠ 0))
      (fun _ => rules_scheduled settings) (fun now _ _ _ _ => scheduled_refreshListenKey settings now)
      (fun now heq => ?_) (fun n listenKey env d heq => ?_) (dated_nil w)
    · rw [heq] at hforce
      cases hforce
    · exact scheduled_listenKeyAck settings (hanswered env.now (by rw [heq]; rfl)) listenKey

theorem rules_deadline (t : Nanos) :
    Rules (R := R) settings (fun _ w => w.stream.listenKeyRefresh = t) where
  frame hmemory _ := by
    intro out w h
    exact (congrArg (fun m => m.2.2.1) (hmemory w)).trans h
  openOrder item := by
    intro out w h
    unfold openOrder
    split <;> exact h
  orderPlace m userId body := by
    intro out w h
    unfold orderPlace
    cases body <;> split <;> exact h

/-- A timer before the deadline leaves it. -/
theorem deadline_timer {now : Nanos} (refresh : Bool) (gate : Slot → Bool) (d : Dispatcher) {w : World R}
    (h : now < w.stream.listenKeyRefresh) :
    (step settings (.timer now refresh gate d) w).1.stream.listenKeyRefresh
      = w.stream.listenKeyRefresh := by
  have hrefresh : Keeps (fun (_ : List Output) (w' : World R) =>
      w'.stream.listenKeyRefresh = w.stream.listenKeyRefresh) (refreshListenKey settings now) := by
    intro out w' h'
    have hearly : w'.stream.listenKeyRefresh = 0 ∨ now < w'.stream.listenKeyRefresh :=
      Or.inr (h' ▸ h)
    unfold refreshListenKey
    rw [if_pos hearly]
    exact h'
  have hrules := rules_deadline (R := R) settings w.stream.listenKeyRefresh
  exact keeps_guarded (I := fun _ w' => w'.stream.listenKeyRefresh = w.stream.listenKeyRefresh) _
    (fun out w' _ h' => hrules.timer hrefresh gate d w'.stream.kind out w' h') [] w rfl

end

end RestStream

/-! ### `WebSocket` -/

namespace WebSocket

/-- A listen key is published. -/
def Output.announces (o : Output) : Prop := ∃ listenKey, o.latchEvent = some (.offer listenKey)

/-- The time at which an answer is handled. -/
def Event.answered : Event → Option Nanos
  | .answer _ _ _ env _ => some env.now
  | _ => none

/-- A refresh is forced. -/
def Event.forces : Event → Bool
  | .forceListenKeyRefresh _ => true
  | _ => false

section
variable {R : LimitRequest} (scanner : Json.Scanner) (settings : Settings) {b : Prop}

/-- A socket that has published a listen key has a deadline. -/
abbrev Scheduled (b : Prop) : List Output → World R → Prop :=
  Dated (·.socket.listenKeyRefresh) Output.announces (· = .noListenKeyRefresh) b

/-- No listen key is published, and no refresh is forced in vain. -/
def Output.undated : Output → Bool
  | .listenKeyUpdate _ | .noListenKeyRefresh => false
  | _ => true

theorem silent_undated {o : Output} (h : o.undated = true) :
    ¬ (o.announces ∨ o = .noListenKeyRefresh) := by
  rintro (⟨listenKey, hoffer⟩ | rfl)
  · cases o <;> first | cases hoffer; done | cases h
  · cases h

theorem scheduled_of_frame {f : Act R} (hframe : Frame (·.socket.listenKeyRefresh) f)
    (hundated : ∀ w, ∀ o ∈ (f w).2, o.undated = true) : Keeps (Scheduled b) f :=
  keeps_dated_of_frame hframe fun w o ho => silent_undated (hundated w o ho)

theorem rules_scheduled : Rules scanner (Scheduled (R := R) b) where
  frame hmemory hcommon := by
    refine scheduled_of_frame (fun w => congrArg (fun m => m.2.2) (hmemory w)) fun w o ho => ?_
    have ho := hcommon w o ho
    cases o <;> first | rfl | cases ho
  send call := scheduled_of_frame (fun _ => rfl) fun _ o ho => by rw [List.mem_singleton.mp ho]; rfl

theorem scheduled_publish {f : Act R} (hf : Publishes f) : Keeps (Scheduled b) f := by
  refine scheduled_of_frame (fun w => by rw [(hf w).1]) fun w o ho => ?_
  have ho := (hf w).2 o ho
  cases o <;> first | rfl | cases ho

/-- The listen key is published before the deadline is set. -/
theorem scheduled_wsapiListenKey (m : Json.WSAPIMessage) {env : Answers} (hnow : 0 < env.now) :
    Keeps (Scheduled (R := R) b) (wsapiListenKey scanner settings m env) := by
  unfold wsapiListenKey
  split
  · refine keeps_dated_of_set (fun w => (Nat.add_pos_left hnow _).ne') ?_
    refine silent_seq (fun w o ho => ?_) (silent_seq (fun w o ho => ?_)
      (silent_seq (fun w o ho => ?_) (silent_seq (fun w o ho => ?_) (silent_skip _))))
    · simp only [List.mem_cons, List.not_mem_nil, or_false] at ho
      rcases ho with rfl | rfl <;> nofun
    · rw [List.mem_singleton.mp ho]
      nofun
    · have hvisit := (rules_scheduled scanner (b := False)).visit env.visits [] w ⟨by simp, by simp⟩
      exact hvisit.spared o ho
    · cases ho
  · exact (rules_scheduled scanner).retry _ env

/-- A listen key that is due is refreshed, and is due again later. -/
theorem scheduled_userDataStreamPing (now : Nanos) :
    Keeps (Scheduled (R := R) b) (userDataStreamPing scanner settings now) := by
  refine keeps_dated fun w => ?_
  unfold userDataStreamPing
  split
  · exact dated_nil w
  · split
    · exact dated_nil w
    · split
      next => exact dated_nil w
      next hdue =>
        rw [not_or, not_lt] at hdue
        have hnow : 0 < now := lt_of_lt_of_le (Nat.pos_of_ne_zero hdue.1) hdue.2
        refine ⟨fun _ => (Nat.add_pos_left hnow _).ne', fun o ho => ?_⟩
        rw [List.mem_singleton.mp ho]
        nofun

theorem scheduled_handle (m : Json.WSAPIMessage) (request : Json.WSAPIRequest) {env : Answers}
    (hnow : 0 < env.now) (d : Dispatcher) :
    Keeps (Scheduled (R := R) b) (handle scanner settings m request env d) := by
  unfold handle
  cases request.type with
  | undefinedInternal | unknownInternal | accountPosition => exact keeps_skip _
  | userDataStreamStart | userDataStreamPing => exact scheduled_wsapiListenKey scanner settings m hnow
  | ordersStatus | myTrades => exact (rules_scheduled scanner).emit rfl
  | accountBalance | accountStatus =>
    exact scheduled_of_frame (fun _ => rfl) fun _ o ho => by rw [List.mem_singleton.mp ho]; rfl
  | sessionLogon => exact (rules_scheduled scanner).sessionLogon m env
  | openOrdersCancelAll => exact scheduled_publish (publishes_openOrdersCancelAll settings m)
  | orderPlace => exact scheduled_publish (publishes_orderPlace settings m request env)
  | orderModify => exact scheduled_publish (publishes_orderModify scanner settings m request)
  | orderCancel => exact scheduled_publish (publishes_orderCancel settings m request env d)

theorem scheduled_answer (n : ℕ) (reply : Json.Reply) (arrangement : Json.Arrangement) {env : Answers}
    (hnow : 0 < env.now) (d : Dispatcher) :
    Keeps (Scheduled (R := R) b) (answer scanner settings n reply arrangement env d) := by
  have hsettle : Keeps (Scheduled (R := R) b) (modify fun w => { w with
      socket.calls := w.socket.calls.settle n }) :=
    scheduled_of_frame (fun _ => rfl) fun _ _ ho => by cases ho
  have hanswered : Keeps (Scheduled (R := R) b) (emit [.answered n reply]) :=
    scheduled_of_frame (fun _ => rfl) fun _ o ho => by rw [List.mem_singleton.mp ho]; rfl
  refine keeps_of_eq fun w => ?_
  unfold answer
  split
  · exact ⟨skip, rfl, keeps_skip _⟩
  · refine ⟨_, rfl, keeps_seq hsettle (keeps_seq hanswered (keeps_seq ?_ (keeps_skip _)))⟩
    unfold text
    split
    · exact (rules_scheduled scanner).emit rfl
    · exact keeps_map fun request _ => scheduled_handle scanner settings _ request hnow d

/-- A timer keeps what refreshing the listen key keeps. -/
theorem scheduled_timer (now : Nanos) (refresh : Bool) (gate : Slot → Bool) :
    Keeps (Scheduled (R := R) b) (step scanner settings (.timer now refresh gate)) := by
  have hslot : ∀ c, Keeps (Scheduled (R := R) b) (modify fun w =>
      { w with request := w.request.checkPending c now (gate c) }) := fun c =>
    scheduled_of_frame (fun _ => rfl) fun _ _ ho => by cases ho
  have hrules := rules_scheduled (R := R) scanner (b := b)
  exact keeps_timer settings (scheduled_userDataStreamPing scanner settings now)
    (keeps_seq (hrules.checkPending (hslot .balances) _) (hrules.checkPending (hslot .positions) _))
    refresh

theorem forceListenKeyRefresh_eq (now : Nanos) {w : World R} (h : w.socket.listenKeyRefresh ≠ 0) :
    forceListenKeyRefresh now w
      = ({ w with socket.listenKeyRefresh := now + defaultListenKeyRefreshDelay }, []) :=
  if_pos h

theorem scheduled_step {e : Event} (hanswered : ∀ now, e.answered = some now → 0 < now) {w : World R}
    (hforces : e.forces = true → w.socket.listenKeyRefresh ≠ 0) :
    Scheduled (w.socket.listenKeyRefresh ≠ 0) (step scanner settings e w).2
      (step scanner settings e w).1 := by
  cases hforce : e.forces with
  | true =>
    obtain ⟨now, rfl⟩ : ∃ now, e = .forceListenKeyRefresh now := by
      cases e <;> first | cases hforce; done | exact ⟨_, rfl⟩
    rw [step, forceListenKeyRefresh_eq now (hforces hforce)]
    exact ⟨fun _ => by simp [defaultListenKeyRefreshDelay, seconds], by simp⟩
  | false =>
    refine (rules_scheduled scanner).step settings
      (fun now refresh gate _ => scheduled_timer scanner settings now refresh gate)
      (fun now heq => ?_) (fun _ => ?_) (fun n reply arrangement env d heq => ?_) (dated_nil w)
    · rw [heq] at hforce
      cases hforce
    · have hclear : Keeps (Scheduled (R := R) (w.socket.listenKeyRefresh ≠ 0))
          (fun w => ({ w with socket.calls := w.socket.calls.clear }, [.sessionEnd])) :=
        scheduled_of_frame (fun _ => rfl) fun _ o ho => by rw [List.mem_singleton.mp ho]; rfl
      exact (rules_scheduled scanner).disconnected hclear [] w (dated_nil w)
    · have hnow : 0 < env.now := hanswered env.now (by rw [heq]; rfl)
      exact scheduled_answer scanner settings n reply arrangement hnow d [] w (dated_nil w)

/-- A timer before the deadline leaves it. -/
theorem deadline_timer {now : Nanos} (refresh : Bool) (gate : Slot → Bool) {w : World R}
    (h : now < w.socket.listenKeyRefresh) :
    (step scanner settings (.timer now refresh gate) w).1.socket.listenKeyRefresh
      = w.socket.listenKeyRefresh := by
  let I : List Output → World R → Prop := fun _ w' =>
    w'.socket.listenKeyRefresh = w.socket.listenKeyRefresh
  have hping : Keeps I (userDataStreamPing scanner settings now) := by
    intro out w' h'
    have hearly : w'.socket.listenKeyRefresh = 0 ∨ now < w'.socket.listenKeyRefresh :=
      Or.inr (h'.symm ▸ h)
    unfold userDataStreamPing
    rw [if_pos hearly, ite_self, ite_self]
    exact h'
  have hpending : ∀ c call, Keeps I (checkPending scanner c call now gate) := by
    intro c call out w' h'
    unfold checkPending
    dsimp only
    split <;> exact h'
  exact keeps_timer settings hping (keeps_seq (hpending _ _) (hpending _ _)) refresh [] w rfl

end

end WebSocket

/-! ### Accounts -/

/-- `listen_key_refresh_` of whichever class it is. -/
def OrderEntry.listenKeyRefresh : OrderEntry → Nanos
  | .webSocket socket => socket.listenKeyRefresh
  | .rest stream => stream.listenKeyRefresh

namespace Controller
open Machine.Family

/-- The deadline of the account's order entry. -/
def deadline {R : LimitRequest} (s : Slice R) : Nanos := s.orderEntry.listenKeyRefresh

/-- A listen key is published. -/
def Output.announces (o : Output) : Prop := ∃ listenKey, o.latchEvent = some (.offer listenKey)

/-- A refresh has been forced on a stream that has no deadline. -/
def Output.vain (o : Output) : Prop :=
  o = .rest .noListenKeyRefresh ∨ o = .webSocket .noListenKeyRefresh

/-- It is not of the order entry. -/
def Output.aside : Output → Bool
  | .rest _ | .webSocket _ => false
  | _ => true

/-- Answers to order entries are handled at a time that is positive. -/
def Event.Timely : Event → Prop
  | .rest _ e => ∀ now, e.answered = some now → 0 < now
  | .webSocket _ e => ∀ now, e.answered = some now → 0 < now
  | _ => True

section
variable {R : LimitRequest} (scanner : Json.Scanner) (settings : Settings) {b : Prop}

/-- A listen key that has been published has a deadline. -/
abbrev Due (b : Prop) : List Output → Slice R → Prop := Dated deadline Output.announces Output.vain b

/-! ### What the streams keep -/

theorem silent_createDropCopyHelper (variant : Variant) (listenKey : String) :
    Silent Output.vain (createDropCopyHelper (R := R) settings variant listenKey) := by
  intro s o ho
  unfold createDropCopyHelper at ho
  split at ho
  · cases ho
  · rcases List.mem_cons.mp ho with rfl | ho
    · rintro (h | h) <;> cases h
    · obtain ⟨o', _, rfl⟩ := List.mem_map.mp ho
      rintro (h | h) <;> cases h

theorem silent_handleRest (kind : RestStream.Kind) {o : RestStream.Output}
    (h : o ≠ .noListenKeyRefresh) : Silent Output.vain (handleRest (R := R) settings kind o) := by
  have hemit : Silent Output.vain (emit [.rest o] : Act R) := by
    intro s o' ho'
    rw [List.mem_singleton.mp ho']
    rintro (heq | heq)
    · exact h (Output.rest.inj heq)
    · cases heq
  cases o with
  | listenKeyUpdate listenKey => exact silent_seq hemit (silent_createDropCopyHelper settings _ _)
  | _ => exact hemit

theorem silent_handleWebSocket {o : WebSocket.Output} (h : o ≠ .noListenKeyRefresh) :
    Silent Output.vain (handleWebSocket (R := R) settings o) := by
  have hemit : Silent Output.vain (emit [.webSocket o] : Act R) := by
    intro s o' ho'
    rw [List.mem_singleton.mp ho']
    rintro (heq | heq)
    · cases heq
    · exact h (Output.webSocket.inj heq)
  cases o with
  | listenKeyUpdate listenKey => exact silent_seq hemit (silent_createDropCopyHelper settings _ _)
  | _ => exact hemit

/-- The handlers of what a stream puts out announce what it announces, and nothing in vain. -/
theorem due_handlers {σ α : Type} {due : σ → ℕ} {vain : α → Prop} {handle : α → Act R}
    {latchEvent : α → Option (Latch.Event String)} {os : List α} {t : σ}
    (htrace : ∀ o s, trace (handle o s).2 = (latchEvent o).toList)
    (hsilent : ∀ o, ¬ vain o → Silent Output.vain (handle o))
    (h : Dated due (fun o => ∃ listenKey, latchEvent o = some (.offer listenKey)) vain b os t)
    (s : Slice R) {s' : Slice R} (hdeadline : deadline s' = due t) :
    Due b (seqAll (os.map handle) s).2 s' := by
  refine ⟨fun hb => ?_, ?_⟩
  · rw [hdeadline]
    refine h.due_ne_zero (hb.imp_right ?_)
    rintro ⟨o, ho, listenKey, hoffer⟩
    have hmem : .offer listenKey ∈ trace (seqAll (os.map handle) s).2 :=
      List.mem_filterMap.mpr ⟨o, ho, hoffer⟩
    rw [trace, filterMap_seqAll htrace] at hmem
    obtain ⟨o', ho', hoffer'⟩ := List.mem_filterMap.mp hmem
    exact ⟨o', ho', listenKey, hoffer'⟩
  · refine silent_map (fun o ho => ?_) s
    exact hsilent o (h.spared o ho)

/-- A turn of the order entry keeps its deadline, if none is forced where there is none. -/
theorem due_onRest {e : RestStream.Event} (hanswered : ∀ now, e.answered = some now → 0 < now)
    {s : Slice R} (hforces : e.forces = true → deadline s ≠ 0) :
    Due (deadline s ≠ 0) (onRest settings e s).2 (onRest settings e s).1 := by
  cases hentry : s.orderEntry with
  | webSocket socket =>
    rw [onRest_of_webSocket settings e hentry]
    exact dated_nil s
  | rest stream =>
    have hbefore : deadline s = stream.listenKeyRefresh := by
      rw [deadline, hentry, OrderEntry.listenKeyRefresh]
    rw [hbefore] at hforces ⊢
    have hturn := RestStream.scheduled_step settings hanswered (w := ⟨stream, s.request⟩) hforces
    have hafter : deadline (onRest settings e s).1
        = (RestStream.step settings e ⟨stream, s.request⟩).1.stream.listenKeyRefresh :=
      congrArg (fun x => x.2.1.listenKeyRefresh) (wiring_onRest settings e hentry)
    unfold onRest at hafter ⊢
    rw [hentry] at hafter ⊢
    exact due_handlers (trace_handleRest settings stream.kind)
      (fun o ho => silent_handleRest settings stream.kind ho) hturn _ hafter

theorem due_onWebSocket {e : WebSocket.Event} (hanswered : ∀ now, e.answered = some now → 0 < now)
    {s : Slice R} (hforces : e.forces = true → deadline s ≠ 0) :
    Due (deadline s ≠ 0) (onWebSocket scanner settings e s).2 (onWebSocket scanner settings e s).1 := by
  cases hentry : s.orderEntry with
  | rest stream =>
    rw [onWebSocket_of_rest scanner settings e hentry]
    exact dated_nil s
  | webSocket socket =>
    have hbefore : deadline s = socket.listenKeyRefresh := by
      rw [deadline, hentry, OrderEntry.listenKeyRefresh]
    rw [hbefore] at hforces ⊢
    have hturn := WebSocket.scheduled_step scanner settings hanswered (w := ⟨socket, s.request⟩) hforces
    have hafter : deadline (onWebSocket scanner settings e s).1
        = (WebSocket.step scanner settings e ⟨socket, s.request⟩).1.socket.listenKeyRefresh :=
      congrArg (fun x => x.2.1.listenKeyRefresh) (wiring_onWebSocket scanner settings e hentry)
    unfold onWebSocket at hafter ⊢
    rw [hentry] at hafter ⊢
    exact due_handlers (trace_handleWebSocket settings)
      (fun o ho => silent_handleWebSocket settings ho) hturn _ hafter

theorem silent_aside {f : Act R} (h : ∀ s, ∀ o ∈ (f s).2, o.aside = true) :
    Silent (fun o => o.announces ∨ o.vain) f := by
  intro s o ho
  have haside := h s o ho
  rintro (⟨listenKey, hoffer⟩ | rfl | rfl)
  · cases o <;> first | cases haside; done | cases hoffer
  · cases haside
  · cases haside

theorem due_onDropCopy (e : DropCopy.Event) : Keeps (Due (R := R) b) (onDropCopy settings e) := by
  have hhandle : ∀ o, Silent (fun o => o.announces ∨ o.vain) (handleDropCopy (R := R) o) := by
    refine fun o => silent_aside fun s o' ho' => ?_
    obtain rfl : o' = .dropCopy o := by cases o <;> exact List.mem_singleton.mp ho'
    rfl
  refine keeps_dated_of_frame (fun s => ?_) fun s => ?_
  · exact congrArg (fun x => x.2.1.listenKeyRefresh) (frame_onDropCopy settings e s)
  · unfold onDropCopy
    split
    · exact silent_skip _ s
    · refine silent_map (fun o _ => ?_) _
      exact hhandle o

theorem due_onDownload (e : RestStream.Event) : Keeps (Due (R := R) b) (onDownload settings e) := by
  refine keeps_dated_of_frame (fun s => ?_) (silent_aside fun s o ho => ?_)
  · unfold onDownload
    split <;> rfl
  · unfold onDownload at ho
    split at ho
    · cases ho
    · obtain ⟨o', _, rfl⟩ := List.mem_map.mp ho
      rfl

/-- A turn of the order entry that forces nothing. -/
theorem due_onOrderEntry {rest : RestStream.Event} {webSocket : WebSocket.Event}
    (hrest : rest.answered = none ∧ rest.forces = false)
    (hsocket : webSocket.answered = none ∧ webSocket.forces = false) :
    Keeps (Due (R := R) b) (onOrderEntry scanner settings rest webSocket) := by
  refine keeps_seq (keeps_dated fun s => due_onRest settings ?_ ?_)
    (keeps_dated fun s => due_onWebSocket scanner settings ?_ ?_)
  · rw [hrest.1]
    nofun
  · rw [hrest.2]
    nofun
  · rw [hsocket.1]
    nofun
  · rw [hsocket.2]
    nofun

/-! ### Drop copies that are removed -/

/-- A forced refresh puts off a deadline that is there. -/
theorem due_force (now : Nanos) {s : Slice R} (h : deadline s ≠ 0) :
    Due (deadline s ≠ 0) (onOrderEntry scanner settings (.forceListenKeyRefresh now)
        (.forceListenKeyRefresh now) s).2
      (onOrderEntry scanner settings (.forceListenKeyRefresh now) (.forceListenKeyRefresh now) s).1 := by
  have hrest := due_onRest settings (e := .forceListenKeyRefresh now) (by nofun) fun _ => h
  have hstill := hrest.due_ne_zero (Or.inl h)
  exact dated_append hrest
    (due_onWebSocket scanner settings (e := .forceListenKeyRefresh now) (by nofun) fun _ => hstill)

theorem deadline_force (now : Nanos) {s : Slice R} (h : deadline s ≠ 0) :
    deadline (onOrderEntry scanner settings (.forceListenKeyRefresh now)
      (.forceListenKeyRefresh now) s).1 = now + RestStream.defaultListenKeyRefreshDelay := by
  cases hentry : s.orderEntry with
  | rest stream =>
    have hwiring := wiring_onRest settings (.forceListenKeyRefresh now) hentry
    have hdue : (⟨stream, s.request⟩ : RestStream.World R).stream.listenKeyRefresh ≠ 0 := by
      rwa [deadline, hentry] at h
    rw [RestStream.step, RestStream.forceListenKeyRefresh_eq now hdue] at hwiring
    have hafter := congrArg (fun x => x.2.1) hwiring
    rw [onOrderEntry, seq_fst, onWebSocket_of_rest scanner settings _ hafter, deadline]
    exact congrArg OrderEntry.listenKeyRefresh hafter
  | webSocket socket =>
    have hwiring := wiring_onWebSocket scanner settings (.forceListenKeyRefresh now) hentry
    have hdue : (⟨socket, s.request⟩ : WebSocket.World R).socket.listenKeyRefresh ≠ 0 := by
      rwa [deadline, hentry] at h
    rw [WebSocket.step, WebSocket.forceListenKeyRefresh_eq now hdue] at hwiring
    rw [onOrderEntry, seq_fst, onRest_of_webSocket settings _ hentry]
    exact congrArg (fun x => x.2.1.listenKeyRefresh) hwiring

/-- A timer before the deadline leaves it. -/
theorem deadline_orderEntryTimer {now : Nanos} (answers : TimerAnswers) {s : Slice R}
    (h : now < deadline s) :
    deadline (orderEntryTimer scanner settings now answers s).1 = deadline s := by
  cases hentry : s.orderEntry with
  | rest stream =>
    have hwiring := wiring_onRest settings
      (.timer now answers.orderEntryRefresh answers.orderEntryGate answers.d) hentry
    have hafter := congrArg (fun x => x.2.1) hwiring
    have hbefore : deadline s = stream.listenKeyRefresh := by
      rw [deadline, hentry, OrderEntry.listenKeyRefresh]
    rw [hbefore] at h ⊢
    rw [orderEntryTimer, onOrderEntry, seq_fst, onWebSocket_of_rest scanner settings _ hafter]
    exact (congrArg OrderEntry.listenKeyRefresh hafter).trans
      (RestStream.deadline_timer settings _ _ _ h)
  | webSocket socket =>
    have hwiring := wiring_onWebSocket scanner settings
      (.timer now answers.orderEntryRefresh answers.orderEntryGate) hentry
    have hbefore : deadline s = socket.listenKeyRefresh := by
      rw [deadline, hentry, OrderEntry.listenKeyRefresh]
    rw [hbefore] at h ⊢
    rw [orderEntryTimer, onOrderEntry, seq_fst, onRest_of_webSocket settings _ hentry]
    exact (congrArg (fun x => x.2.1.listenKeyRefresh) hwiring).trans
      (WebSocket.deadline_timer scanner settings _ _ h)

/-- The listen keys that have been published have a deadline, and the drop copy is from one of them. -/
structure Bound (out : List Output) (s : Slice R) : Prop where
  due : Due False out s
  held : heldKey s = Latch.held (trace out)
  ok : Ok s

theorem Bound.deadline_ne_zero {out : List Output} {s : Slice R} (h : Bound out s)
    (hdrop : s.dropCopy.isSome = true) : deadline s ≠ 0 := by
  obtain ⟨d, hd⟩ := Option.isSome_iff_exists.mp hdrop
  have hheld : Latch.held (trace out) = some d.listenKey := by
    rw [← h.held, heldKey, hd, Option.map_some]
  obtain ⟨o, ho, hoffer⟩ := List.mem_filterMap.mp (Latch.offer_mem_of_held hheld)
  exact h.due.due_ne_zero (Or.inr ⟨o, ho, d.listenKey, hoffer⟩)

theorem Bound.deadline_of_zombie {out : List Output} {s : Slice R} (h : Bound out s)
    (hzombie : s.zombie = true) : deadline s ≠ 0 := by
  obtain ⟨d, hd, -⟩ := h.ok hzombie
  exact h.deadline_ne_zero (by rw [hd]; rfl)

theorem reap_of_zombie (now : Nanos) {s : Slice R} (h : s.zombie = true) :
    reap scanner settings now s = seqAll [
      fun s => ({ s with dropCopy := none }, [.dropCopyRemoved]),
      onOrderEntry scanner settings (.forceListenKeyRefresh now) (.forceListenKeyRefresh now),
      modify fun s => { s with zombie := false }] s := by
  rw [reap, guarded, if_pos h]

theorem due_reap (now : Nanos) {out : List Output} {s : Slice R} (h : Bound out s) :
    Due False (out ++ (reap scanner settings now s).2) (reap scanner settings now s).1 := by
  cases hzombie : s.zombie with
  | false =>
    have hskip : reap scanner settings now s = (s, []) := by simp [reap, guarded, hzombie]
    rw [hskip, List.append_nil]
    exact h.due
  | true =>
    have hremoved : Keeps (Due (R := R) False)
        (fun s => ({ s with dropCopy := none }, [.dropCopyRemoved])) :=
      keeps_dated_of_frame (fun _ => rfl) (silent_aside fun _ o ho => by
        rw [List.mem_singleton.mp ho]; rfl)
    have hreaped : Keeps (Due (R := R) False) (modify fun s => { s with zombie := false }) :=
      keeps_dated_of_frame (fun _ => rfl) fun _ _ ho => by cases ho
    have hforced : Due False (out ++ [.dropCopyRemoved] ++ (onOrderEntry scanner settings
        (.forceListenKeyRefresh now) (.forceListenKeyRefresh now) { s with dropCopy := none }).2) _ :=
      dated_append (hremoved out s h.due)
        (due_force scanner settings now (s := { s with dropCopy := none }) (h.deadline_of_zombie hzombie))
    rw [reap_of_zombie scanner settings now hzombie]
    simpa [seqAll, seq] using hreaped _ _ hforced

/-- After a drop copy has been removed, its order entry refreshes within the delay. -/
theorem deadline_reap (now : Nanos) {s : Slice R} (hzombie : s.zombie = true) (h : deadline s ≠ 0) :
    deadline (reap scanner settings now s).1 = now + RestStream.defaultListenKeyRefreshDelay := by
  rw [reap_of_zombie scanner settings now hzombie]
  exact deadline_force scanner settings now (s := { s with dropCopy := none }) h

/-! ### Reactions -/

theorem due_request (q : ClientRequest) :
    Keeps (Due (R := R) b) (onRequest scanner settings q) := by
  refine keeps_of_eq fun s => ?_
  unfold onRequest
  split
  · exact ⟨emit _, rfl, keeps_dated_of_frame (fun _ => rfl) (silent_aside fun _ o ho => by
      rw [List.mem_singleton.mp ho]; rfl)⟩
  · refine ⟨_, rfl, due_onOrderEntry scanner settings ?_ ?_⟩ <;> cases q <;> exact ⟨rfl, rfl⟩
  · exact ⟨_, rfl, due_onDownload settings _⟩

theorem due_reaction (account : String) {e : Event} (he : e.Timely) :
    Triple Bound (reaction (R := R) scanner settings account e) (Due False) := by
  have hdue : ∀ {f : Act R}, Keeps (Due False) f → Triple Bound f (Due False) :=
    fun hf out s h => hf out s h.due
  have hif : ∀ {p : Prop} [Decidable p] {f : Act R}, (p → Keeps (Due False) f) →
      Triple Bound (if p then f else skip) (Due False) := by
    intro p _ f hf
    split
    next h => exact hdue (hf h)
    next => exact hdue (keeps_skip _)
  have hothers : ∀ drop download, Keeps (Due (R := R) False)
      (seqAll [onDropCopy settings drop, onDownload settings download]) := fun drop download =>
    keeps_seq (due_onDropCopy settings drop)
      (keeps_seq (due_onDownload settings download) (keeps_skip _))
  cases e with
  | start =>
    exact hdue (keeps_seq (due_onOrderEntry scanner settings ⟨rfl, rfl⟩ ⟨rfl, rfl⟩) (hothers _ _))
  | stop =>
    exact hdue (keeps_seq (due_onOrderEntry scanner settings ⟨rfl, rfl⟩ ⟨rfl, rfl⟩) (hothers _ _))
  | timer now answers =>
    exact triple_seq (fun out s h => due_reap scanner settings now h)
      (keeps_seq (due_onOrderEntry scanner settings ⟨rfl, rfl⟩ ⟨rfl, rfl⟩) (hothers _ _))
  | request q => exact hif fun _ => due_request scanner settings q
  | rest account' e =>
    refine hif fun hconnection => keeps_dated fun s => due_onRest settings he fun hforces => ?_
    cases e <;> first | cases hforces; done | cases hconnection.2
  | webSocket account' e =>
    refine hif fun hconnection => keeps_dated fun s => due_onWebSocket scanner settings he fun hforces => ?_
    cases e <;> first | cases hforces; done | cases hconnection.2
  | dropCopy account' e => exact hif fun _ => due_onDropCopy settings e
  | download account' e => exact hif fun _ => due_onDownload settings e

theorem bound_reaction (account : String) {e : Event} (he : e.Timely) :
    Keeps (Bound (R := R)) (reaction scanner settings account e) := by
  intro out s h
  have hfollows := follows_reaction (R := R) scanner settings account e
  refine ⟨due_reaction scanner settings account he out s h, ?_,
    (lived_reaction scanner settings account e h.ok).ok⟩
  rw [hfollows.held, trace_append, Latch.held_append, h.held]

/-- The timer that removes a drop copy leaves the deadline that it has forced. -/
theorem deadline_reaction (account : String) {now : Nanos} (answers : String → TimerAnswers)
    {s : Slice R} (hzombie : s.zombie = true) (h : deadline s ≠ 0) :
    deadline (reaction scanner settings account (.timer now answers) s).1
      = now + RestStream.defaultListenKeyRefreshDelay := by
  have hforced := deadline_reap scanner settings now hzombie h
  have hlater : now < now + RestStream.defaultListenKeyRefreshDelay :=
    Nat.lt_add_of_pos_right (by decide)
  have hothers : Frame deadline (seqAll [dropCopyTimer (R := R) settings now (answers account),
      downloadTimer settings now (answers account)]) := by
    refine frame_seq (fun s => ?_) (frame_seq (fun s => ?_) fun _ => rfl)
    · exact congrArg (fun x => x.2.1.listenKeyRefresh) (frame_onDropCopy settings _ s)
    · unfold downloadTimer onDownload
      split <;> rfl
  rw [reaction, seqAll, seqAll, seq_fst, seq_fst, hothers, deadline_orderEntryTimer]
  · exact hforced
  · rw [hforced]
    exact hlater

end

/-! ### Runs -/

section
variable {R : LimitRequest} (scanner : Json.Scanner) (c : Controller) {a : Account}

/-- CORRECT: as long as an account has a drop copy, its order entry has a deadline for the listen key; no
    refresh is ever forced in vain, and a timer that removes a drop copy forces one. -/
theorem refresh_scheduled (ha : a ∈ c.accounts) {es : List Event} (hes : ∀ e ∈ es, e.Timely) :
    ∃ s, (c.execute scanner es (c.boot (R := R))).1.1 a.name = some s ∧
      (s.dropCopy.isSome = true → deadline s ≠ 0) ∧
      (∀ o ∈ output a.name (c.execute scanner es (c.boot (R := R))).2, ¬ o.vain) ∧
      ∀ now answers, s.zombie = true → ∃ s',
        (c.step scanner (.timer now answers) (c.execute scanner es (c.boot (R := R))).1.1).1 a.name
          = some s' ∧ deadline s' = now + RestStream.defaultListenKeyRefreshDelay := by
  have hinit : ∀ streamId, Bound [] (createSlice (R := R) c.settings a streamId) := fun _ =>
    ⟨⟨by simp, by simp⟩, rfl, fun h => by cases h⟩
  obtain ⟨s, hs, hbound⟩ := of_execute_of scanner c ha
    (fun e he => bound_reaction scanner c.settings a.name (hes e he)) hinit
  refine ⟨s, hs, hbound.deadline_ne_zero, hbound.due.spared, fun now answers hzombie => ?_⟩
  obtain ⟨hafter, -⟩ := seen_step scanner c ha (.timer now answers) _ s hs
  exact ⟨_, hafter, deadline_reaction scanner c.settings a.name answers hzombie
    (hbound.deadline_of_zombie hzombie)⟩

end

/-- The listen key expires; the timer that removes the drop copy forces a refresh. -/
theorem expired_scheduled : ∃ s',
    ((single false .cross).step .standard (tick 2) ((single false .cross).execute .standard
      (expired.take 4) ((single false .cross).boot (R := .simple))).1.1).1 "A1" = some s' ∧
    deadline s' = 2 + RestStream.defaultListenKeyRefreshDelay := by
  have hes : ∀ e ∈ expired.take 4, e.Timely := by
    simp [expired, listenKeyAnswer, Event.Timely, RestStream.Event.answered]
  obtain ⟨s, hs, -, -, htimer⟩ := refresh_scheduled (R := .simple) .standard (single false .cross)
    (a := ⟨"A1", .cross⟩) (List.mem_singleton_self _) hes
  have hzombie : (((single false .cross).execute .standard (expired.take 4)
      ((single false .cross).boot (R := .simple))).1.1 "A1").map (·.zombie) = some true := by decide
  rw [hs, Option.map_some] at hzombie
  exact htimer 2 _ (Option.some.inj hzombie)

end Controller

end BinanceFutures
