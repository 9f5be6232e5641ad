import BinanceFutures.Gateway.Correlation

/-! # Slots served over the WebSocket API

    The stream serves the balances and the positions. A slot in flight waits for the answer to a request
    of the current session; what was sent in an earlier one will not be answered.

        served ──▶ in flight ── answer ──▶ committed
                       │
                       └── Disconnected ──▶ in flight, nobody left to commit it -/

namespace BinanceFutures.WebSocket
open Machine

/-- The slot whose callback sends the request. -/
def Call.slot : Call → Option Slot
  | .accountBalance => some .balances
  | .accountStatus => some .positions
  | _ => none

/-- The slots of `check_request_queue`, in its order. -/
def slots : List Slot := [.balances, .positions]

section
variable {R : LimitRequest} (scanner : Json.Scanner) (settings : Settings)

/-- A turn of the stream, or of the streams it shares the account's slots with. -/
inductive Turn where
  | own (e : Event)
  | requested (c : Slot) (now : Nanos)
  | stale (details : List (UserId × OrderId))
  | otherServed (c : Slot) (gate : Bool) (now : Nanos)
  | otherCommitted (c : Slot) (now : Nanos)

def turn : Turn → Act R
  | .own e => step scanner settings e
  | .requested c now => modify fun w => { w with request := w.request.request c now }
  | .stale details => modify fun w => { w with request.detailsStaleOrders := details }
  | .otherServed c gate now => fun w =>
    if c ∈ slots then (w, []) else ({ w with request := w.request.checkPending c now gate }, [])
  | .otherCommitted c now => fun w =>
    if c ∈ slots then (w, []) else ({ w with request := w.request.commit c now }, [])

/-- A request of the slot has been sent in this session, and its answer can still arrive. -/
def Answerable (w : World R) (c : Slot) : Prop :=
  ∃ n sent, (n, sent) ∈ w.socket.calls.entries ∧ sent.call.slot = some c

/-- Unless the process has ended: every slot of the stream in flight has its request in the current
    session. -/
def InSession (s : World R × Bool) : Prop :=
  s.2 = true ∨ ∀ c ∈ slots, s.1.request.inFlight c = true → Answerable s.1 c

/-- The session does not end on a slot in flight. -/
def Idle (s : World R × Bool) : Turn → Prop
  | .own .disconnected => s.2 = false → ∀ c ∈ slots, s.1.request.inFlight c = false
  | _ => True

/-! ### Waiting -/

/-- A slot in flight has its request in the session, but for the slot whose answer is being handled. -/
def Waits (owed : Option Slot) (_ : List Output) (w : World R) : Prop :=
  ∀ c ∈ slots, some c ≠ owed → w.request.inFlight c = true → Answerable w c

variable {owed : Option Slot}

/-- Actions that only add to the session, and leave the slots alone. -/
theorem waits_of_frame {f : Act R}
    (hcalls : ∀ w, ∀ e ∈ w.socket.calls.entries, e ∈ (f w).1.socket.calls.entries)
    (hslots : ∀ w, ∀ c ∈ slots, (f w).1.request.inFlight c = w.request.inFlight c) :
    Keeps (Waits (R := R) owed) f := by
  intro out w h c hc howed hflight
  rw [hslots w c hc] at hflight
  obtain ⟨n, sent, hmem, hslot⟩ := h c hc howed hflight
  exact ⟨n, sent, hcalls w _ hmem, hslot⟩

theorem rules_waits : Rules scanner (Waits (R := R) owed) where
  frame hmemory _ := by
    refine waits_of_frame (fun w e he => ?_) fun w c _ => ?_
    · have hcalls := congrArg Prod.fst (hmemory w)
      dsimp only [World.memory] at hcalls
      rwa [hcalls]
    · have hrequest := congrArg (fun m => m.2.1) (hmemory w)
      dsimp only [World.memory] at hrequest
      rw [hrequest]
  send _ := waits_of_frame (fun _ _ h => List.mem_append_left _ h) fun _ _ _ => rfl

theorem waits_deadline (t : Nanos) : Keeps (Waits (R := R) owed)
    (modify fun w => { w with socket.listenKeyRefresh := t }) :=
  waits_of_frame (fun _ _ h => h) fun _ _ _ => rfl

theorem waits_listenKey (m : Json.WSAPIMessage) (env : Answers) :
    Keeps (Waits (R := R) owed) (wsapiListenKey scanner settings m env) :=
  (rules_waits scanner).listenKey settings
    (fun _ => waits_of_frame (fun _ _ h => h) fun _ _ _ => rfl) waits_deadline m env

/-- The commit that is owed. -/
theorem waits_commit (c : Slot) (now : Nanos) :
    Triple (Waits (R := R) (some c)) (commit c now) (Waits none) := by
  intro out w h c' hc' _ hflight
  simp only [commit, Request.inFlight_commit, Bool.and_eq_true, decide_eq_true_eq] at hflight
  exact h c' hc' (by simpa using hflight.2) hflight.1

theorem waits_publish {f : Act R} (hf : Publishes f) : Keeps (Waits (R := R) owed) f :=
  waits_of_frame (fun w _ h => by rw [(hf w).1]; exact h) fun w _ _ => by rw [(hf w).1]

/-- The handler of a call commits the slot that it owes. -/
theorem waits_handle (reply : Json.Reply) (call : Call) (sequence : UInt32) (env : Answers)
    (d : Dispatcher) :
    Triple (Waits (R := R) call.slot)
      (handle scanner settings reply.parsed { call.request with sequence } env d) (Waits none) := by
  cases call with
  | sessionLogon => exact (rules_waits scanner).sessionLogon _ env
  | userDataStreamStart | userDataStreamPing => exact waits_listenKey scanner settings _ env
  | accountBalance => exact waits_commit .balances env.now
  | accountStatus => exact waits_commit .positions env.now
  | accountPosition => exact keeps_skip _
  | orderPlace => exact waits_publish (publishes_orderPlace settings _ _ _)
  | orderModify => exact waits_publish (publishes_orderModify scanner settings _ _)
  | orderCancel => exact waits_publish (publishes_orderCancel settings _ _ _ _)

/-! ### Turns -/

theorem waits_answer (n : ℕ) (reply : Json.Reply) (arrangement : Json.Arrangement) (env : Answers)
    (d : Dispatcher) {out : List Output} {w : World R} (hw : Correlated scanner settings [] out w)
    (h : Waits none out w) :
    Waits none (out ++ (answer scanner settings n reply arrangement env d w).2)
      (answer scanner settings n reply arrangement env d w).1 := by
  unfold answer
  split
  next => exact h
  next sent hfind =>
    obtain ⟨sequence, hid⟩ := hw.packed n sent (Ledger.mem_of_find hfind)
    -- the answered request leaves the session, and its slot is owed a commit
    have howed : Waits sent.call.slot out { w with socket.calls := w.socket.calls.settle n } := by
      intro c hc hne hflight
      obtain ⟨n', sent', hmem, hslot⟩ := h c hc (by simp) hflight
      refine ⟨n', sent', Ledger.mem_settle.mpr ⟨hmem, ?_⟩, hslot⟩
      rintro rfl
      rw [← Ledger.entry_unique (Ledger.mem_of_find hfind) hmem] at hslot
      exact hne hslot.symm
    have hhandle := waits_handle scanner settings reply sent.call sequence env d out _ howed
    rw [text_answer scanner settings reply arrangement env d hid]
    exact hhandle

theorem waits_checkPending {c : Slot} {call : Call} (hcall : call.slot = some c) (now : Nanos)
    (gate : Slot → Bool) : Keeps (Waits (R := R) none) (checkPending scanner c call now gate) := by
  intro out w h
  unfold checkPending
  dsimp only
  split
  next hserved =>
    -- the slot waits for the request just sent, and the others for what they waited for
    intro c' hc' _ hflight
    by_cases heq : c' = c
    · subst heq
      exact ⟨w.socket.calls.next, _, List.mem_append_right _ (List.mem_singleton_self _), hcall⟩
    · have hflight' : w.request.inFlight c' = true := by
        have hin := Request.inFlight_checkPending w.request c c' now (gate c)
        rw [decide_eq_false heq, Bool.false_and, Bool.or_false] at hin
        rw [← hin]
        exact hflight
      obtain ⟨n, sent, hmem, hslot⟩ := h c' hc' (by simp) hflight'
      exact ⟨n, sent, List.mem_append_left _ hmem, hslot⟩
  next hserved =>
    intro c' hc' howed hflight
    have hin := Request.inFlight_checkPending w.request c c' now (gate c)
    rw [Bool.eq_false_iff.mpr hserved, Bool.and_false, Bool.or_false] at hin
    exact h c' hc' howed (by rw [← hin]; exact hflight)

/-- A step other than the end of a session on a slot in flight. -/
theorem waits_step (e : Event) {out : List Output} {w : World R}
    (hw : Correlated scanner settings [] out w) (h : Waits none out w)
    (hidle : e = .disconnected → ∀ c ∈ slots, w.request.inFlight c = false) :
    Waits none (out ++ (step scanner settings e w).2) (step scanner settings e w).1 := by
  have hvain : Keeps (Waits (R := R) none) (emit [.noListenKeyRefresh]) :=
    waits_of_frame (fun _ _ h => h) fun _ _ _ => rfl
  refine (rules_waits scanner).step settings (fun now refresh gate _ => ?_)
    (fun now _ => keeps_force waits_deadline hvain now) (fun heq c hc _ hflight => ?_)
    (fun n reply arrangement env d _ => waits_answer scanner settings n reply arrangement env d hw h) h
  · exact keeps_timer settings ((rules_waits scanner).ping settings waits_deadline now)
      (keeps_seq (waits_checkPending scanner rfl now gate) (waits_checkPending scanner rfl now gate))
      refresh
  · -- no slot is in flight
    have hcontra : w.request.inFlight c = true := hflight
    rw [hidle heq c hc] at hcontra
    cases hcontra

/-- The invariant of a live process. -/
structure Sound (out : List Output) (w : World R) : Prop where
  correlated : Correlated scanner settings [] out w
  waits : Waits none out w

/-- The streams that share the slots leave the socket alone. -/
theorem socket_turn (e : Turn) (w : World R) (he : ∀ e', e ≠ .own e') :
    (turn scanner settings e w).1.socket = w.socket ∧ (turn scanner settings e w).2 = [] := by
  cases e with
  | own e => exact absurd rfl (he e)
  | requested | stale => exact ⟨rfl, rfl⟩
  | otherServed c gate now | otherCommitted c now =>
    dsimp only [turn]
    split <;> exact ⟨rfl, rfl⟩

theorem correlated_turn (e : Turn) :
    Keeps (Correlated (R := R) scanner settings []) (turn scanner settings e) := by
  intro out w h
  by_cases he : ∃ e', e = .own e'
  · obtain ⟨e', rfl⟩ := he
    exact correlated_step scanner settings e' out w h
  · obtain ⟨hsocket, hout⟩ := socket_turn scanner settings e w (by simpa using he)
    refine ⟨?_, ?_⟩
    · rw [hsocket, hout, List.append_nil]
      exact h.agrees
    · rw [hsocket]
      exact h.packed

theorem sound_turn (e : Turn) {out : List Output} {w : World R} (h : Sound scanner settings out w)
    (hidle : Idle (w, false) e) :
    Sound scanner settings (out ++ (turn scanner settings e w).2) (turn scanner settings e w).1 := by
  refine ⟨correlated_turn scanner settings e out w h.correlated, ?_⟩
  cases e with
  | own e =>
    refine waits_step scanner settings e h.correlated h.waits ?_
    rintro rfl
    exact hidle rfl
  | requested c now =>
    intro c' hc' howed hflight
    exact h.waits c' hc' howed (by simpa [turn] using hflight)
  | stale details => exact h.waits
  | otherServed c gate now =>
    by_cases hc : c ∈ slots
    · simpa [turn, hc] using h.waits
    · intro c' hc' howed hflight
      have hne : c' ≠ c := fun heq => hc (heq ▸ hc')
      simp only [turn, hc, if_false, Request.inFlight_checkPending, decide_eq_false hne,
        Bool.false_and, Bool.or_false] at hflight ⊢
      exact h.waits c' hc' howed hflight
  | otherCommitted c now =>
    by_cases hc : c ∈ slots
    · simpa [turn, hc] using h.waits
    · intro c' hc' howed hflight
      simp only [turn, hc, if_false, Request.inFlight_commit, Bool.and_eq_true] at hflight ⊢
      exact h.waits c' hc' howed hflight.1

/-- EXACT: in every state that a run of the stream reaches, the balances and the positions are in flight
    only while their request is in the session's and can be answered, exactly if no session of the run
    has ended on one of them in flight. -/
theorem inSession_iff (account : String) (streamId : UInt16) (es : List Turn) :
    (∀ pre, pre <+: es →
      InSession (run (mortal kills (turn scanner settings)) pre
        (create (R := R) account streamId {}, false)).1)
    ↔ Along (mortal kills (turn scanner settings)) Idle es
        (create (R := R) account streamId {}, false) := by
  let I : List Output → World R × Bool → Prop := fun out s =>
    s.2 = true ∨ Sound scanner settings out s.1
  refine exact_condition (I := I) (P := fun _ s => InSession s) ?_ ?_ ?_ (Or.inr ?_) es
  · rintro out ⟨w, dead⟩ e hI hidle
    cases dead with
    | true => exact Or.inl rfl
    | false => exact Or.inr (sound_turn scanner settings e (hI.resolve_left (by simp)) hidle)
  · rintro out ⟨w, dead⟩ hI
    exact hI.imp id fun hw c hc hflight => hw.waits c hc (by simp) hflight
  · rintro out ⟨w, dead⟩ e hI hidle hsession
    cases e with
    | requested | stale | otherServed | otherCommitted => exact hidle trivial
    | own e =>
      cases e with
      | disconnected =>
        simp only [Idle, not_forall] at hidle
        obtain ⟨hdead, c, hc, hflight⟩ := hidle
        subst hdead
        rw [Bool.not_eq_false] at hflight
        -- the session is gone, and the slot is as it was
        rcases hsession with hkilled | hwaits
        · revert hkilled
          simp [turn, step, disconnected, seqAll, seq, setStatus, kills]
        · obtain ⟨n, sent, hmem, -⟩ := hwaits c hc hflight
          simp [turn, step, disconnected, seqAll, seq, setStatus, Ledger.clear] at hmem
      | _ => exact hidle trivial
  · exact ⟨correlated_create scanner settings account streamId {}, fun c _ _ hflight => by
      simp [create] at hflight⟩

end

/-- An answer with the fields in the exchange's order. -/
def inOrder : Json.Arrangement where
  keys := [.id, .status, .body, .rateLimits]
  nodup := by decide
  hasId := by decide
  hasStatus := by decide
  hasBody := by decide

/-- A successful answer to the `n`-th request, after which the download goes on to the states. -/
def success (n : ℕ) (result : Json.Result) (visits : List State) : Turn :=
  .own (.answer n ⟨200, .result result⟩ inOrder
    { now := 1, nowUtc := 1, downloading := true, visits, allowUnknownEventTypes := false }
    (.knowing none))

/-- The stream logs on, the balances are requested and served, and the connection drops before the
    answer. -/
def balancesLost : List Turn :=
  [.own (.ready [.sessionLogon]), success 0 {} [.userDataStreamStart],
    success 1 { listenKey := "key" } [.accountPosition, .done], .requested .balances 2,
    .own (.timer 3 true (fun _ => true)), .own .disconnected]

/-- The slot is in flight, and nobody is left to commit it. -/
theorem balancesLost_not_inSession :
    ¬ ∀ pre, pre <+: balancesLost →
      InSession (run (mortal kills (turn .standard {})) pre
        (create (R := .simple) "A1" 1 {}, false)).1 := by
  intro h
  rcases h balancesLost (List.prefix_refl _) with hdead | hwaits
  · revert hdead
    decide
  · obtain ⟨n, sent, hmem, -⟩ := hwaits .balances (by decide) (by decide)
    have hnone : (run (mortal kills (turn .standard {})) balancesLost
        (create (R := .simple) "A1" 1 {}, false)).1.1.socket.calls.entries = [] := by decide
    rw [hnone] at hmem
    cases hmem

end BinanceFutures.WebSocket
