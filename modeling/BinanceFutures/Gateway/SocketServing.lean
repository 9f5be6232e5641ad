import BinanceFutures.Gateway.Serving
import BinanceFutures.Gateway.Session

/-! # Serving over the WebSocket API

    The balances and the positions of an account that trades over the WebSocket API, seen from the drop
    copy that has opened them. A slot in flight is held by a request of the session.

        opened ─▶ pending ── timer of a socket that is ready ─▶ held ── answer ─▶ has_response
                                                                 └── Disconnected ─▶ held by nobody

    `Follows` says what an invariant of the slots needs to be kept by every event of the socket. -/

namespace BinanceFutures.WebSocket
open Machine

section
variable {R : LimitRequest} (scanner : Json.Scanner) (settings : Settings)

/-! ### What happens to a slot -/

/-- What an invariant of the slots needs to be kept by every event that does not end the session. -/
structure Follows (J : World R → Prop) : Prop where
  aside : ∀ {w w'}, J w → w'.request = w.request →
    (∀ e ∈ w.socket.calls.entries, e ∈ w'.socket.calls.entries) → J w'
  checked : ∀ {w} c now gate, c ∈ slots → J w → J { w with request := w.request.checkPending c now gate }
  settled : ∀ {w} n sent, (n, sent) ∈ w.socket.calls.entries → sent.call.slot = none → J w →
    J { w with socket.calls := w.socket.calls.settle n }
  committed : ∀ {w w'} n sent c now, (n, sent) ∈ w.socket.calls.entries → sent.call.slot = some c →
    J w → w'.request = w.request.commit c now →
    w'.socket.calls = w.socket.calls.settle n → J w'

variable {scanner settings} {J : World R → Prop} {w : World R}

/-- The invariant, whatever has been put out. -/
abbrev Of (J : World R → Prop) (_ : List Output) (w : World R) : Prop := J w

theorem Follows.frame (hJ : Follows J) {f : Act R} (hrequest : ∀ w, (f w).1.request = w.request)
    (hcalls : ∀ w, ∀ e ∈ w.socket.calls.entries, e ∈ (f w).1.socket.calls.entries) : Keeps (Of J) f :=
  fun _ w h => hJ.aside h (hrequest w) (hcalls w)

theorem Follows.rules (hJ : Follows J) : Rules scanner (Of J) where
  frame {f} hmemory _ := by
    refine hJ.frame (fun w => ?_) fun w e he => ?_
    · exact congrArg (fun m => m.2.1) (hmemory w)
    · have hcalls : (f w).1.socket.calls = w.socket.calls := congrArg Prod.fst (hmemory w)
      rwa [hcalls]
  send _ := hJ.frame (fun _ => rfl) fun _ _ he => List.mem_append_left _ he

theorem Follows.deadline (hJ : Follows J) (t : Nanos) :
    Keeps (Of J) (modify fun w => { w with socket.listenKeyRefresh := t }) :=
  hJ.frame (fun _ => rfl) fun _ _ he => he

theorem Follows.checkPending (hJ : Follows J) {c : Slot} (hc : c ∈ slots) (call : Call) (now : Nanos)
    (gate : Slot → Bool) : Keeps (Of J) (checkPending scanner c call now gate) :=
  hJ.rules.checkPending (fun _ _ h => hJ.checked c now (gate c) hc h) call

/-- The handler of a call that no slot has asked for. -/
theorem Follows.handle (hJ : Follows J) (reply : Json.Reply) {call : Call} (hslot : call.slot = none)
    (sequence : UInt32) (env : Answers) (d : Dispatcher) :
    Keeps (Of J) (handle scanner settings reply.parsed { call.request with sequence } env d) := by
  have hpublish : ∀ {f : Act R}, Publishes f → Keeps (Of J) f := fun hf =>
    hJ.frame (fun w => by rw [(hf w).1]) fun w e he => by rwa [(hf w).1]
  cases call with
  | sessionLogon => exact hJ.rules.sessionLogon _ env
  | userDataStreamStart | userDataStreamPing =>
    exact hJ.rules.listenKey settings (fun _ => hJ.frame (fun _ => rfl) fun _ _ he => he) hJ.deadline _ env
  | accountBalance | accountStatus => cases hslot
  | accountPosition => exact keeps_skip _
  | orderPlace => exact hpublish (publishes_orderPlace settings _ _ _)
  | orderModify => exact hpublish (publishes_orderModify scanner settings _ _)
  | orderCancel => exact hpublish (publishes_orderCancel settings _ _ _ _)

theorem Follows.answer (hJ : Follows J) (n : ℕ) (reply : Json.Reply) (arrangement : Json.Arrangement)
    (env : Answers) (d : Dispatcher) {out : List Output} (hw : Correlated scanner settings [] out w)
    (h : J w) : J (answer scanner settings n reply arrangement env d w).1 := by
  unfold WebSocket.answer
  split
  next => exact h
  next sent hfind =>
    have hmem := Ledger.mem_of_find hfind
    obtain ⟨sequence, hid⟩ := hw.packed n sent hmem
    simp only [seqAll, seq_fst, modify_apply, emit_apply, skip_apply]
    rw [text_answer scanner settings reply arrangement env d hid]
    cases hslot : sent.call.slot with
    | none =>
      have hhandle : Keeps (Of J)
          (WebSocket.handle scanner settings reply.parsed { sent.call.request with sequence } env d) :=
        hJ.handle reply hslot sequence env d
      exact hhandle out _ (hJ.settled n sent hmem hslot h)
    | some c =>
      -- the handler commits the slot
      refine hJ.committed n sent c env.now hmem hslot h ?_ ?_
      · cases hcall : sent.call <;> rw [hcall] at hslot <;> cases hslot <;> rfl
      · cases hcall : sent.call <;> rw [hcall] at hslot <;> cases hslot <;> rfl

/-- Every event keeps what follows the slots, if the end of the session does. -/
theorem Follows.step (hJ : Follows J) (e : Event) {out : List Output}
    (hw : Correlated scanner settings [] out w)
    (hended : e = .disconnected → J (disconnected w).1) (h : J w) :
    J (step scanner settings e w).1 := by
  have hrules : Rules scanner (Of J) := hJ.rules
  have hstep : Of J (out ++ (WebSocket.step scanner settings e w).2)
      (WebSocket.step scanner settings e w).1 := by
    refine hrules.step settings (fun now refresh gate _ => ?_) (fun now _ => ?_) hended
      (fun n reply arrangement env d _ => hJ.answer n reply arrangement env d hw h) h
    · exact keeps_timer settings (hrules.ping settings hJ.deadline now)
        (keeps_seq (hJ.checkPending (by decide) _ now gate)
          (hJ.checkPending (by decide) _ now gate)) refresh
    · exact keeps_force hJ.deadline (hJ.frame (fun _ => rfl) fun _ _ he => he) now
  exact hstep

/-! ### Open and held slots -/

theorem follows_opened (hserves : R.Serves) (c : Slot) :
    Follows (R := R) fun w => w.request.Opened c where
  aside h hrequest _ := hrequest ▸ h
  checked c' now gate _ h := h.checkPending hserves c' now gate
  settled _ _ _ _ h := h
  committed _ _ c' now _ _ h hrequest _ := by
    rw [hrequest]
    exact h.commit hserves c' now

/-- What becomes of a slot that the socket does not serve is not up to the socket. -/
theorem follows_slot {c : Slot} (hc : c ∉ slots) (x : R.Obj) :
    Follows (R := R) fun w => w.request.slot c = x where
  aside h hrequest _ := by rwa [hrequest]
  checked c' now gate hc' h := by
    refine (Function.update_of_ne ?_ ..).trans h
    rintro rfl
    exact hc hc'
  settled _ _ _ _ h := h
  committed := by
    intro w w' n sent c' now _ hslot h hrequest _
    rw [hrequest]
    refine (Function.update_of_ne ?_ ..).trans h
    rintro rfl
    cases hcall : sent.call <;> rw [hcall] at hslot <;> cases hslot <;> exact hc (by decide)

theorem slot_step (e : Event) {c : Slot} (hc : c ∉ slots) {out : List Output}
    (hw : Correlated scanner settings [] out w) :
    (step scanner settings e w).1.request.slot c = w.request.slot c :=
  (follows_slot hc _).step e hw (fun _ => rfl) rfl

/-- The slot has a response, or is in flight with a request of these that has not been answered. -/
def Held (c : Slot) (calls : Ledger Sent) (w : World R) : Prop :=
  w.request.hasResponse c = true ∨ w.request.inFlight c = true ∧
    ∃ e ∈ calls.entries, e ∈ w.socket.calls.entries ∧ e.2.call.slot = some c

/-- A slot that is held stays so when another one is checked or committed. -/
theorem held_of_slot {c : Slot} {calls : Ledger Sent} {w w' : World R} (h : Held c calls w)
    (hslot : w'.request.slot c = w.request.slot c)
    (hcalls : ∀ e ∈ w.socket.calls.entries, e.2.call.slot = some c → e ∈ w'.socket.calls.entries) :
    Held c calls w' := by
  unfold Held Request.hasResponse Request.inFlight at h ⊢
  rw [hslot]
  refine h.imp_right fun ⟨hflight, e, he, hmem, hcall⟩ => ?_
  exact ⟨hflight, e, he, hcalls e hmem hcall, hcall⟩

theorem follows_held (hserves : R.Serves) (c : Slot) (calls : Ledger Sent) :
    Follows (R := R) (Held c calls) where
  aside h hrequest hcalls := held_of_slot h (by rw [hrequest]) fun e he _ => hcalls e he
  checked := by
    intro w c' now gate _ h
    by_cases heq : c = c'
    · subst heq
      rcases h with hresponse | ⟨hflight, hmem⟩
      · refine Or.inl ?_
        rw [Request.hasResponse, Request.slot_checkPending]
        exact (hserves.responded gate now _ hresponse).2
      · refine Or.inr ⟨?_, hmem⟩
        rw [Request.inFlight_checkPending, hflight]
        rfl
    · exact held_of_slot h (Function.update_of_ne heq ..) fun e he _ => he
  settled := by
    intro w n sent hsent hslot h
    refine held_of_slot h rfl fun e he hcall => Ledger.mem_settle.mpr ⟨he, ?_⟩
    rintro rfl
    rw [Ledger.entry_unique he hsent, hslot] at hcall
    cases hcall
  committed := by
    intro w w' n sent c' now hsent hslot h hrequest hcalls
    by_cases heq : c = c'
    · subst heq
      refine Or.inl ?_
      rw [hrequest, Request.hasResponse, Request.slot_commit]
      exact hserves.commit now _
    · refine held_of_slot h (by rw [hrequest]; exact Function.update_of_ne heq ..) fun e he hcall => ?_
      rw [hcalls, Ledger.mem_settle]
      refine ⟨he, ?_⟩
      rintro rfl
      rw [Ledger.entry_unique he hsent, hslot] at hcall
      exact heq (Option.some.inj hcall).symm

/-- A session that does not end on a slot in flight lets go of no slot that is held. -/
theorem held_step (hserves : R.Serves) {c : Slot} (hc : c ∈ slots) {calls : Ledger Sent} (e : Event)
    {out : List Output} (hw : Correlated scanner settings [] out w)
    (hidle : e = .disconnected → ∀ c ∈ slots, w.request.inFlight c = false) (h : Held c calls w) :
    Held c calls (step scanner settings e w).1 := by
  refine (follows_held hserves c calls).step e hw (fun heq => ?_) h
  rcases h with hresponse | ⟨hflight, -⟩
  · exact Or.inl hresponse
  · rw [hidle heq c hc] at hflight
    cases hflight

/-- When all these have been answered, the slot has a response. -/
theorem Held.answered {c : Slot} {calls : Ledger Sent} (h : Held c calls w)
    (hanswered : ∀ e ∈ calls.entries, e ∉ w.socket.calls.entries) : w.request.hasResponse c = true := by
  rcases h with hresponse | ⟨-, e, he, hmem, -⟩
  · exact hresponse
  · exact absurd hmem (hanswered e he)

variable (scanner settings)

/-- What a timer of a socket that is ready does to the slots. -/
theorem request_timer (now : Nanos) (gate : Slot → Bool) (hready : isReady w = true) :
    (step scanner settings (.timer now true gate) w).1.request
      = (w.request.checkPending .balances now (gate .balances)).checkPending .positions now
          (gate .positions) := by
  have hping : ∃ w₁ : World R, (userDataStreamPing scanner settings now w).1 = w₁ ∧
      w₁.request = w.request ∧ isReady w₁ = true := by
    refine ⟨_, rfl, ?_⟩
    unfold userDataStreamPing
    repeat' split
    all_goals exact ⟨rfl, hready⟩
  obtain ⟨w₁, heq, hrequest, hready₁⟩ := hping
  have hpending : ∀ (c : Slot) (call : Call) (w : World R),
      (checkPending scanner c call now gate w).1.request = w.request.checkPending c now (gate c) := by
    intro c call w
    unfold checkPending
    dsimp only
    split <;> rfl
  simp only [step, guarded, if_true, timer, seq_fst, heq, hready₁, checkRequestQueue, hpending, hrequest]

/-- A timer of a socket that is ready holds an open slot whose gate is open. -/
theorem held_timer (hserves : R.Serves) (now : Nanos) {gate : Slot → Bool} {c : Slot} (hc : c ∈ slots)
    (hgate : gate c = true) {out : List Output} (h : Sound scanner settings out w)
    (hopened : w.request.Opened c) (hready : isReady w = true) :
    Held c (step scanner settings (.timer now true gate) w).1.socket.calls
      (step scanner settings (.timer now true gate) w).1 := by
  have hafter := sound_turn scanner settings (.own (.timer now true gate)) h trivial
  have hrequest := request_timer scanner settings now gate hready
  suffices hheld : (step scanner settings (.timer now true gate) w).1.request.hasResponse c = true ∨
      (step scanner settings (.timer now true gate) w).1.request.inFlight c = true by
    refine hheld.imp_right fun hflight => ⟨hflight, ?_⟩
    obtain ⟨n, sent, hmem, hcall⟩ := hafter.waits c hc nofun hflight
    exact ⟨(n, sent), hmem, hmem, hcall⟩
  rw [hrequest]
  simp only [slots, List.mem_cons, List.not_mem_nil, or_false] at hc
  rcases hc with rfl | rfl
  · -- the other slot is checked afterwards
    have hchecked := hopened.checked hserves now
    rw [hgate]
    simpa [Request.hasResponse, Request.inFlight, Request.checkPending] using hchecked
  · rw [hgate]
    exact (hopened.checkPending hserves .balances now _).checked hserves now

end

end BinanceFutures.WebSocket
