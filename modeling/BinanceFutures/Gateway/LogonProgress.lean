import BinanceFutures.Gateway.Logon

/-! # Progress of the logon

    While the download of a stream waits, the request whose answer it waits for is outstanding in the
    session, and an answer with status 200 brings the stream one step on.

        session.logon ─ 200 ─▶ userDataStream.start ─ 200 ─▶ READY
              └─ error: again          └─ error: again -/

namespace BinanceFutures.WebSocket
open Machine

/-- The request that `download` sends in the state. -/
def State.call : State → Option Call
  | .sessionLogon => some .sessionLogon
  | .userDataStreamStart => some .userDataStreamStart
  | .accountPosition => some .accountPosition
  | .undefined | .done => none

section
variable {R : LimitRequest} (scanner : Json.Scanner) (settings : Settings)
  (proc : Stages.Procedure State)

/-- The request of the state is outstanding in the session. -/
def Outstanding (w : World R) (state : State) : Prop :=
  ∃ n sent, (n, sent) ∈ w.socket.calls.entries ∧ state.call = some sent.call

/-- The download waits for a request that is outstanding. -/
def Awaits (s : Logon R) : Prop :=
  ∀ state ∈ s.download, downloads.waits state = true ∧ Outstanding s.world state

variable {scanner settings proc} {s : Logon R} {w : World R} {state : State} {n : ℕ} {sent : Sent}

/-! ### What stays outstanding -/

/-- The request is outstanding, whatever has been put out. -/
abbrev Holds (x : ℕ × Sent) (_ : List Output) (w : World R) : Prop := x ∈ w.socket.calls.entries

theorem holds_of_frame {x : ℕ × Sent} {f : Act R} (hcalls : ∀ w, (f w).1.socket.calls = w.socket.calls) :
    Keeps (Holds x) f := by
  intro out w h
  rw [Holds, hcalls]
  exact h

variable (scanner) in
theorem rules_holds (x : ℕ × Sent) : Rules scanner (Holds (R := R) x) where
  frame hmemory _ := holds_of_frame fun w => congrArg Prod.fst (hmemory w)
  send _ := fun _ _ h => List.mem_append_left _ h

theorem holds_publish {x : ℕ × Sent} {f : Act R} (hf : Publishes f) : Keeps (Holds x) f :=
  holds_of_frame fun w => by rw [(hf w).1]

variable (scanner settings) in
/-- The handler of an answer leaves the other requests outstanding. -/
theorem holds_handle (x : ℕ × Sent) (reply : Json.Reply) (call : Call) (sequence : UInt32) (env : Answers)
    (d : Dispatcher) : Keeps (Holds (R := R) x)
      (handle scanner settings reply.parsed { call.request with sequence } env d) := by
  cases call with
  | sessionLogon => exact (rules_holds scanner x).sessionLogon _ env
  | userDataStreamStart | userDataStreamPing =>
    exact (rules_holds scanner x).listenKey settings (fun _ => holds_of_frame fun _ => rfl)
      (fun _ => holds_of_frame fun _ => rfl) _ env
  | accountBalance | accountStatus => exact holds_of_frame fun _ => rfl
  | accountPosition => exact keeps_skip _
  | orderPlace => exact holds_publish (publishes_orderPlace settings _ _ _)
  | orderModify => exact holds_publish (publishes_orderModify scanner settings _ _)
  | orderCancel => exact holds_publish (publishes_orderCancel settings _ _ _ _)

/-- An event that the download has no part in leaves what is outstanding outstanding. -/
theorem holds_step {x : ℕ × Sent} {e : Event} (he : e.downloads = false)
    (hx : x ∈ w.socket.calls.entries) : x ∈ (step scanner settings e w).1.socket.calls.entries := by
  have hset : ∀ t, Keeps (Holds x) (modify fun w : World R => { w with socket.listenKeyRefresh := t }) :=
    fun _ => holds_of_frame fun _ => rfl
  have hslot : ∀ c now gate, Keeps (Holds x) (modify fun w : World R =>
      { w with request := w.request.checkPending c now gate }) :=
    fun _ _ _ => holds_of_frame fun _ => rfl
  have hrules := rules_holds (R := R) scanner x
  have hkept : Holds x ([] ++ (step scanner settings e w).2) (step scanner settings e w).1 := by
    refine hrules.step settings (fun now refresh gate _ => ?_)
      (fun now _ => keeps_force hset (holds_of_frame fun _ => rfl) now) (fun heq => ?_)
      (fun n reply arrangement env d heq => ?_) hx
    · exact keeps_timer settings (hrules.ping settings hset now)
        (keeps_seq (hrules.checkPending (hslot _ _ _) _) (hrules.checkPending (hslot _ _ _) _)) refresh
    · subst heq
      cases he
    · subst heq
      cases he
  exact hkept

/-! ### What goes out -/

variable (scanner) in
/-- The download sends the request of each state that it enters. -/
theorem outstanding_visit {visits : List State} (hstate : state ∈ visits)
    (hwaits : downloads.waits state = true) (w : World R) :
    Outstanding (visit scanner visits w).1 state := by
  induction visits generalizing w with
  | nil => cases hstate
  | cons first visits ih =>
    rcases List.mem_cons.mp hstate with rfl | hrest
    · obtain ⟨n, sent, hmem, hcall⟩ : Outstanding (download scanner state w).1 state := by
        refine ⟨w.socket.calls.next, ?_⟩
        cases state with
        | sessionLogon | userDataStreamStart =>
          exact ⟨_, List.mem_append_right _ (List.mem_singleton_self _), rfl⟩
        | undefined | accountPosition | done => cases hwaits
      exact ⟨n, sent, (rules_holds scanner (n, sent)).visit visits [] _ hmem, hcall⟩
    · exact ih hrest _

/-- The requests whose answers the download is asked about. -/
def Call.downloads : Call → Bool
  | .sessionLogon | .userDataStreamStart | .userDataStreamPing => true
  | _ => false

variable (scanner settings) in
/-- So does the handler of an answer, for the states that it is told. -/
theorem outstanding_handle (reply : Json.Reply) {call : Call} (hcall : call.downloads = true)
    (sequence : UInt32) {env : Answers} (hanswered : reply.status = ok ∨ env.downloading = true)
    (d : Dispatcher) (hstate : state ∈ env.visits) (hwaits : downloads.waits state = true) (w : World R) :
    Outstanding (handle scanner settings reply.parsed { call.request with sequence } env d w).1 state := by
  have hretry : ∀ first, reply.status ≠ ok → Outstanding (retry scanner first env w).1 state := by
    intro first hstatus
    unfold retry
    rw [if_pos (hanswered.resolve_left hstatus)]
    exact outstanding_visit scanner hstate hwaits _
  cases call with
  | sessionLogon =>
    unfold handle wsapiSessionLogon
    dsimp only [Call.request]
    rw [status_parsed]
    split
    next => exact outstanding_visit scanner hstate hwaits _
    next hstatus => exact hretry _ hstatus
  | userDataStreamStart | userDataStreamPing =>
    unfold handle wsapiListenKey
    dsimp only [Call.request]
    rw [status_parsed]
    split
    next => exact outstanding_visit scanner hstate hwaits _
    next hstatus => exact hretry _ hstatus
  | _ => cases hcall

/-! ### Answers -/

/-- What the download is asked when the request it waits for is answered. -/
theorem asked_awaited (hs : s.download = some state) (hwaits : downloads.waits state = true)
    (hfind : s.world.socket.calls.find n = some sent) (hcall : state.call = some sent.call)
    (reply : Json.Reply) (arrangement : Json.Arrangement) (env : Answers) (d : Dispatcher) :
    asked s (.own (.answer n reply arrangement env d)) =
      some (if reply.status = ok then .checkRelaxed state else .retry state) := by
  have hreplied : replied s.download.isSome state reply
      = some (if reply.status = ok then .checkRelaxed state else .retry state) := by
    unfold replied
    rw [hs, Option.isSome_some, if_pos rfl]
    split <;> rfl
  rw [← hreplied]
  cases state with
  | sessionLogon =>
    have hlogon : sent.call = .sessionLogon := (Option.some.inj hcall).symm
    simp only [asked, hfind, Option.map_some, hlogon]
  | userDataStreamStart =>
    have hstart : sent.call = .userDataStreamStart := (Option.some.inj hcall).symm
    simp only [asked, hfind, Option.map_some, hstart]
  | undefined | accountPosition | done => cases hwaits

/-- Where the download calls back, it has been asked about a request of the logon. -/
theorem downloads_of_asked (hfind : s.world.socket.calls.find n = some sent) {reply : Json.Reply}
    {arrangement : Json.Arrangement} {env : Answers} {d : Dispatcher} {request : Stages.Request State}
    (hasked : asked s (.own (.answer n reply arrangement env d)) = some request) :
    sent.call.downloads = true ∧ (reply.status = ok ∨ s.download.isSome = true) := by
  have hreplied : ∀ state, replied s.download.isSome state reply = some request →
      reply.status = ok ∨ s.download.isSome = true := by
    intro state h
    unfold replied at h
    split at h
    next hstatus => exact Or.inl hstatus
    next =>
      split at h
      next hsome => exact Or.inr hsome
      next => cases h
  simp only [asked, hfind, Option.map_some] at hasked
  cases hcall : sent.call <;> rw [hcall] at hasked <;>
    first | exact ⟨rfl, hreplied _ hasked⟩ | cases hasked

/-- The download stays where it has just called back, or nothing has happened. -/
theorem moved_some {again : Bool} {e : Turn} (h : (moved proc s again e).1 = some state) :
    (downloads.waits state = true ∧ state ∈ (moved proc s again e).2 ∧ ∃ request, asked s e = some request) ∨
      moved proc s again e = (s.download, []) := by
  unfold moved at h ⊢
  split at h
  next request hasked =>
    rcases Stages.ask_some h with ⟨hwaits, hmem⟩ | hstill
    · exact Or.inl ⟨hwaits, hmem, request, hasked⟩
    · exact Or.inr hstill
  next => exact Or.inr rfl

/-- An answer to an outstanding request, with what the download makes of it. -/
theorem logonStep_answer (hfind : s.world.socket.calls.find n = some sent) {sequence : UInt32}
    (hid : Json.WSAPIRequest.decode scanner.toCodec sent.id = some { sent.call.request with sequence })
    (reply : Json.Reply) (arrangement : Json.Arrangement) (env : Answers) (d : Dispatcher) (again : Bool) :
    let move := moved proc s again (.own (.answer n reply arrangement env d))
    let f : Act R := handle scanner settings reply.parsed { sent.call.request with sequence }
      { env with downloading := s.download.isSome, visits := move.2 } d
    let w : World R := { s.world with socket.calls := s.world.socket.calls.settle n }
    logonStep scanner settings proc (.own (.answer n reply arrangement env d), again) s
      = ({ world := (f w).1, download := move.1 }, .answered n reply :: (f w).2) := by
  simp only [logonStep, turn, Turn.answered, step, answer, hfind,
    text_answer scanner settings reply arrangement _ d hid, seqAll, seq_skip]
  rfl

theorem awaits_answer {out : List Output} (ht : LoggedOn scanner settings out s) (h : Awaits s) (n : ℕ)
    (reply : Json.Reply) (arrangement : Json.Arrangement) (env : Answers) (d : Dispatcher) :
    Awaits (logonStep scanner settings proc (.own (.answer n reply arrangement env d), true) s).1 := by
  cases hfind : s.world.socket.calls.find n with
  | none =>
    have hmoved : moved proc s true (.own (.answer n reply arrangement env d)) = (s.download, []) := by
      simp [moved, asked, hfind]
    simpa [logonStep, hmoved, turn, Turn.answered, step, answer, hfind] using h
  | some sent =>
    obtain ⟨sequence, hid⟩ := ht.correlated.packed n sent (Ledger.mem_of_find hfind)
    rw [logonStep_answer hfind hid]
    intro state hstate
    have hmoved : (moved proc s true (.own (.answer n reply arrangement env d))).1 = some state := hstate
    rcases moved_some hmoved with ⟨hwaits, hvisit, request, hasked⟩ | hstill
    · -- the request of the state has just been sent
      obtain ⟨hcall, hanswered⟩ := downloads_of_asked hfind hasked
      exact ⟨hwaits, outstanding_handle scanner settings reply hcall sequence hanswered d hvisit hwaits _⟩
    · rw [hstill] at hmoved
      obtain ⟨hwaits, n', sent', hmem, hcall⟩ := h state hmoved
      have hne : n' ≠ n := by
        rintro rfl
        -- the answer would have moved the download on
        obtain rfl := Ledger.entry_unique hmem (Ledger.mem_of_find hfind)
        have hasked := asked_awaited hmoved hwaits hfind hcall reply arrangement env d
        obtain ⟨ss, henter⟩ : ∃ ss, moved proc s true (.own (.answer n' reply arrangement env d))
            = downloads.enter ss := by
          unfold moved
          rw [hasked]
          dsimp only
          split
          · exact ⟨_, (proc.ask_checkRelaxed ..).trans (if_pos hmoved)⟩
          · exact ⟨_, (proc.ask_retry ..).trans (if_pos rfl)⟩
        rw [henter] at hstill
        have hvisit := (Stages.enter_some ((congrArg Prod.fst hstill).trans hmoved)).2
        rw [hstill] at hvisit
        cases hvisit
      refine ⟨hwaits, n', sent', ?_, hcall⟩
      exact holds_handle scanner settings (n', sent') reply sent.call sequence _ d [] _
        (Ledger.mem_settle.mpr ⟨hmem, hne⟩)

/-! ### Runs -/

/-- A turn in which a retry calls back again. -/
theorem awaits_turn {e : Turn × Bool} (hagain : e.2 = true) :
    Keeps (fun out (s : Logon R) => LoggedOn scanner settings out s ∧ Awaits s)
      (logonStep scanner settings proc e) := by
  rintro out s ⟨ht, h⟩
  refine ⟨loggedOn_step scanner settings proc e out s ht, ?_⟩
  obtain ⟨e, again⟩ := e
  obtain rfl : again = true := hagain
  have hstay : ∀ e : Turn, (∀ dl visits, e.answered dl visits = e) → asked s e = none →
      (∀ x ∈ s.world.socket.calls.entries,
        x ∈ (turn scanner settings e s.world).1.socket.calls.entries) →
      Awaits (logonStep scanner settings proc (e, true) s).1 := by
    intro e hanswered hasked hcalls
    have hmoved : moved proc s true e = (s.download, []) := by simp [moved, hasked]
    dsimp only [logonStep]
    rw [hmoved, hanswered]
    intro state hstate
    obtain ⟨hwaits, n, sent, hmem, hcall⟩ := h state hstate
    exact ⟨hwaits, n, sent, hcalls _ hmem, hcall⟩
  cases e with
  | requested | stale | otherServed | otherCommitted =>
    refine hstay _ (fun _ _ => rfl) rfl fun x hx => ?_
    rw [(socket_turn scanner settings _ s.world (by rintro e' ⟨⟩)).1]
    exact hx
  | own e =>
    cases e with
    | ready visits =>
      intro state hstate
      have hdownload : (moved proc s true (.own (.ready visits))).1 = some state := hstate
      rw [moved_ready] at hdownload
      obtain rfl : .sessionLogon = state := Option.some.inj hdownload
      refine ⟨rfl, ?_⟩
      dsimp only [logonStep]
      rw [moved_ready]
      exact outstanding_visit scanner (List.mem_singleton_self _) rfl _
    | disconnected =>
      intro state hstate
      have hdownload : (moved proc s true (.own .disconnected)).1 = some state := hstate
      rw [moved_disconnected] at hdownload
      cases hdownload
    | answer n reply arrangement env d => exact awaits_answer ht h n reply arrangement env d
    | _ => exact hstay _ (fun _ _ => rfl) rfl fun x hx => holds_step rfl hx

/-- The stream is one step further. -/
def Advanced (state : State) (s : Logon R) : Prop :=
  (state = .sessionLogon ∧ s.download = some .userDataStreamStart) ∨
    (state = .userDataStreamStart ∧ s.world.socket.connectionStatus = .ready)

theorem advanced_answer {out : List Output} (ht : LoggedOn scanner settings out s)
    (hs : s.download = some state) (hwaits : downloads.waits state = true)
    (hmem : (n, sent) ∈ s.world.socket.calls.entries) (hcall : state.call = some sent.call)
    {reply : Json.Reply} (hstatus : reply.status = ok) (arrangement : Json.Arrangement) (env : Answers)
    (d : Dispatcher) (again : Bool) :
    Advanced state
      (logonStep scanner settings proc (.own (.answer n reply arrangement env d), again) s).1 := by
  obtain ⟨sequence, hid⟩ := ht.correlated.packed n sent hmem
  have hfind := Ledger.find_of_mem hmem
  have hmoved : moved proc s again (.own (.answer n reply arrangement env d))
      = proc.ask downloads again (some state) (.checkRelaxed state) := by
    rw [moved, asked_awaited hs hwaits hfind hcall, if_pos hstatus, hs]
  rw [proc.ask_checkRelaxed, if_pos rfl] at hmoved
  rw [logonStep_answer hfind hid]
  cases state with
  | sessionLogon => exact Or.inl ⟨rfl, congrArg Prod.fst hmoved⟩
  | userDataStreamStart =>
    have hstart : sent.call = .userDataStreamStart := (Option.some.inj hcall).symm
    have hvisits : (moved proc s again (.own (.answer n reply arrangement env d))).2
        = [.accountPosition, .done] := congrArg Prod.snd hmoved
    refine Or.inr ⟨rfl, ?_⟩
    simp only [hvisits, hstart, handle, wsapiListenKey, Call.request, status_parsed, if_pos hstatus]
    rfl
  | undefined | accountPosition | done => cases hwaits

variable (scanner settings proc) in
/-- CORRECT: in every run in which a retry calls back again, whenever the download of the logon waits, the
    request that it waits for is outstanding in the session, and an answer with status 200 brings the
    stream one step on: from `session.logon` to `userDataStream.start`, and from there to READY. -/
theorem logon_awaited (account : String) (streamId : UInt16) (request : Request R)
    (es : List (Turn × Bool)) (hagain : ∀ e ∈ es, e.2 = true) :
    let s := (run (logonStep scanner settings proc) es (createLogon account streamId request)).1
    ∀ state, s.download = some state →
      ∃ n sent, (n, sent) ∈ s.world.socket.calls.entries ∧ state.call = some sent.call ∧
        ∀ (reply : Json.Reply) (arrangement : Json.Arrangement) (env : Answers) (d : Dispatcher)
          (again : Bool), reply.status = ok → Advanced state
            (logonStep scanner settings proc (.own (.answer n reply arrangement env d), again) s).1 := by
  intro s state hs
  have hkeeps : Keeps (fun out (s : Logon R) => LoggedOn scanner settings out s ∧ Awaits s)
      (run (logonStep scanner settings proc) es) := keeps_run_of fun e he => awaits_turn (hagain e he)
  have hcreate : Awaits (createLogon account streamId request) := by
    intro state hstate
    cases hstate
  obtain ⟨ht, h⟩ := hkeeps [] (createLogon account streamId request)
    ⟨loggedOn_create scanner settings account streamId request, hcreate⟩
  obtain ⟨hwaits, n, sent, hmem, hcall⟩ := h state hs
  exact ⟨n, sent, hmem, hcall, fun reply arrangement env d again hstatus =>
    advanced_answer ht hs hwaits hmem hcall hstatus arrangement env d again⟩

end

/-- The logon is refused once. -/
def refusedOnce : List (Turn × Bool) :=
  [(.own (.ready []), true), ((answered 0 400).1, true), ((answered 1 200).1, true)]

/-- The stream has asked for the user data stream. -/
theorem logon_refusedOnce :
    let s := (run (logonStep .standard {} .standard) refusedOnce (createLogon (R := .simple) "A1" 1 {})).1
    ∃ n sent, (n, sent) ∈ s.world.socket.calls.entries ∧
      State.userDataStreamStart.call = some sent.call ∧
      ∀ (reply : Json.Reply) (arrangement : Json.Arrangement) (env : Answers) (d : Dispatcher)
        (again : Bool), reply.status = ok → Advanced .userDataStreamStart
          (logonStep .standard {} .standard (.own (.answer n reply arrangement env d), again) s).1 :=
  logon_awaited (R := .simple) .standard {} .standard "A1" 1 {} refusedOnce (by decide) .userDataStreamStart
    (by decide)

end BinanceFutures.WebSocket
