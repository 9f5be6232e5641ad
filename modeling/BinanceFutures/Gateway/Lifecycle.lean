import BinanceFutures.Gateway.ListenKeys

/-! # Life of a drop copy

    A drop copy lives from the listen key that creates it to the timer that removes it. What it receives
    in between decides when that is.

        absent ── created ─▶ alive ── ListenKeyExpired ─▶ expired ── Disconnected ─▶ gone ── removed ─▶ absent

    `Phase` is that machine, as it should be; `lived_reaction` says that the streams of an account follow
    it: a drop copy is created where there is none, removed when it is gone, and no timer finds it gone.
    The controller remembers the account, not the drop copy, so one has to see that the account's next
    drop copy is not the one that is removed. -/

namespace BinanceFutures
open Machine

/-- The event is a timer. -/
def DropCopy.Event.ticks : DropCopy.Event → Bool
  | .timer .. => true
  | _ => false

/-- The connection is down. -/
def DropCopy.Event.disconnects : DropCopy.Event → Bool
  | .disconnected => true
  | _ => false

namespace Controller
open Machine.Family

/-- What happens to the drop copies of an account. -/
inductive Life where
  | created (listenKey : String)
  | received (e : DropCopy.Event)
  | removed

/-- What the latest drop copy of an account has been through. -/
inductive Phase where | absent | alive | expired | gone
  deriving DecidableEq

/-- The phase after something has happened. -/
def Phase.next : Phase → Life → Phase
  | _, .created _ => .alive
  | _, .removed => .absent
  | .alive, .received e => if e.expires then .expired else .alive
  | .expired, .received e => if e.disconnects then .gone else .expired
  | phase, .received _ => phase

def Phase.step (l : Life) : Action Phase Empty := modify (·.next l)

/-- What may happen in a phase. -/
def Phase.allows : Phase → Life → Prop
  | phase, .created _ => phase = .absent
  | phase, .removed => phase = .gone
  | phase, .received e => phase = .gone → e.ticks = false

/-- The phase after all that has happened. -/
def phaseAfter (log : List Life) : Phase := (run Phase.step log .absent).1

/-- The same drop copy, all the time. -/
def Steady (log : List Life) : Prop := ∀ l ∈ log, ∃ e, l = .received e

/-- The latest drop copy has received `ListenKeyExpired`, and then `Disconnected`. -/
def Gone (log : List Life) : Prop :=
  ∃ before listenKey alive e expired dead,
    log = before ++ .created listenKey ::
      (alive ++ .received e :: (expired ++ .received .disconnected :: dead)) ∧
    e.expires = true ∧ Steady alive ∧ Steady expired ∧ Steady dead

theorem phaseAfter_append (log log' : List Life) :
    phaseAfter (log ++ log') = (run Phase.step log' (phaseAfter log)).1 := by
  rw [phaseAfter, run_append, seq_fst, phaseAfter]

theorem phaseAfter_concat (log : List Life) (l : Life) :
    phaseAfter (log ++ [l]) = (phaseAfter log).next l := by
  rw [phaseAfter_append]
  rfl

theorem steady_concat {log : List Life} (h : Steady log) (e : DropCopy.Event) :
    Steady (log ++ [.received e]) := by
  intro l hl
  rcases List.mem_append.mp hl with hl | hl
  · exact h l hl
  · exact ⟨e, List.mem_singleton.mp hl⟩

/-- What receiving keeps holds until something else happens. -/
theorem keeps_steady {P : Phase → Prop} (h : ∀ p e, P p → P (p.next (.received e)))
    {log : List Life} (hP : P (phaseAfter log)) :
    ∀ {rest : List Life}, Steady rest → P (phaseAfter (log ++ rest)) := by
  intro rest hrest
  induction rest using List.reverseRecOn with
  | nil => rwa [List.append_nil]
  | append_singleton rest l ih =>
    obtain ⟨e, rfl⟩ := hrest l (by simp)
    rw [← List.append_assoc, phaseAfter_concat]
    exact h _ e (ih fun l' hl' => hrest l' (List.mem_append_left _ hl'))

theorem phaseAfter_of_gone {log : List Life} (h : Gone log) : phaseAfter log = .gone := by
  obtain ⟨before, listenKey, alive, e, expired, dead, rfl, he, halive, hexpired, hdead⟩ := h
  have hcreated : phaseAfter (before ++ [.created listenKey]) ≠ .absent := by
    rw [phaseAfter_concat]
    simp [Phase.next]
  have hthere := keeps_steady (P := (· ≠ .absent)) (fun p e hp => by
    cases p <;> simp only [Phase.next] <;> first | exact hp | (split <;> simp)) hcreated halive
  have hexpires : phaseAfter (before ++ [.created listenKey] ++ alive ++ [.received e]) = .expired ∨
      phaseAfter (before ++ [.created listenKey] ++ alive ++ [.received e]) = .gone := by
    rw [phaseAfter_concat]
    cases hphase : phaseAfter (before ++ [.created listenKey] ++ alive) with
    | absent => exact absurd hphase hthere
    | alive => simp [Phase.next, he]
    | expired => cases hd : e.disconnects <;> simp [Phase.next, hd]
    | gone => simp [Phase.next]
  have hlate := keeps_steady (P := fun p => p = .expired ∨ p = .gone) (fun p e hp => by
    rcases hp with rfl | rfl
    · cases hd : e.disconnects <;> simp [Phase.next, hd]
    · simp [Phase.next]) hexpires hexpired
  have hgone : phaseAfter (before ++ [.created listenKey] ++ alive ++ [.received e] ++ expired ++
      [.received .disconnected]) = .gone := by
    rw [phaseAfter_concat]
    rcases hlate with hlate | hlate
    · rw [hlate]
      rfl
    · rw [hlate]
      rfl
  have hdone := keeps_steady (P := (· = .gone)) (fun p e hp => by rw [hp]; rfl) hgone hdead
  simpa using hdone

/-- What a log looks like whose last drop copy has come as far as the phase. -/
def Phase.Shape (log : List Life) : Phase → Prop
  | .absent => True
  | .alive => ∃ before listenKey alive, log = before ++ .created listenKey :: alive ∧ Steady alive
  | .expired => ∃ before listenKey alive e expired,
      log = before ++ .created listenKey :: (alive ++ .received e :: expired) ∧ e.expires = true ∧
        Steady alive ∧ Steady expired
  | .gone => Gone log

theorem shape_phaseAfter (log : List Life) : (phaseAfter log).Shape log := by
  induction log using List.reverseRecOn with
  | nil => trivial
  | append_singleton log l ih =>
    rw [phaseAfter_concat]
    cases l with
    | created listenKey =>
      have hnext : (phaseAfter log).next (.created listenKey) = .alive := by
        cases phaseAfter log <;> rfl
      rw [hnext]
      exact ⟨log, listenKey, [], rfl, by simp [Steady]⟩
    | removed =>
      have hnext : (phaseAfter log).next .removed = .absent := by cases phaseAfter log <;> rfl
      rw [hnext]
      trivial
    | received e =>
      cases hphase : phaseAfter log with
      | absent => trivial
      | alive =>
        rw [hphase] at ih
        obtain ⟨before, listenKey, alive, rfl, halive⟩ := ih
        cases he : e.expires with
        | false =>
          rw [Phase.next, if_neg (by simp [he])]
          exact ⟨before, listenKey, alive ++ [.received e], by simp, steady_concat halive e⟩
        | true =>
          rw [Phase.next, if_pos he]
          exact ⟨before, listenKey, alive, e, [], by simp, he, halive, by simp [Steady]⟩
      | expired =>
        rw [hphase] at ih
        obtain ⟨before, listenKey, alive, e', expired, rfl, he', halive, hexpired⟩ := ih
        cases he : e.disconnects with
        | false =>
          rw [Phase.next, if_neg (by simp [he])]
          exact ⟨before, listenKey, alive, e', expired ++ [.received e], by simp, he', halive,
            steady_concat hexpired e⟩
        | true =>
          rw [Phase.next, if_pos he]
          obtain rfl : e = .disconnected := by cases e <;> first | rfl | cases he
          exact ⟨before, listenKey, alive, e', expired, [], by simp, he', halive, hexpired,
            by simp [Steady]⟩
      | gone =>
        rw [hphase] at ih
        obtain ⟨before, listenKey, alive, e', expired, dead, rfl, he', halive, hexpired, hdead⟩ := ih
        exact ⟨before, listenKey, alive, e', expired, dead ++ [.received e], by simp, he', halive,
          hexpired, steady_concat hdead e⟩

theorem phaseAfter_eq_gone {log : List Life} : phaseAfter log = .gone ↔ Gone log := by
  constructor
  · intro h
    have hshape := shape_phaseAfter log
    rwa [h] at hshape
  · exact phaseAfter_of_gone

section
variable {R : LimitRequest} (scanner : Json.Scanner) (settings : Settings)

/-! ### What happens -/

/-- What the controller puts out about drop copies. -/
def Output.life : Output → Option Life
  | .dropCopyCreated listenKey => some (.created listenKey)
  | .dropCopyRemoved => some .removed
  | _ => none

def lifeOf (out : List Output) : List Life := out.filterMap Output.life

/-- The drop copy, if there is one, is handed an event. -/
def handed (e : DropCopy.Event) (s : Slice R) : List Life :=
  match s.dropCopy with
  | none => []
  | some _ => [.received e]

/-- What a reaction makes the drop copies of the account go through: what the controller does, and what
    it hands to the drop copy that is there at the time. -/
def life (account : String) (e : Event) (s : Slice R) : List Life :=
  match e with
  | .start =>
    let f : Act R := onOrderEntry scanner settings .start .start
    lifeOf (f s).2 ++ handed .start (f s).1
  | .stop =>
    let f : Act R := onOrderEntry scanner settings .stop .stop
    lifeOf (f s).2 ++ handed .stop (f s).1
  | .timer now answers =>
    let f : Act R := seq (reap scanner settings now)
      (orderEntryTimer scanner settings now (answers account))
    lifeOf (f s).2 ++ handed
      (.timer now (answers account).dropCopyRefresh (answers account).d (answers account).visits)
      (f s).1
  | .dropCopy account' e => if account' = account ∧ e.fromConnection then handed e s else []
  | e => lifeOf (reaction scanner settings account e s).2

theorem lifeOf_append (out out' : List Output) : lifeOf (out ++ out') = lifeOf out ++ lifeOf out' :=
  List.filterMap_append

/-! ### Phases -/

/-- The phase that the account's streams are in. -/
def phase (s : Slice R) : Phase :=
  match s.dropCopy with
  | none => .absent
  | some d => if s.zombie then .gone else if d.stop then .expired else .alive

/-- A drop copy that is to be removed is there, and its listen key has expired. -/
def Ok (s : Slice R) : Prop := s.zombie = true → ∃ d, s.dropCopy = some d ∧ d.stop = true

/-- What happens between two states is what the phases allow. -/
structure Lived (log : List Life) (s s' : Slice R) : Prop where
  ok : Ok s'
  allowed : Along Phase.step Phase.allows log (phase s)
  phase_eq : (run Phase.step log (phase s)).1 = phase s'

theorem lived_trans {log log' : List Life} {s s' s'' : Slice R} (h : Lived log s s')
    (h' : Lived log' s' s'') : Lived (log ++ log') s s'' := by
  refine ⟨h'.ok, along_append.mpr ⟨h.allowed, ?_⟩, ?_⟩
  · rw [h.phase_eq]
    exact h'.allowed
  · rw [run_append, seq_fst, h.phase_eq]
    exact h'.phase_eq

/-- Nothing happens. -/
theorem lived_nil {s s' : Slice R} (hok : Ok s) (hdrop : s'.dropCopy = s.dropCopy)
    (hzombie : s'.zombie = s.zombie) : Lived [] s s' := by
  refine ⟨?_, trivial, ?_⟩
  · unfold Ok
    rw [hzombie, hdrop]
    exact hok
  · rw [phase, phase, hzombie, hdrop]
    rfl

/-- What precedes has not touched the drop copy. -/
theorem lived_of_same {log : List Life} {s s₁ s' : Slice R} (h : Lived log s₁ s')
    (hdrop : s₁.dropCopy = s.dropCopy) (hzombie : s₁.zombie = s.zombie) : Lived log s s' := by
  have hphase : phase s₁ = phase s := by rw [phase, phase, hzombie, hdrop]
  exact ⟨h.ok, hphase ▸ h.allowed, hphase ▸ h.phase_eq⟩

/-- The action does to the drop copy what it puts out, and what the phases allow. -/
def Lives (f : Act R) : Prop := ∀ s, Ok s → Lived (lifeOf (f s).2) s (f s).1

theorem lives_seq {f g : Act R} (hf : Lives f) (hg : Lives g) : Lives (seq f g) := by
  intro s hok
  rw [seq_snd, lifeOf_append]
  exact lived_trans (hf s hok) (hg _ (hf s hok).ok)

theorem lives_seqAll : ∀ {fs : List (Act R)}, (∀ f ∈ fs, Lives f) → Lives (seqAll fs)
  | [], _ => fun _ hok => lived_nil hok rfl rfl
  | f :: _, h =>
      lives_seq (h f (List.mem_cons_self ..))
        (lives_seqAll fun g hg => h g (List.mem_cons_of_mem _ hg))

theorem lives_emit {out : List Output} (h : lifeOf out = []) : Lives (R := R) (emit out) := by
  intro s hok
  rw [emit_apply, h]
  exact lived_nil hok rfl rfl

/-! ### The order entry -/

/-- A drop copy is created where there is none. -/
theorem lives_createDropCopyHelper (variant : Variant) (listenKey : String) :
    Lives (R := R) (createDropCopyHelper settings variant listenKey) := by
  intro s hok
  cases hdrop : s.dropCopy with
  | some d =>
    have hsame : createDropCopyHelper settings variant listenKey s = (s, []) := by
      simp [createDropCopyHelper, hdrop]
    rw [hsame]
    exact lived_nil hok rfl rfl
  | none =>
    have hzombie : s.zombie = false := by
      cases hz : s.zombie with
      | false => rfl
      | true =>
        obtain ⟨d, hd, -⟩ := hok hz
        rw [hdrop] at hd
        cases hd
    unfold createDropCopyHelper
    rw [hdrop]
    have hphase : phase s = .absent := by rw [phase, hdrop]
    have hlog : lifeOf (.dropCopyCreated listenKey :: (DropCopy.step settings .start
        (DropCopy.create variant s.account.name listenKey s.request)).2.map Output.dropCopy)
        = [.created listenKey] := rfl
    dsimp only
    rw [hlog]
    refine ⟨fun hz => ?_, ⟨hphase, trivial⟩, ?_⟩
    · dsimp only at hz
      rw [hzombie] at hz
      cases hz
    · rw [hphase]
      simp [run, seq, Phase.step, Phase.next, phase, hzombie, DropCopy.step, DropCopy.create]

theorem lives_handleRest (kind : RestStream.Kind) (o : RestStream.Output) :
    Lives (R := R) (handleRest settings kind o) := by
  cases o with
  | listenKeyUpdate listenKey =>
    exact lives_seq (lives_emit rfl) (lives_createDropCopyHelper settings _ _)
  | _ => exact lives_emit rfl

theorem lives_handleWebSocket (o : WebSocket.Output) :
    Lives (R := R) (handleWebSocket settings o) := by
  cases o with
  | listenKeyUpdate listenKey =>
    exact lives_seq (lives_emit rfl) (lives_createDropCopyHelper settings _ _)
  | _ => exact lives_emit rfl

theorem lives_handlers {α : Type} {handle : α → Act R} (h : ∀ o, Lives (handle o)) (os : List α) :
    Lives (seqAll (os.map handle)) := by
  refine lives_seqAll fun f hf => ?_
  obtain ⟨o, _, rfl⟩ := List.mem_map.mp hf
  exact h o

theorem lives_onRest (e : RestStream.Event) : Lives (R := R) (onRest settings e) := by
  intro s hok
  unfold onRest
  split
  · exact lived_nil hok rfl rfl
  · exact lived_of_same (lives_handlers (lives_handleRest settings _) _ _ hok) rfl rfl

theorem lives_onWebSocket (e : WebSocket.Event) :
    Lives (R := R) (onWebSocket scanner settings e) := by
  intro s hok
  unfold onWebSocket
  split
  · exact lived_nil hok rfl rfl
  · exact lived_of_same (lives_handlers (lives_handleWebSocket settings) _ _ hok) rfl rfl

theorem lives_onOrderEntry (rest : RestStream.Event) (webSocket : WebSocket.Event) :
    Lives (R := R) (onOrderEntry scanner settings rest webSocket) :=
  lives_seq (lives_onRest settings rest) (lives_onWebSocket scanner settings webSocket)

/-- Handlers that hear of no listen key put out what they hear. -/
theorem quiet_handlers {α : Type} {handle : α → Act R} {latchEvent : α → Option (Latch.Event String)}
    (hhandle : ∀ o, latchEvent o = none → ∃ out, handle o = emit out ∧ lifeOf out = []) :
    ∀ {os : List α}, os.filterMap latchEvent = [] → ∀ s,
      (seqAll (os.map handle) s).1 = s ∧ lifeOf (seqAll (os.map handle) s).2 = []
  | [], _, _ => ⟨rfl, rfl⟩
  | o :: os, hnone, s => by
      rw [List.filterMap_eq_nil_iff] at hnone
      obtain ⟨out, hemit, hlife⟩ := hhandle o (hnone o (List.mem_cons_self ..))
      have hrest := quiet_handlers hhandle
        (List.filterMap_eq_nil_iff.mpr fun o' ho' => hnone o' (List.mem_cons_of_mem _ ho')) s
      rw [List.map_cons, seqAll, seq_fst, seq_snd, lifeOf_append, hemit, emit_apply, hlife,
        List.nil_append]
      exact hrest

/-- A turn that acknowledges no listen key leaves the drop copy alone. -/
structure Quiet (f : Act R) : Prop where
  dropCopy_eq : ∀ s, (f s).1.dropCopy = s.dropCopy
  zombie_eq : ∀ s, (f s).1.zombie = s.zombie
  life_eq : ∀ s, lifeOf (f s).2 = []

theorem quiet_seq {f g : Act R} (hf : Quiet f) (hg : Quiet g) : Quiet (seq f g) := by
  refine ⟨fun s => ?_, fun s => ?_, fun s => ?_⟩
  · rw [seq_fst, hg.dropCopy_eq, hf.dropCopy_eq]
  · rw [seq_fst, hg.zombie_eq, hf.zombie_eq]
  · rw [seq_snd, lifeOf_append, hf.life_eq, hg.life_eq, List.append_nil]

theorem lives_of_quiet {f : Act R} (hf : Quiet f) : Lives f := by
  intro s hok
  rw [hf.life_eq]
  exact lived_nil hok (hf.dropCopy_eq s) (hf.zombie_eq s)

theorem quiet_onDownload (e : RestStream.Event) : Quiet (R := R) (onDownload settings e) := by
  have hlife : ∀ os : List RestStream.Output, lifeOf (os.map .download) = [] := by
    intro os
    rw [lifeOf, List.filterMap_map]
    exact List.filterMap_eq_nil_iff.mpr fun _ _ => rfl
  refine ⟨fun s => ?_, fun s => ?_, fun s => ?_⟩
  · unfold onDownload
    split <;> rfl
  · unfold onDownload
    split <;> rfl
  · unfold onDownload
    split
    · rfl
    · exact hlife _

theorem quiet_onRest {e : RestStream.Event}
    (he : ∀ stream, RestStream.acknowledged stream e = none) : Quiet (R := R) (onRest settings e) := by
  have hturn : ∀ s : Slice R, (onRest settings e s).1.dropCopy = s.dropCopy ∧
      (onRest settings e s).1.zombie = s.zombie ∧ lifeOf (onRest settings e s).2 = [] := by
    intro s
    unfold onRest
    split
    · exact ⟨rfl, rfl, rfl⟩
    next stream _ =>
      have htrace := (RestStream.effect_step settings e ⟨stream, s.request⟩).trace_eq
      rw [he stream, RestStream.announcement] at htrace
      have hhandle : ∀ o : RestStream.Output, o.latchEvent = none →
          ∃ out, handleRest (R := R) settings stream.kind o = emit out ∧ lifeOf out = [] := by
        intro o ho
        cases o with
        | listenKeyUpdate listenKey => cases ho
        | _ => exact ⟨_, rfl, rfl⟩
      obtain ⟨hstate, hlife⟩ := quiet_handlers hhandle htrace
        { s with
          orderEntry := .rest (RestStream.step settings e ⟨stream, s.request⟩).1.stream
          request := (RestStream.step settings e ⟨stream, s.request⟩).1.request }
      dsimp only
      rw [hstate]
      exact ⟨rfl, rfl, hlife⟩
  exact ⟨fun s => (hturn s).1, fun s => (hturn s).2.1, fun s => (hturn s).2.2⟩

theorem quiet_onWebSocket {e : WebSocket.Event} (he : ∀ n reply arrangement env d,
    e ≠ .answer n reply arrangement env d) : Quiet (R := R) (onWebSocket scanner settings e) := by
  have hturn : ∀ s : Slice R, (onWebSocket scanner settings e s).1.dropCopy = s.dropCopy ∧
      (onWebSocket scanner settings e s).1.zombie = s.zombie ∧
      lifeOf (onWebSocket scanner settings e s).2 = [] := by
    intro s
    unfold onWebSocket
    split
    · exact ⟨rfl, rfl, rfl⟩
    next socket _ =>
      have htrace := WebSocket.trace_step scanner settings he ⟨socket, s.request⟩
      have hhandle : ∀ o : WebSocket.Output, o.latchEvent = none →
          ∃ out, handleWebSocket (R := R) settings o = emit out ∧ lifeOf out = [] := by
        intro o ho
        cases o with
        | listenKeyUpdate listenKey => cases ho
        | _ => exact ⟨_, rfl, rfl⟩
      obtain ⟨hstate, hlife⟩ := quiet_handlers hhandle htrace
        { s with
          orderEntry := .webSocket (WebSocket.step scanner settings e ⟨socket, s.request⟩).1.socket
          request := (WebSocket.step scanner settings e ⟨socket, s.request⟩).1.request }
      dsimp only
      rw [hstate]
      exact ⟨rfl, rfl, hlife⟩
  exact ⟨fun s => (hturn s).1, fun s => (hturn s).2.1, fun s => (hturn s).2.2⟩

/-! ### The drop copy -/

/-- The handlers of what a drop copy puts out remember that it asks to be removed. -/
theorem handlers_dropCopy : ∀ (os : List DropCopy.Output) (s : Slice R),
    (seqAll (os.map handleDropCopy) s).1 =
      { s with zombie := s.zombie || os.any (·.isRemove) }
  | [], s => by simp [seqAll]
  | o :: os, s => by
      rw [List.map_cons, seqAll, seq_fst, handlers_dropCopy os, List.any_cons]
      cases o <;> simp [handleDropCopy, seq, DropCopy.Output.isRemove]

/-- What an event does to the drop copy it is handed. -/
theorem onDropCopy_of_some (e : DropCopy.Event) {s : Slice R} {d : DropCopy}
    (h : s.dropCopy = some d) :
    ∃ d', (onDropCopy settings e s).1.dropCopy = some d' ∧ d'.stop = (d.stop || e.expires) ∧
      (onDropCopy settings e s).1.zombie = (s.zombie || (e.disconnects && d.stop)) := by
  have hlasting := congrArg Prod.snd (DropCopy.lasting_step settings e ⟨d, s.request⟩)
  have hremoves : (DropCopy.step settings e ⟨d, s.request⟩).2.any (·.isRemove)
      = (e.disconnects && d.stop) := by
    rw [Bool.eq_iff_iff, List.any_eq_true, DropCopy.removes_step, Bool.and_eq_true]
    cases e <;> simp [DropCopy.Event.disconnects]
  unfold onDropCopy
  rw [h]
  dsimp only
  rw [handlers_dropCopy]
  exact ⟨_, rfl, hlasting, by rw [hremoves]⟩

/-- What a drop copy is handed moves it as the phases say. -/
theorem lived_onDropCopy {e : DropCopy.Event} {s : Slice R} (hok : Ok s)
    (hticks : e.ticks = true → s.zombie = false) :
    Lived (handed e s) s (onDropCopy settings e s).1 := by
  cases hdrop : s.dropCopy with
  | none =>
    have hskip : onDropCopy settings e s = (s, []) := by simp [onDropCopy, hdrop]
    rw [hskip, handed, hdrop]
    exact lived_nil hok rfl rfl
  | some d =>
    obtain ⟨d', hd', hstop, hzombie⟩ := onDropCopy_of_some settings e hdrop
    have hnext : (phase s).next (.received e) = phase (onDropCopy settings e s).1 := by
      rw [phase, phase, hdrop, hd', hzombie]
      dsimp only
      rw [hstop]
      cases hz : s.zombie with
      | true => simp [Phase.next]
      | false => cases hexpired : d.stop <;> simp [Phase.next]
    rw [handed, hdrop]
    refine ⟨?_, ⟨?_, trivial⟩, hnext⟩
    · intro hgone
      rw [hzombie, Bool.or_eq_true, Bool.and_eq_true] at hgone
      refine ⟨d', hd', ?_⟩
      rcases hgone with hz | ⟨-, hexpired⟩
      · obtain ⟨d'', hd'', hexpired⟩ := hok hz
        obtain rfl := Option.some.inj (hdrop.symm.trans hd'')
        rw [hstop, hexpired, Bool.true_or]
      · rw [hstop, hexpired, Bool.true_or]
    · intro hgone
      cases hz : s.zombie with
      | false =>
        rw [phase, hdrop, hz] at hgone
        cases hexpired : d.stop <;> simp [hexpired] at hgone
      | true =>
        cases ht : e.ticks with
        | false => rfl
        | true => rw [hticks ht] at hz; cases hz

/-! ### Reactions -/

/-- A zombie is removed, and nothing else. -/
theorem lived_reap (now : Nanos) {s : Slice R} (hok : Ok s) :
    Lived (lifeOf (reap scanner settings now s).2) s (reap scanner settings now s).1 ∧
      (reap scanner settings now s).1.zombie = false := by
  cases hz : s.zombie with
  | false =>
    have hskip : reap scanner settings now s = (s, []) := by simp [reap, guarded, hz]
    rw [hskip]
    exact ⟨lived_nil hok rfl rfl, hz⟩
  | true =>
    have hquiet : Quiet (R := R) (onOrderEntry scanner settings (.forceListenKeyRefresh now)
        (.forceListenKeyRefresh now)) :=
      quiet_seq (quiet_onRest settings fun _ => rfl) (quiet_onWebSocket scanner settings (by simp))
    have hreap : reap scanner settings now s = seqAll [
        fun s => ({ s with dropCopy := none }, [.dropCopyRemoved]),
        onOrderEntry scanner settings (.forceListenKeyRefresh now) (.forceListenKeyRefresh now),
        modify fun s => { s with zombie := false }] s := by
      rw [reap, guarded, if_pos hz]
    have hdrop : (reap scanner settings now s).1.dropCopy = none := by
      rw [hreap]
      exact hquiet.dropCopy_eq { s with dropCopy := none }
    have hzombie : (reap scanner settings now s).1.zombie = false := by rw [hreap]; rfl
    have hlife : lifeOf (reap scanner settings now s).2 = [.removed] := by
      have hnone := hquiet.life_eq { s with dropCopy := none }
      rw [hreap, seqAll, seqAll, seq_snd, seq_snd, lifeOf_append, lifeOf_append, hnone]
      rfl
    obtain ⟨d, hd, -⟩ := hok hz
    have hphase : phase s = .gone := by rw [phase, hd, hz]; rfl
    refine ⟨⟨fun h => ?_, ?_, ?_⟩, hzombie⟩
    · rw [hzombie] at h
      cases h
    · rw [hlife, hphase]
      exact ⟨rfl, trivial⟩
    · have hafter : phase (reap scanner settings now s).1 = .absent := by rw [phase, hdrop]
      rw [hafter, hlife]
      rfl

/-- Something happens, the drop copy takes its turn, and then the download. -/
theorem lived_turns {f : Act R} (hf : Lives f) {e : DropCopy.Event} (download : RestStream.Event)
    {s : Slice R} (hok : Ok s) (hticks : e.ticks = true → (f s).1.zombie = false) :
    Lived (lifeOf (f s).2 ++ handed e (f s).1) s
      (seqAll [f, onDropCopy settings e, onDownload settings download] s).1 := by
  have hbefore := hf s hok
  have hdrop := lived_onDropCopy settings hbefore.ok hticks
  have hafter := lives_of_quiet (quiet_onDownload settings download) _ hdrop.ok
  rw [(quiet_onDownload settings download).life_eq] at hafter
  have hall := lived_trans (lived_trans hbefore hdrop) hafter
  rwa [List.append_nil] at hall

/-- What happens to the drop copies of an account is what the phases allow. -/
theorem lived_reaction (account : String) (e : Event) {s : Slice R} (hok : Ok s) :
    Lived (life scanner settings account e s) s (reaction scanner settings account e s).1 := by
  have hif : ∀ {p : Prop} [Decidable p] {f : Act R}, Lives f → Lives (if p then f else skip) := by
    intro p _ f hf
    split
    · exact hf
    · exact lives_emit rfl
  cases e with
  | start =>
    exact lived_turns settings (lives_onOrderEntry scanner settings .start .start) .start hok
      (fun h => by cases h)
  | stop =>
    exact lived_turns settings (lives_onOrderEntry scanner settings .stop .stop) .stop hok
      (fun h => by cases h)
  | timer now answers =>
    have hquiet : Quiet (R := R) (orderEntryTimer scanner settings now (answers account)) :=
      quiet_seq (quiet_onRest settings fun _ => rfl) (quiet_onWebSocket scanner settings (by simp))
    have hbefore : Lives (R := R) (seq (reap scanner settings now)
        (orderEntryTimer scanner settings now (answers account))) :=
      lives_seq (fun s hok => (lived_reap scanner settings now hok).1) (lives_of_quiet hquiet)
    have hturns := lived_turns settings hbefore
      (e := .timer now (answers account).dropCopyRefresh (answers account).d (answers account).visits)
      (.timer now (answers account).downloadRefresh (answers account).downloadGate (answers account).d)
      hok fun _ => by
        rw [seq_fst, hquiet.zombie_eq]
        exact (lived_reap scanner settings now hok).2
    rw [seqAll, Machine.seq_assoc] at hturns
    exact hturns
  | request q =>
    refine hif (fun s hok => ?_) s hok
    unfold onRequest
    split
    · exact lives_emit rfl s hok
    · exact lives_onOrderEntry scanner settings _ _ s hok
    · exact lives_of_quiet (quiet_onDownload settings _) s hok
  | rest account' e => exact hif (lives_onRest settings e) s hok
  | webSocket account' e => exact hif (lives_onWebSocket scanner settings e) s hok
  | download account' e => exact hif (lives_of_quiet (quiet_onDownload settings e)) s hok
  | dropCopy account' e =>
    unfold life reaction
    dsimp only
    split
    next h =>
      refine lived_onDropCopy settings hok fun hticks => ?_
      -- a connection has no timers
      cases e <;> simp_all [DropCopy.Event.ticks, DropCopy.Event.fromConnection]
    next => exact lived_nil hok rfl rfl

/-- The controller does it. -/
def Life.done : Life → Bool
  | .received _ => false
  | _ => true

theorem filter_lifeOf (out : List Output) : (lifeOf out).filter Life.done = lifeOf out := by
  refine List.filter_eq_self.mpr fun l hl => ?_
  obtain ⟨o, _, hlife⟩ := List.mem_filterMap.mp hl
  cases o <;> first | (cases hlife; rfl) | cases hlife

theorem filter_handed (e : DropCopy.Event) (s : Slice R) : (handed e s).filter Life.done = [] := by
  unfold handed
  split <;> rfl

theorem lifeOf_onDropCopy (e : DropCopy.Event) (s : Slice R) :
    lifeOf (onDropCopy settings e s).2 = [] := by
  unfold onDropCopy
  split
  · rfl
  · have hhandle : ∀ (o : DropCopy.Output) (s : Slice R),
        (handleDropCopy o s).2.filterMap Output.life = (none : Option Life).toList := by
      intro o s
      cases o <;> rfl
    rw [lifeOf, filterMap_seqAll hhandle]
    exact List.filterMap_eq_nil_iff.mpr fun _ _ => rfl

/-- What the controller does to the drop copies is what it puts out about them. -/
theorem filter_life (account : String) (e : Event) (s : Slice R) :
    (life scanner settings account e s).filter Life.done
      = lifeOf (reaction scanner settings account e s).2 := by
  have hturns : ∀ (f : Act R) (e : DropCopy.Event) (download : RestStream.Event),
      (lifeOf (f s).2 ++ handed e (f s).1).filter Life.done
        = lifeOf (seqAll [f, onDropCopy settings e, onDownload settings download] s).2 := by
    intro f e download
    rw [List.filter_append, filter_lifeOf, filter_handed, seqAll, seqAll, seqAll, seqAll, seq_skip,
      seq_snd, seq_snd, lifeOf_append, lifeOf_append, lifeOf_onDropCopy,
      (quiet_onDownload settings download).life_eq]
    rfl
  cases e with
  | start => exact hturns _ _ _
  | stop => exact hturns _ _ _
  | timer now answers =>
    have hboth := hturns (seq (reap scanner settings now)
      (orderEntryTimer scanner settings now (answers account)))
      (.timer now (answers account).dropCopyRefresh (answers account).d (answers account).visits)
      (.timer now (answers account).downloadRefresh (answers account).downloadGate (answers account).d)
    rw [seqAll, Machine.seq_assoc] at hboth
    exact hboth
  | request q => exact filter_lifeOf _
  | rest account' e => exact filter_lifeOf _
  | webSocket account' e => exact filter_lifeOf _
  | download account' e => exact filter_lifeOf _
  | dropCopy account' e =>
    unfold life reaction
    dsimp only
    split
    · rw [filter_handed, lifeOf_onDropCopy]
    · rfl

end

/-! ### Runs -/

section
variable {R : LimitRequest} (scanner : Json.Scanner) (c : Controller) {a : Account}

/-- What a step of the process makes the drop copies of the account go through. -/
def lifeStep (account : String) (e : Event) : Action (State R × Bool) Life := fun s =>
  ((mortal kills (c.step scanner) e s).1,
    if s.2 then [] else match s.1 account with
      | none => []
      | some slice => life scanner c.settings account e slice)

/-- What a run makes the drop copies of the account go through. -/
def history (account : String) (es : List Event) : List Life :=
  (run (lifeStep (R := R) scanner c account) es c.boot).2

/-- The streams that the run leads to are those of the controller. -/
theorem history_fst (account : String) (es : List Event) (s : State R × Bool) :
    (run (lifeStep scanner c account) es s).1 = (c.execute scanner es s).1 := by
  induction es generalizing s with
  | nil => rfl
  | cons e es ih =>
    rw [run_cons, execute, run_cons, seq_fst, seq_fst, ih]
    rfl

theorem lawful_history (ha : a ∈ c.accounts) (es : List Event) :
    Along Phase.step Phase.allows (history (R := R) scanner c a.name es) .absent := by
  obtain ⟨streamId, hs⟩ := initial_of_mem (R := R) c ha
  let I : List Life → State R × Bool → Prop := fun log s =>
    ∃ slice, s.1 a.name = some slice ∧ Lived log (createSlice c.settings a streamId) slice
  have hstep : ∀ e, Keeps I (lifeStep (R := R) scanner c a.name e) := by
    rintro e log ⟨state, dead⟩ ⟨slice, hslice, hlived⟩
    cases dead with
    | true => exact ⟨slice, hslice, by simpa [lifeStep] using hlived⟩
    | false =>
      obtain ⟨hstate, -⟩ := seen_step scanner c ha e state slice hslice
      refine ⟨_, hstate, ?_⟩
      have hlife : (lifeStep scanner c a.name e (state, false)).2
          = life scanner c.settings a.name e slice := by
        dsimp only at hslice
        simp [lifeStep, hslice]
      rw [hlife]
      exact lived_trans hlived (lived_reaction scanner c.settings a.name e hlived.ok)
  obtain ⟨slice, -, hlived⟩ := keeps_run hstep es [] c.boot
    ⟨_, hs, lived_nil (fun h => by cases h) rfl rfl⟩
  exact hlived.allowed

/-- CORRECT: whatever has happened, a drop copy is removed only after it has itself received
    `ListenKeyExpired` and then `Disconnected`, it receives no timer after that, and the next one is
    created only after it has been removed. -/
theorem removed_gone (ha : a ∈ c.accounts) (es : List Event) (pre post : List Life) (l : Life)
    (h : history (R := R) scanner c a.name es = pre ++ l :: post) :
    (l = .removed → Gone pre) ∧
    (∀ e, l = .received e → e.ticks = true → ¬ Gone pre) ∧
    (∀ listenKey, l = .created listenKey → phaseAfter pre = .absent) := by
  have hallowed : (phaseAfter pre).allows l := by
    have hlawful := lawful_history (R := R) scanner c ha es
    rw [h] at hlawful
    exact along_split hlawful
  refine ⟨?_, ?_, ?_⟩
  · rintro rfl
    exact phaseAfter_eq_gone.mp hallowed
  · rintro e rfl hticks hgone
    rw [hallowed (phaseAfter_eq_gone.mpr hgone)] at hticks
    cases hticks
  · rintro listenKey rfl
    exact hallowed

end

/-- A listen key expires; the next timer removes its drop copy, and does not find it. -/
theorem expired_gone :
    Gone [.created "K1", .received (.text (.knowing none) (some .listenKeyExpired)),
      .received .disconnected] :=
  (removed_gone (R := .simple) .standard (single false .cross) (a := ⟨"A1", .cross⟩)
    (List.mem_singleton_self _) (expired.take 5) _ [] .removed rfl).1 rfl

end Controller
end BinanceFutures
