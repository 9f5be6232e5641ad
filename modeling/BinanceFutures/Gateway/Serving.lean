import BinanceFutures.Gateway.RestSlots

/-! # Serving

    A slot of the account, seen from the drop copy that has opened it: it is pending until the order entry
    serves it, in flight until an answer commits it, and has a response from then on.

        opened ─▶ pending ── timer of a stream that is ready ─▶ held ── commit ─▶ has_response

    `Follows` says what an invariant of the slots needs to be kept by every event of a stream. -/

namespace BinanceFutures
open Machine

/-! ### Slots -/

/-- The slot is served on the next occasion. -/
def LimitRequest.Pending (R : LimitRequest) (o : R.Obj) : Prop := ∀ t, (R.checkPending true t o).1 = true

/-- What a slot has been opened for is not forgotten: it is pending until it is served, and has a response
    from the commit on until it is opened again. -/
structure LimitRequest.Serves (R : LimitRequest) : Prop where
  request : ∀ t o, R.inFlight o = false → R.Pending (R.request t o)
  unserved : ∀ gate t o, R.Pending o → (R.checkPending gate t o).1 = false →
    R.Pending (R.checkPending gate t o).2
  commit : ∀ t o, R.hasResponse (R.commit t o) = true
  responded : ∀ gate t o, R.hasResponse o = true →
    (R.checkPending gate t o).1 = false ∧ R.hasResponse (R.checkPending gate t o).2 = true

theorem LimitRequest.simple_serves : LimitRequest.simple.Serves where
  request t o hflight t' := by cases o <;> first | rfl | cases hflight
  unserved gate t o hpending hunserved t' := by
    cases o with
    | pending =>
      cases gate with
      | true => cases hunserved
      | false => rfl
    | idle | inFlight | responded => cases hpending t'
  commit _ _ := rfl
  responded gate t o hresponse := by
    cases gate <;> cases o <;> first | exact ⟨rfl, rfl⟩ | cases hresponse

namespace Request

variable {R : LimitRequest} {q q' : Request R} {c c' : Slot}

theorem slot_request (q : Request R) (c : Slot) (t : Nanos) :
    (q.request c t).slot c = R.request t (q.slot c) := Function.update_self ..

theorem slot_commit (q : Request R) (c : Slot) (t : Nanos) :
    (q.commit c t).slot c = R.commit t (q.slot c) := Function.update_self ..

theorem slot_checkPending (q : Request R) (c : Slot) (t : Nanos) (gate : Bool) :
    (q.checkPending c t gate).slot c = (R.checkPending gate t (q.slot c)).2 := Function.update_self ..

/-- The slot waits to be served or to be answered, or has been answered. -/
def Opened (q : Request R) (c : Slot) : Prop :=
  q.inFlight c = true ∨ R.Pending (q.slot c) ∨ q.hasResponse c = true

theorem Opened.congr (h : q.Opened c) (hslot : q'.slot c = q.slot c) : q'.Opened c := by
  unfold Opened inFlight hasResponse at h ⊢
  rwa [hslot]

theorem opened_request (hserves : R.Serves) (q : Request R) (c : Slot) (t : Nanos) :
    (q.request c t).Opened c := by
  cases hflight : q.inFlight c with
  | true => exact Or.inl ((inFlight_request q c c t).trans hflight)
  | false =>
    refine Or.inr (Or.inl ?_)
    rw [slot_request]
    exact hserves.request t _ hflight

theorem Opened.commit (hserves : R.Serves) (h : q.Opened c) (c' : Slot) (t : Nanos) :
    (q.commit c' t).Opened c := by
  by_cases hc : c = c'
  · subst hc
    refine Or.inr (Or.inr ?_)
    rw [hasResponse, slot_commit]
    exact hserves.commit t _
  · exact h.congr (Function.update_of_ne hc ..)

theorem Opened.checkPending (hserves : R.Serves) (h : q.Opened c) (c' : Slot) (t : Nanos) (gate : Bool) :
    (q.checkPending c' t gate).Opened c := by
  by_cases hc : c = c'
  · subst hc
    cases hserved : q.served c t gate with
    | true =>
      refine Or.inl ?_
      rw [inFlight_checkPending, hserved]
      simp
    | false =>
      rcases h with hflight | hpending | hresponse
      · refine Or.inl ?_
        rw [inFlight_checkPending, hflight]
        rfl
      · refine Or.inr (Or.inl ?_)
        rw [slot_checkPending]
        exact hserves.unserved gate t _ hpending hserved
      · refine Or.inr (Or.inr ?_)
        rw [hasResponse, slot_checkPending]
        exact (hserves.responded gate t _ hresponse).2
  · exact h.congr (Function.update_of_ne hc ..)

/-- An open slot whose gate is open is in flight or has a response afterwards. -/
theorem Opened.checked (hserves : R.Serves) (h : q.Opened c) (t : Nanos) :
    (q.checkPending c t true).hasResponse c = true ∨ (q.checkPending c t true).inFlight c = true := by
  rcases h with hflight | hpending | hresponse
  · refine Or.inr ?_
    rw [inFlight_checkPending, hflight]
    rfl
  · refine Or.inr ?_
    have hserved : q.served c t true = true := hpending t
    rw [inFlight_checkPending, hserved]
    simp
  · refine Or.inl ?_
    rw [hasResponse, slot_checkPending]
    exact (hserves.responded true t _ hresponse).2

end Request

namespace RestStream

section
variable {R : LimitRequest} (settings : Settings)

/-! ### What happens to a slot -/

/-- What an invariant of the slots needs to be kept by every event of a stream of the class. -/
structure Follows (kind : Kind) (J : List Output → World R → Prop) : Prop where
  aside : ∀ {out os w w'}, J out w → w'.request.slot = w.request.slot → (∀ o ∈ os, o.quiet = true) →
    J (out ++ os) w'
  committed : ∀ {out w w'} c call now, call.closes kind = some c → J out w →
    w'.request = w.request.commit c now → J (out ++ [.commit c call]) w'
  unserved : ∀ {out w} c now gate, J out w → w.request.served c now gate = false →
    J out { w with request := w.request.checkPending c now gate }
  served : ∀ {out os w w'} c now gate ns, c ∈ kind.slots → J out w →
    w.request.served c now gate = true → w'.request.slot = (w.request.checkPending c now gate).slot →
    (∀ o ∈ os, o.quiet = true) → J (out ++ (os ++ [.callback c ns])) w'

variable {kind : Kind} {J : List Output → World R → Prop}

/-- The invariant, for a stream of the class. -/
def Of (kind : Kind) (J : List Output → World R → Prop) (out : List Output) (w : World R) : Prop :=
  w.stream.kind = kind ∧ J out w

theorem Follows.tame (hJ : Follows kind J) {loud : Bool} {f : Act R} (hf : Tame loud f) :
    Keeps (Of kind J) f := by
  rintro out w ⟨hkind, h⟩
  have haside := hf.aside w
  exact ⟨haside.kind_eq.trans hkind, hJ.aside h (congrArg Request.slot haside.request_eq) fun o ho =>
    quiet_of_ordinary (haside.ordinary o ho)⟩

theorem Follows.closing (hJ : Follows kind J) (now : Nanos) (call : Call) :
    Keeps (Of kind J) (closing kind now call) := by
  have hcommit : ∀ c call', call'.closes kind = some c → Keeps (Of kind J) (commit c call' now) :=
    fun c call' hcloses _ _ h => ⟨h.1, hJ.committed c call' now hcloses h.2 rfl⟩
  cases call with
  | accountBalance polling =>
    cases polling with
    | true => exact keeps_skip _
    | false => exact hcommit _ _ rfl
  | accountStatus | position | openOrders | userTrades => exact hcommit _ _ rfl
  | order clientOrderId =>
    rintro out w ⟨hkind, h⟩
    unfold RestStream.closing orderAnswered
    dsimp only
    split
    · exact ⟨hkind, hJ.committed _ _ now rfl h rfl⟩
    · exact ⟨hkind, hJ.aside h rfl (by simp)⟩
  | listenKey | orderPlace | orderModify | orderCancel | allOpenOrders | countdownCancelAll =>
    exact keeps_skip _

theorem Follows.checkPending (hJ : Follows kind J) (now : Nanos) (gate : Slot → Bool) (d : Dispatcher)
    {c : Slot} (hc : c ∈ kind.slots) : Keeps (Of kind J) (checkPending settings kind now gate d c) := by
  rintro out w ⟨hkind, h⟩
  have hserve := serve_served settings d c { w with request := w.request.checkPending c now (gate c) }
  rw [show World.stream { w with request := w.request.checkPending c now (gate c) } = w.stream from rfl,
    hkind] at hserve
  unfold RestStream.checkPending
  dsimp only
  split
  next hserved =>
    exact ⟨hserve.kind_eq.trans hkind,
      hJ.served c now (gate c) _ hc h hserved hserve.slot_eq hserve.quiet⟩
  next hserved =>
    rw [List.append_nil]
    exact ⟨hkind, hJ.unserved c now (gate c) h (Bool.eq_false_iff.mpr hserved)⟩

/-- Every event keeps what follows the slots. -/
theorem Follows.step (hJ : Follows kind J) (e : Event) : Keeps (Of kind J) (step settings e) := by
  cases hslotted : e.slotted with
  | false => exact hJ.tame (tame_step settings hslotted)
  | true =>
    cases e with
    | timer now refresh gate d =>
      refine keeps_guarded _ fun out w _ h => ?_
      simp only [timer_eq, h.1]
      exact keeps_seq (hJ.tame (tame_beforeQueue settings false now kind))
        (keeps_map fun c hc => hJ.checkPending settings now gate d hc) out w h
    | answer n call r env d =>
      rintro out w ⟨hkind, h⟩
      simp only [RestStream.step]
      unfold answer
      split
      · have hsettled : Of kind J out { w with stream.calls := w.stream.calls.settle n } :=
          ⟨hkind, List.append_nil out ▸ hJ.aside h rfl (by simp)⟩
        rw [hkind]
        obtain ⟨reply, heq, htame⟩ := acknowledge_eq (R := R) settings kind env d call r
        rw [heq]
        cases reply with
        | none => exact ⟨hkind, hJ.aside hsettled.2 rfl fun o ho => by rw [List.mem_singleton.mp ho]; rfl⟩
        | some f => exact keeps_seq (hJ.tame (htame f rfl)) (hJ.closing env.now call) out _ hsettled
      · rw [List.append_nil]
        exact ⟨hkind, h⟩
    | _ => cases hslotted

theorem kind_step (e : Event) (w : World R) : (step settings e w).1.stream.kind = w.stream.kind := by
  have hfollows : Follows (R := R) w.stream.kind fun _ _ => True :=
    ⟨fun _ _ _ => trivial, fun _ _ _ _ _ _ => trivial, fun _ _ _ _ _ => trivial,
      fun _ _ _ _ _ _ _ _ _ => trivial⟩
  exact (hfollows.step settings e [] w ⟨rfl, trivial⟩).1

/-- A slot that the class does not serve is put in flight by others. -/
theorem inFlight_step (e : Event) {c : Slot} {w : World R} (hc : c ∉ w.stream.kind.slots)
    (h : (step settings e w).1.request.inFlight c = true) : w.request.inFlight c = true := by
  have hfollows : Follows (R := R) w.stream.kind
      fun _ w' => w'.request.inFlight c = true → w.request.inFlight c = true := by
    refine ⟨fun hJ hslot _ hflight => hJ ?_, fun c' call now _ hJ hrequest hflight => hJ ?_,
      fun c' now gate hJ hserved hflight => hJ ?_,
      fun c' now gate ns hc' hJ _ hslot _ hflight => hJ ?_⟩
    · unfold Request.inFlight at hflight ⊢
      rwa [hslot] at hflight
    · rw [hrequest, Request.inFlight_commit, Bool.and_eq_true] at hflight
      exact hflight.1
    · simpa [Request.inFlight_checkPending, hserved] using hflight
    · have hne : c ≠ c' := by
        rintro rfl
        exact hc hc'
      unfold Request.inFlight at hflight ⊢
      rw [hslot] at hflight
      rwa [show (Request.checkPending _ c' now gate).slot c = _ from Function.update_of_ne hne ..]
        at hflight
  exact (hfollows.step settings e [] w ⟨rfl, id⟩).2 h

/-- The slot is open. -/
def OpenAt (c : Slot) (_ : List Output) (w : World R) : Prop := w.request.Opened c

theorem follows_openAt (hserves : R.Serves) (kind : Kind) (c : Slot) :
    Follows (R := R) kind (OpenAt c) where
  aside h hslot _ := h.congr (congrFun hslot c)
  committed c' _ now _ h hrequest := by
    unfold OpenAt
    rw [hrequest]
    exact h.commit hserves c' now
  unserved c' now gate h _ := h.checkPending hserves c' now gate
  served c' now gate _ _ h _ hslot _ := (h.checkPending hserves c' now gate).congr (congrFun hslot c)

/-- The slot has a response, or is in flight with this batch. -/
def Held (c : Slot) (ns : List ℕ) (out : List Output) (w : World R) : Prop :=
  w.request.hasResponse c = true ∨ w.request.inFlight c = true ∧ lastBatch c out = ns

theorem follows_held (hserves : R.Serves) (kind : Kind) (c : Slot) (ns : List ℕ) :
    Follows (R := R) kind (Held c ns) where
  aside := by
    rintro out os w w' h hslot hquiet
    unfold Held Request.hasResponse Request.inFlight at h ⊢
    rwa [hslot, lastBatch_quiet c hquiet]
  committed := by
    rintro out w w' c' call now - h hrequest
    unfold Held
    rw [hrequest, lastBatch_commit]
    by_cases hc : c = c'
    · subst hc
      refine Or.inl ?_
      rw [Request.hasResponse, Request.slot_commit]
      exact hserves.commit now _
    · have hslot : (w.request.commit c' now).slot c = w.request.slot c := Function.update_of_ne hc ..
      unfold Held Request.hasResponse Request.inFlight at h
      unfold Request.hasResponse Request.inFlight
      rwa [hslot]
  unserved := by
    rintro out w c' now gate h hserved
    by_cases hc : c = c'
    · subst hc
      rcases h with hresponse | ⟨hflight, hbatch⟩
      · refine Or.inl ?_
        rw [Request.hasResponse, Request.slot_checkPending]
        exact (hserves.responded gate now _ hresponse).2
      · refine Or.inr ⟨?_, hbatch⟩
        rw [Request.inFlight_checkPending, hflight]
        rfl
    · have hslot : (w.request.checkPending c' now gate).slot c = w.request.slot c :=
        Function.update_of_ne hc ..
      unfold Held Request.hasResponse Request.inFlight at h ⊢
      rwa [hslot]
  served := by
    rintro out os w w' c' now gate ns' - h hserved hslot hquiet
    by_cases hc : c = c'
    · -- neither a slot with a response nor one in flight is served
      subst hc
      rcases h with hresponse | ⟨hflight, -⟩
      · have hunserved := (hserves.responded gate now _ hresponse).1
        rw [Request.served, hunserved] at hserved
        cases hserved
      · rw [w.request.not_inFlight_of_served c now gate hserved] at hflight
        cases hflight
    · have hsame : w'.request.slot c = w.request.slot c := by
        rw [hslot]
        exact Function.update_of_ne hc ..
      unfold Held Request.hasResponse Request.inFlight at h ⊢
      rwa [hsame, ← List.append_assoc, lastBatch_callback, if_neg (Ne.symm hc), lastBatch_quiet c hquiet]

/-- A response stays, whatever the batch is then. -/
theorem response_step (hserves : R.Serves) (e : Event) {c : Slot} {w : World R}
    (h : w.request.hasResponse c = true) : (step settings e w).1.request.hasResponse c = true := by
  have hheld := ((follows_held hserves w.stream.kind c
    (0 :: lastBatch c ([] ++ (step settings e w).2))).step settings e [] w ⟨rfl, Or.inl h⟩).2
  exact hheld.resolve_right fun hbatch => List.cons_ne_self _ _ hbatch.2.symm

/-- The slot is held with some batch. -/
def Holding (c : Slot) (out : List Output) (w : World R) : Prop := ∃ ns, Held c ns out w

/-- An open slot whose turn it is, and whose gate is open, is held afterwards. -/
theorem holding_checkPending (hserves : R.Serves) (now : Nanos) {gate : Slot → Bool} (d : Dispatcher)
    {c : Slot} (hc : c ∈ kind.slots) (hgate : gate c = true) :
    Triple (Of (R := R) kind (OpenAt c)) (checkPending settings kind now gate d c)
      (Of kind (Holding c)) := by
  intro out w h
  refine ⟨((follows_openAt hserves kind c).checkPending settings now gate d hc out w h).1, ?_⟩
  obtain ⟨hkind, hopened⟩ := h
  have hchecked := hopened.checked hserves now
  suffices hslot : (checkPending settings kind now gate d c w).1.request.slot c
      = (w.request.checkPending c now true).slot c by
    unfold Request.hasResponse Request.inFlight at hchecked
    rw [← hslot] at hchecked
    exact ⟨_, hchecked.imp_right fun hflight => ⟨hflight, rfl⟩⟩
  unfold checkPending
  dsimp only
  rw [hgate]
  split
  · have hserve := serve_served settings d c { w with request := w.request.checkPending c now true }
    rw [show World.stream { w with request := w.request.checkPending c now true } = w.stream from rfl,
      hkind] at hserve
    exact congrFun hserve.slot_eq c
  · rfl

/-- What is held stays so, whatever becomes of the other slots. -/
theorem keeps_holding {c : Slot} {f : Act R} (hf : ∀ ns, Keeps (Of kind (Held c ns)) f) :
    Keeps (Of (R := R) kind (Holding c)) f := by
  rintro out w ⟨hkind, ns, h⟩
  have hkept := hf ns out w ⟨hkind, h⟩
  exact ⟨hkept.1, ns, hkept.2⟩

theorem holding_queue (hserves : R.Serves) (now : Nanos) {gate : Slot → Bool} (d : Dispatcher) {c : Slot}
    (hgate : gate c = true) : ∀ {cs : List Slot}, c ∈ cs → cs ⊆ kind.slots →
      Triple (Of (R := R) kind (OpenAt c)) (seqAll (cs.map (checkPending settings kind now gate d)))
        (Of kind (Holding c))
  | c' :: cs, hmem, hsub => by
      rw [List.map_cons, seqAll]
      obtain ⟨hc', hcs⟩ := List.cons_subset.mp hsub
      by_cases hc : c = c'
      · subst hc
        refine triple_seq (holding_checkPending settings hserves now d hc' hgate)
          (keeps_map fun c' hmem' => ?_)
        exact keeps_holding fun ns =>
          (follows_held hserves kind c ns).checkPending settings now gate d (hcs hmem')
      · exact triple_seq ((follows_openAt hserves kind c).checkPending settings now gate d hc')
          (holding_queue hserves now d hgate ((List.mem_cons.mp hmem).resolve_left hc) hcs)

/-- A timer of a stream that is ready holds an open slot whose gate is open. -/
theorem holding_timer (hserves : R.Serves) (now : Nanos) {gate : Slot → Bool} (d : Dispatcher) {c : Slot}
    (hgate : gate c = true) (hc : c ∈ kind.slots) {out : List Output} {w : World R}
    (h : Of kind (OpenAt c) out w) (hready : isReady w = true) :
    Holding c (out ++ (step settings (.timer now true gate d) w).2)
      (step settings (.timer now true gate d) w).1 := by
  have htimer := triple_seq
    ((follows_openAt hserves kind c).tame (tame_beforeQueue settings false now kind))
    (holding_queue settings hserves now d hgate hc (List.Subset.refl _)) out w h
  simp only [step, guarded, hready, Bool.and_self, if_true, h.1, timer_eq]
  exact htimer.2

/-! ### Numbers -/

/-- What is outstanding was so before, or has a number that was not known. -/
structure Later (calls calls' : Ledger Call) : Prop where
  next_le : calls.next ≤ calls'.next
  old : ∀ e ∈ calls'.entries, e ∈ calls.entries ∨ calls.next ≤ e.1

theorem later_refl (calls : Ledger Call) : Later calls calls := ⟨Nat.le_refl _, fun _ he => Or.inl he⟩

theorem Later.trans {l l' l'' : Ledger Call} (h : Later l l') (h' : Later l' l'') : Later l l'' where
  next_le := h.next_le.trans h'.next_le
  old e he := by
    rcases h'.old e he with hold | hnew
    · exact h.old e hold
    · exact Or.inr (h.next_le.trans hnew)

theorem later_enterAll (calls : Ledger Call) (cs : List Call) : Later calls (calls.enterAll cs) where
  next_le := calls.next_le_enterAll cs
  old _ he := (Ledger.mem_enterAll he).imp_right And.left

theorem later_settle (calls : Ledger Call) (n : ℕ) : Later calls (calls.settle n) where
  next_le := Nat.le_refl _
  old _ he := Or.inl (Ledger.mem_settle.mp he).1

theorem later_step (e : Event) (w : World R) :
    Later w.stream.calls (step settings e w).1.stream.calls := by
  by_cases hanswer : ∃ n call r env d, e = .answer n call r env d
  · obtain ⟨n, call, r, env, d, rfl⟩ := hanswer
    simp only [step]
    unfold answer
    split
    · have hentered := entered_of_keeps (entered_acknowledge (R := R) settings w.stream.kind env d call r)
        { w with stream.calls := w.stream.calls.settle n }
      rw [hentered]
      exact (later_settle _ n).trans (later_enterAll _ _)
    · exact later_refl _
  · have hentered : Entered w (step settings e w).2 (step settings e w).1 :=
      entered_step settings (fun n call r env d he => hanswer ⟨n, call, r, env, d, he⟩) w
    rw [hentered]
    exact later_enterAll _ _

end

end RestStream

end BinanceFutures
