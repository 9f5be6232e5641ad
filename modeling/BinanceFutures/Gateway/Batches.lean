import BinanceFutures.Gateway.RestFrames
import BinanceFutures.Gateway.Verdicts
import Mathlib.Data.List.Nodup

/-! # Batches of requests

    The callback of a slot issues a batch of requests: one for most slots, one for each stale order that is
    known, one for each symbol of the trades. The slot is in flight until an answer commits it.

        served ─▶ batch of requests ── answers, in any order ─▶ commit ─▶ served again

    A counter says how many stale orders have not been answered, and the slot is committed at zero.
    `tallied` says that the counter is right in every run, so that the slot is committed by the last
    answer of a batch. -/

namespace BinanceFutures.RestStream
open Machine

/-- The numbers that the last callback of the slot has issued. -/
def lastBatch (c : Slot) (out : List Output) : List ℕ :=
  out.foldl (fun ns o => match o with
    | .callback c' ns' => if c' = c then ns' else ns
    | _ => ns) []

def onSlot (c : Slot) (call : Call) : Bool := call.slot = some c

section
variable {R : LimitRequest} (settings : Settings)

/-- A turn of the stream, or of the streams it shares the account's slots with: the drop copy opens a
    slot or enters stale orders, another stream serves and commits slots of its own. -/
inductive Turn where
  | own (e : Event)
  | requested (c : Slot) (now : Nanos)
  | stale (details : List (UserId × OrderId))
  | otherServed (c : Slot) (gate : Bool) (now : Nanos)
  | otherCommitted (c : Slot) (now : Nanos)

def turn : Turn → Act R
  | .own e => step settings e
  | .requested c now => modify fun w => { w with request := w.request.request c now }
  | .stale details => modify fun w => { w with request.detailsStaleOrders := details }
  | .otherServed c gate now => fun w =>
    if c ∈ w.stream.kind.slots then (w, [])
    else ({ w with request := w.request.checkPending c now gate }, [])
  | .otherCommitted c now => fun w =>
    if c ∈ w.stream.kind.slots then (w, [])
    else ({ w with request := w.request.commit c now }, [])

/-- The stream's process ends where it logs a fatal error. -/
def kills (o : Output) : Bool := o = .fatal

/-! ### Callbacks -/

@[simp] theorem lastBatch_nil (c : Slot) : lastBatch c [] = [] := rfl

theorem lastBatch_quiet (c : Slot) {out os : List Output} (h : ∀ o ∈ os, o.quiet = true) :
    lastBatch c (out ++ os) = lastBatch c out := by
  induction os using List.reverseRecOn with
  | nil => rw [List.append_nil]
  | append_singleton os o ih =>
    have hos := ih fun o' ho' => h o' (List.mem_append_left _ ho')
    have ho := h o (List.mem_append_right _ (List.mem_singleton_self _))
    rw [← List.append_assoc, lastBatch, List.foldl_append, ← lastBatch, hos]
    cases o <;> first | rfl | cases ho

theorem lastBatch_commit (c : Slot) (out : List Output) (c' : Slot) (call : Call) :
    lastBatch c (out ++ [.commit c' call]) = lastBatch c out := by
  rw [lastBatch, List.foldl_append]; rfl

theorem lastBatch_callback (c : Slot) (out : List Output) (c' : Slot) (ns : List ℕ) :
    lastBatch c (out ++ [.callback c' ns]) = if c' = c then ns else lastBatch c out := by
  rw [lastBatch, List.foldl_append]; rfl

/-- A result of the callback of the slot: `k` requests of the slot, and nothing else. -/
structure Served (c : Slot) (k : ℕ) (w : World R) (r : World R × List Output) : Prop where
  kind_eq : r.1.stream.kind = w.stream.kind
  slot_eq : r.1.request.slot = w.request.slot
  details_eq : c ≠ .staleOrders → r.1.request.detailsStaleOrders = w.request.detailsStaleOrders
  quiet : ∀ o ∈ r.2, o.quiet = true
  counter_eq : r.1.stream.downloadStaleOrdersCounter =
    w.stream.downloadStaleOrdersCounter + if c = .staleOrders then k else 0
  next_eq : r.1.stream.calls.next = w.stream.calls.next + k
  count_eq : r.1.stream.calls.count (onSlot .staleOrders) =
    w.stream.calls.count (onSlot .staleOrders) + if c = .staleOrders then k else 0
  old : ∀ e ∈ w.stream.calls.entries, e ∈ r.1.stream.calls.entries
  new : ∀ n call, (n, call) ∈ r.1.stream.calls.entries →
    (n, call) ∈ w.stream.calls.entries ∨ w.stream.calls.next ≤ n ∧ call.slot = some c
  all : ∀ n, w.stream.calls.next ≤ n → n < r.1.stream.calls.next →
    ∃ call, (n, call) ∈ r.1.stream.calls.entries

theorem served_none (c : Slot) (w : World R) : Served c 0 w (w, []) where
  kind_eq := rfl
  slot_eq := rfl
  details_eq _ := rfl
  quiet := by simp
  counter_eq := by simp
  next_eq := rfl
  count_eq := by simp
  old _ he := he
  new _ _ h := Or.inl h
  all _ h h' := absurd (lt_of_le_of_lt h h') (lt_irrefl _)

/-- Callbacks one after the other issue their requests one after the other. -/
theorem served_trans {c : Slot} {j k : ℕ} {w : World R} {r r' : World R × List Output}
    (h : Served c j w r) (h' : Served c k r.1 r') : Served c (j + k) w (r'.1, r.2 ++ r'.2) where
  kind_eq := h'.kind_eq.trans h.kind_eq
  slot_eq := h'.slot_eq.trans h.slot_eq
  details_eq hc := (h'.details_eq hc).trans (h.details_eq hc)
  quiet o ho := (List.mem_append.mp ho).elim (h.quiet o) (h'.quiet o)
  counter_eq := by
    rw [h'.counter_eq, h.counter_eq, Nat.add_assoc]
    split <;> rfl
  next_eq := by rw [h'.next_eq, h.next_eq, Nat.add_assoc]
  count_eq := by
    rw [h'.count_eq, h.count_eq, Nat.add_assoc]
    split <;> rfl
  old e he := h'.old e (h.old e he)
  new n call hmem := by
    rcases h'.new n call hmem with hold | ⟨hle, hslot⟩
    · exact h.new n call hold
    · exact Or.inr ⟨le_trans (by rw [h.next_eq]; exact Nat.le_add_right _ _) hle, hslot⟩
  all n hle hlt := by
    by_cases hn : n < r.1.stream.calls.next
    · obtain ⟨call, hmem⟩ := h.all n hle hn
      exact ⟨call, h'.old _ hmem⟩
    · exact h'.all n (not_lt.mp hn) hlt

/-- One request of the slot. -/
theorem served_send (call : Call) {c : Slot} (hcall : call.slot = some c) (hc : c ≠ .staleOrders)
    (w : World R) : Served c 1 w (send call w) where
  kind_eq := rfl
  slot_eq := rfl
  details_eq _ := rfl
  quiet := by simp [send, Output.quiet]
  counter_eq := by simp [send, hc]
  next_eq := rfl
  count_eq := by
    have hcount := Ledger.count_enter (onSlot .staleOrders) w.stream.calls call
    rw [onSlot, hcall] at hcount
    simpa [send, hc] using hcount
  old e he := List.mem_append_left _ he
  new n call' hmem := by
    rcases List.mem_append.mp hmem with hold | hnew
    · exact Or.inl hold
    · obtain ⟨rfl, rfl⟩ := Prod.mk.inj (List.mem_singleton.mp hnew)
      exact Or.inr ⟨le_refl _, hcall⟩
  all n hle hlt := by
    obtain rfl : n = w.stream.calls.next := by
      simp only [send, Ledger.next_enter] at hlt
      omega
    exact ⟨call, List.mem_append_right _ (List.mem_singleton_self _)⟩

/-- One stale order: a request and the counter, if the order is known. -/
theorem served_order (w : World R) (clientOrderId : String) : Served .staleOrders 1 w
    (send (.order clientOrderId) { w with
      stream.downloadStaleOrdersCounter := w.stream.downloadStaleOrdersCounter + 1 }) where
  kind_eq := rfl
  slot_eq := rfl
  details_eq _ := rfl
  quiet := by simp [send, Output.quiet]
  counter_eq := by simp [send]
  next_eq := rfl
  count_eq := Ledger.count_enter (onSlot .staleOrders) w.stream.calls (.order clientOrderId)
  old e he := List.mem_append_left _ he
  new n call' hmem := by
    rcases List.mem_append.mp hmem with hold | hnew
    · exact Or.inl hold
    · obtain ⟨rfl, rfl⟩ := Prod.mk.inj (List.mem_singleton.mp hnew)
      exact Or.inr ⟨le_refl _, rfl⟩
  all n hle hlt := by
    obtain rfl : n = w.stream.calls.next := by
      simp only [send, Ledger.next_enter] at hlt
      omega
    exact ⟨_, List.mem_append_right _ (List.mem_singleton_self _)⟩

theorem served_getOrder (d : Dispatcher) (key : UserId × OrderId) (w : World R) :
    Served .staleOrders (if (d.findOrderById key.1 key.2).isSome then 1 else 0) w
      (getOrder d key w) := by
  unfold getOrder
  cases d.findOrderById key.1 key.2 with
  | none => exact served_none _ w
  | some order => exact served_order w order.clientOrderId

/-- A loop that issues a request for the items that the predicate picks. -/
theorem served_loop {β : Type} {c : Slot} {f : β → Act R} {p : β → Bool}
    (h : ∀ b w, Served c (if p b then 1 else 0) w (f b w)) :
    ∀ (bs : List β) (w : World R), Served c (bs.countP p) w (seqAll (bs.map f) w)
  | [], w => served_none c w
  | b :: bs, w => by
      have hhead := h b w
      have htail := served_loop h bs (f b w).1
      rw [List.countP_cons, Nat.add_comm]
      exact served_trans hhead htail

/-- The requests that the callback of the slot will issue. -/
def batchSize (d : Dispatcher) (w : World R) : Slot → ℕ
  | .staleOrders =>
    w.request.detailsStaleOrders.countP fun key => (d.findOrderById key.1 key.2).isSome
  | .trades => if w.stream.kind = .restTrade then 0 else settings.download.symbols.length
  | _ => 1

theorem serve_served (d : Dispatcher) (c : Slot) (w : World R) :
    Served c (batchSize settings d w c) w (serve settings w.stream.kind d c w) := by
  cases c with
  | balances => exact served_send _ rfl (by decide) w
  | positions => exact served_send _ rfl (by decide) w
  | positionsPm => exact served_send _ rfl (by decide) w
  | openOrders => exact served_send _ rfl (by decide) w
  | staleOrders =>
    have hloop := served_loop (c := .staleOrders) (R := R)
      (f := getOrder d)
      (p := fun key => (d.findOrderById key.1 key.2).isSome)
      (served_getOrder d) w.request.detailsStaleOrders w
    have hclear := served_trans hloop (served_none .staleOrders _)
    exact ⟨hclear.kind_eq, hclear.slot_eq, fun hc => absurd rfl hc, hclear.quiet, hclear.counter_eq,
      hclear.next_eq, hclear.count_eq, hclear.old, hclear.new, hclear.all⟩
  | trades =>
    unfold batchSize serve
    cases hkind : w.stream.kind with
    | restTrade =>
      have hnone := served_none .trades w
      exact ⟨hnone.kind_eq, hnone.slot_eq, hnone.details_eq, hnone.quiet, hnone.counter_eq,
        hnone.next_eq, hnone.count_eq, hnone.old, hnone.new, hnone.all⟩
    | orderEntryClassic | orderEntryPortfolio =>
      have hloop := served_loop (c := .trades) (p := fun _ => true)
        (fun symbol w => served_send (.userTrades symbol) rfl (by decide) w)
        settings.download.symbols w
      rw [List.countP_true] at hloop
      rw [if_neg (by decide)]
      exact hloop

/-! ### Batches -/

/-- The requests on a slot that are outstanding are of its last batch, and there are none unless the slot
    is in flight. `owed` is the slot of a call whose answer is being handled and has not committed yet. -/
structure Batched (c : Slot) (owed : Option Slot) (out : List Output) (w : World R) : Prop where
  /-- A batch is of its slot. -/
  own : ∀ c n call, n ∈ lastBatch c out → (n, call) ∈ w.stream.calls.entries → call.slot = some c
  /-- A batch has been issued. -/
  old : ∀ c n, n ∈ lastBatch c out → n < w.stream.calls.next
  idle : w.request.inFlight c = false →
    owed ≠ some c ∧ ∀ n call, (n, call) ∈ w.stream.calls.entries → call.slot ≠ some c
  batch : ∀ n call, (n, call) ∈ w.stream.calls.entries → call.slot = some c → n ∈ lastBatch c out

variable {c : Slot} {owed : Option Slot} {out : List Output} {w : World R}

theorem batched_create (kind : Kind) (account : String) :
    Batched c none [] (create (R := R) kind account {}) where
  own c n call hn := by cases hn
  old c n hn := by cases hn
  idle _ := ⟨nofun, fun n call hmem => by cases hmem⟩
  batch n call hmem := by cases hmem

/-- What has nothing to do with slots leaves the batches alone. -/
theorem batched_of_tame {loud : Bool} {f : Act R} (hf : Tame loud f) (h : Batched c owed out w) :
    Batched c owed (out ++ (f w).2) (f w).1 := by
  have haside := hf.aside w
  have hbatch : ∀ c, lastBatch c (out ++ (f w).2) = lastBatch c out :=
    fun c => lastBatch_quiet c fun o ho => quiet_of_ordinary (haside.ordinary o ho)
  have hentry : ∀ n call, (n, call) ∈ (f w).1.stream.calls.entries →
      (n, call) ∈ w.stream.calls.entries ∨ w.stream.calls.next ≤ n ∧ call.slot = none := by
    intro n call hmem
    rw [haside.calls_eq] at hmem
    rcases Ledger.mem_enterAll hmem with hold | ⟨hle, hnew⟩
    · exact Or.inl hold
    · exact Or.inr ⟨hle, slot_of_ordinary haside.ordinary hnew⟩
  constructor
  case own =>
    intro c n call hn hmem
    rw [hbatch] at hn
    rcases hentry n call hmem with hold | ⟨hle, -⟩
    · exact h.own c n call hn hold
    · exact absurd (h.old c n hn) (not_lt.mpr hle)
  case old =>
    intro c n hn
    rw [hbatch] at hn
    rw [haside.calls_eq]
    exact lt_of_lt_of_le (h.old c n hn) (Ledger.next_le_enterAll _ _)
  case idle =>
    intro hflight
    rw [haside.request_eq] at hflight
    obtain ⟨howed, hnone⟩ := h.idle hflight
    refine ⟨howed, fun n call hmem => ?_⟩
    rcases hentry n call hmem with hold | ⟨-, hslot⟩
    · exact hnone n call hold
    · rw [hslot]
      nofun
  case batch =>
    intro n call hmem hslot
    rw [hbatch]
    rcases hentry n call hmem with hold | ⟨-, hnone⟩
    · exact h.batch n call hold hslot
    · rw [hnone] at hslot
      cases hslot

/-- Only the calls and the slots matter. -/
theorem Batched.congr {w' : World R} (h : Batched c owed out w)
    (hcalls : w'.stream.calls = w.stream.calls) (hrequest : w'.request = w.request) :
    Batched c owed out w' where
  own := by rw [hcalls]; exact h.own
  old := by rw [hcalls]; exact h.old
  idle := by rw [hcalls, hrequest]; exact h.idle
  batch := by rw [hcalls]; exact h.batch

/-- The account's other slots are not this one. -/
theorem batched_of_request {q : Request R} (h : Batched c owed out w)
    (hin : q.inFlight c = w.request.inFlight c) : Batched c owed out { w with request := q } where
  own := h.own
  old := h.old
  idle hflight := h.idle (by rw [← hin]; exact hflight)
  batch := h.batch

/-- The answered call leaves the ledger, and its slot is owed a commit. -/
theorem batched_settle {n : ℕ} {call : Call} (h : Batched c none out w)
    (hmem : (n, call) ∈ w.stream.calls.entries) :
    Batched c call.slot out { w with stream.calls := w.stream.calls.settle n } where
  own c' n' call' hn' hmem' := h.own c' n' call' hn' (Ledger.mem_settle.mp hmem').1
  old := h.old
  idle hflight := by
    obtain ⟨-, hnone⟩ := h.idle hflight
    exact ⟨hnone n call hmem, fun n' call' hmem' => hnone n' call' (Ledger.mem_settle.mp hmem').1⟩
  batch n' call' hmem' := h.batch n' call' (Ledger.mem_settle.mp hmem').1

/-- A commit of the slot does no harm once nothing is outstanding on it. -/
theorem batched_commit {c' : Slot} {call : Call} (now : Nanos) (h : Batched c owed out w)
    (hnone : c' = c → ∀ n call, (n, call) ∈ w.stream.calls.entries → call.slot ≠ some c) :
    Batched c none (out ++ (commit c' call now w).2) (commit c' call now w).1 := by
  have hbatch : ∀ c'', lastBatch c'' (out ++ (commit c' call now w).2) = lastBatch c'' out :=
    fun c'' => lastBatch_commit c'' out c' call
  constructor
  case own =>
    intro c'' n call' hn
    rw [hbatch] at hn
    exact h.own c'' n call' hn
  case old =>
    intro c'' n hn
    rw [hbatch] at hn
    exact h.old c'' n hn
  case idle =>
    intro hflight
    refine ⟨nofun, ?_⟩
    by_cases hc : c' = c
    · exact hnone hc
    · refine (h.idle ?_).2
      simpa [commit, Request.inFlight_commit, Ne.symm hc] using hflight
  case batch =>
    intro n call' hmem hslot
    rw [hbatch]
    exact h.batch n call' hmem hslot

/-- What is outstanding on the slot when nothing is owed to it. -/
theorem Batched.unowed (h : Batched c owed out w) : Batched c none out w where
  own := h.own
  old := h.old
  idle hflight := ⟨nofun, (h.idle hflight).2⟩
  batch := h.batch

/-- A callback issues the next batch, once the slot is not in flight any more. -/
theorem batched_served {c' : Slot} {k : ℕ} (now : Nanos) (gate : Bool) (h : Batched c none out w)
    (hserved : w.request.served c' now gate = true) {r : World R × List Output}
    (hr : Served c' k { w with request := w.request.checkPending c' now gate } r) :
    Batched c none (out ++ (r.2 ++ [.callback c' (issued w.stream.calls r.1.stream.calls)])) r.1 := by
  have hns : ∀ n, n ∈ issued w.stream.calls r.1.stream.calls ↔
      w.stream.calls.next ≤ n ∧ n < r.1.stream.calls.next := by
    intro n
    rw [issued, hr.next_eq, List.mem_range'_1]
    simp
  have hbatch : ∀ c'', lastBatch c''
      (out ++ (r.2 ++ [.callback c' (issued w.stream.calls r.1.stream.calls)])) =
        if c' = c'' then issued w.stream.calls r.1.stream.calls else lastBatch c'' out := by
    intro c''
    rw [← List.append_assoc, lastBatch_callback, lastBatch_quiet c'' hr.quiet]
  have hfresh : ∀ n call, (n, call) ∈ w.stream.calls.entries → n < w.stream.calls.next :=
    fun n call hmem => w.stream.calls.lt_next _ hmem
  constructor
  case own =>
    intro c'' n call hn hmem
    rw [hbatch] at hn
    rcases hr.new n call hmem with hold | ⟨hle, hslot⟩
    · split at hn
      · exact absurd ((hns n).mp hn).1 (not_le.mpr (hfresh n call hold))
      · exact h.own c'' n call hn hold
    · split at hn
      next hcc => rw [← hcc]; exact hslot
      next => exact absurd hle (not_le.mpr (h.old c'' n hn))
  case old =>
    intro c'' n hn
    rw [hbatch] at hn
    split at hn
    · exact ((hns n).mp hn).2
    · exact lt_of_lt_of_le (h.old c'' n hn) (by rw [hr.next_eq]; exact Nat.le_add_right _ _)
  case idle =>
    intro hflight
    have hslot : r.1.request.inFlight c = (w.request.checkPending c' now gate).inFlight c := by
      rw [Request.inFlight, hr.slot_eq]; rfl
    rw [hslot, Request.inFlight_checkPending, hserved, Bool.and_true, Bool.or_eq_false_iff,
      decide_eq_false_iff_not] at hflight
    obtain ⟨hidle, hne⟩ := hflight
    refine ⟨by simp, fun n call hmem hcall => ?_⟩
    rcases hr.new n call hmem with hold | ⟨-, hnew⟩
    · exact (h.idle hidle).2 n call hold hcall
    · rw [hcall] at hnew
      exact hne (Option.some.inj hnew)
  case batch =>
    intro n call hmem hslot
    rw [hbatch]
    rcases hr.new n call hmem with hold | ⟨hle, hnew⟩
    · split
      next hc =>
        -- the slot was not in flight, so nothing was outstanding on it
        subst hc
        exact absurd hslot ((h.idle (Request.not_inFlight_of_served _ _ _ _ hserved)).2 n call hold)
      next => exact h.batch n call hold hslot
    · rw [hslot] at hnew
      rw [if_pos (Option.some.inj hnew).symm]
      exact (hns n).mpr ⟨hle, r.1.stream.calls.lt_next _ hmem⟩

/-! ### Turns -/

/-- An invariant about slots that every part of a turn keeps, except that it says nothing about the
    callbacks of slots. The first argument is the slot of a call whose answer is being handled and has not
    committed yet. -/
structure Kept (kind : Kind) (I : Option Slot → List Output → World R → Prop) : Prop where
  kind_eq : ∀ {owed out w}, I owed out w → w.stream.kind = kind
  tame : ∀ {loud f}, Tame loud f → ∀ owed, Keeps (I owed) f
  request : ∀ {out w q}, I none out w → (∀ c ∈ kind.slots, q.inFlight c = w.request.inFlight c) →
    I none out { w with request := q }
  settle : ∀ {out w n call}, I none out w → (n, call) ∈ w.stream.calls.entries →
    I call.slot out { w with stream.calls := w.stream.calls.settle n }
  closing : ∀ now call, Triple (I call.slot) (closing kind now call) (I none)

/-- The callbacks of slots keep it too, whatever they ask for. -/
structure Steady (kind : Kind) (I : Option Slot → List Output → World R → Prop) : Prop
    extends Kept kind I where
  served : ∀ {out w c now gate d}, I none out w → w.request.served c now gate = true →
    let r := serve settings kind d c { w with request := w.request.checkPending c now gate }
    I none (out ++ (r.2 ++ [.callback c (issued w.stream.calls r.1.stream.calls)])) r.1

/-- An event with callbacks of slots. -/
def Turn.timed : Turn → Bool
  | .own (.timer ..) => true
  | _ => false

section
variable {settings} {kind : Kind} {I : Option Slot → List Output → World R → Prop}

/-- An answer ends the process, or keeps the invariant. -/
theorem Kept.answer (hI : Kept kind I) (n : ℕ) (call : Call) (r : RestResponse call.Ack)
    (env : Answers) (d : Dispatcher) : Survives (I none) (answer settings n call r env d) (I none) := by
  intro out w h
  unfold RestStream.answer
  split
  next hmem =>
    obtain ⟨reply, heq, htame⟩ := acknowledge_eq (R := R) settings w.stream.kind env d call r
    rw [heq, hI.kind_eq h]
    exact survives_andThen (fun f hf => hI.tame (htame f hf) call.slot) (hI.closing env.now call) out _
      (hI.settle h hmem)
  next =>
    rw [List.append_nil]
    exact Or.inr h

theorem Kept.turn (hI : Kept kind I) {e : Turn} (he : e.timed = false) :
    Survives (I none) (turn settings e) (I none) := by
  intro out w h
  cases e with
  | requested c now =>
    refine Or.inr ?_
    rw [RestStream.turn, modify_apply, List.append_nil]
    exact hI.request h fun c' _ => Request.inFlight_request ..
  | stale details =>
    refine Or.inr ?_
    rw [RestStream.turn, modify_apply, List.append_nil]
    exact hI.request h fun c' _ => rfl
  | otherServed c gate now =>
    refine Or.inr ?_
    simp only [RestStream.turn, hI.kind_eq h]
    split
    · rwa [List.append_nil]
    next hc =>
      rw [List.append_nil]
      refine hI.request h fun c' hc' => ?_
      have hne : c' ≠ c := fun heq => hc (heq ▸ hc')
      simp [Request.inFlight_checkPending, hne]
  | otherCommitted c now =>
    refine Or.inr ?_
    simp only [RestStream.turn, hI.kind_eq h]
    split
    · rwa [List.append_nil]
    next hc =>
      rw [List.append_nil]
      refine hI.request h fun c' hc' => ?_
      have hne : c' ≠ c := fun heq => hc (heq ▸ hc')
      simp [Request.inFlight_commit, hne]
  | own e =>
    cases hslotted : e.slotted with
    | false => exact Or.inr (hI.tame (tame_step settings hslotted) none out w h)
    | true =>
      cases e with
      | answer n call r env d => exact hI.answer n call r env d out w h
      | timer now refresh gate d => cases he
      | _ => cases hslotted

theorem Steady.queue (hI : Steady settings kind I) (now : Nanos) (gate : Slot → Bool) (d : Dispatcher) :
    Keeps (I none) (checkRequestQueue settings kind now gate d) := by
  refine keeps_map fun c _ => ?_
  intro out w h
  unfold checkPending
  dsimp only
  split
  next hserved => exact hI.served h hserved
  next hserved =>
    rw [List.append_nil]
    refine hI.request h fun c' _ => ?_
    rw [Request.inFlight_checkPending, Bool.eq_false_iff.mpr hserved, Bool.and_false, Bool.or_false]

theorem Steady.timer (hI : Steady settings kind I) (now : Nanos) (refresh : Bool) (gate : Slot → Bool)
    (d : Dispatcher) : Keeps (I none) (turn settings (.own (.timer now refresh gate d))) := by
  intro out w h
  simp only [turn, step, guarded, hI.kind_eq h, timer_eq]
  split
  · exact keeps_seq (hI.tame (tame_beforeQueue settings false now kind) none) (hI.queue now gate d) out w h
  · rwa [List.append_nil]

theorem Steady.step (hI : Steady settings kind I) (e : Turn) :
    Survives (I none) (turn settings e) (I none) := by
  cases htimed : e.timed with
  | false => exact hI.turn htimed
  | true =>
    cases e with
    | own e =>
      cases e with
      | timer now refresh gate d => exact fun out w h => Or.inr (hI.timer now refresh gate d out w h)
      | _ => cases htimed
    | _ => cases htimed

/-- A run keeps the invariant as long as the process lives. -/
theorem Steady.run (hI : Steady settings kind I) {w₀ : World R} (hinit : I none [] w₀)
    (es : List Turn) :
    let s := run (mortal kills (turn settings)) es (w₀, false)
    s.1.2 = true ∨ I none s.2 s.1.1 := by
  have hkeeps : Keeps (fun out (s : World R × Bool) => s.2 = true ∨ I none out s.1)
      (Machine.run (mortal kills (RestStream.turn settings)) es) := by
    refine keeps_run (fun e => ?_) es
    rintro out ⟨w, dead⟩ h
    cases dead with
    | true => exact Or.inl rfl
    | false =>
      rcases hI.step e out w (h.resolve_left nofun) with hfatal | hkept
      · exact Or.inl (List.any_eq_true.mpr ⟨_, hfatal, by simp [kills]⟩)
      · exact Or.inr hkept
  exact hkeeps [] (w₀, false) (Or.inr hinit)

end

/-! ### Stale orders -/

theorem staleOrders_mem_slots (kind : Kind) : .staleOrders ∈ kind.slots := by cases kind <;> decide

/-- The counter counts the stale orders that have not been answered. -/
structure Tallied (kind : Kind) (owed : Option Slot) (out : List Output) (w : World R) : Prop where
  kind_eq : w.stream.kind = kind
  batched : Batched .staleOrders owed out w
  counter : w.stream.downloadStaleOrdersCounter =
    w.stream.calls.count (onSlot .staleOrders) + if owed = some .staleOrders then 1 else 0

/-- Nothing is outstanding on a slot exactly if the ledger counts nothing. -/
theorem count_onSlot_eq_zero {calls : Ledger Call} :
    calls.count (onSlot c) = 0 ↔ ∀ n call, (n, call) ∈ calls.entries → call.slot ≠ some c := by
  rw [Ledger.count, List.countP_eq_zero]
  constructor
  · intro h n call hmem hslot
    exact h _ hmem (by simpa [onSlot] using hslot)
  · rintro h ⟨n, call⟩ hmem
    simpa [onSlot] using h n call hmem

theorem tallied_commit {kind : Kind} {c : Slot} {call : Call} (hc : c ≠ .staleOrders)
    (howed : owed ≠ some .staleOrders) (now : Nanos) :
    Triple (Tallied (R := R) kind owed) (commit c call now) (Tallied kind none) := by
  intro out w h
  refine ⟨h.kind_eq, batched_commit now h.batched fun heq => absurd heq hc, ?_⟩
  have hcounter := h.counter
  rw [if_neg howed] at hcounter
  exact hcounter

/-- The counter of stale orders after an answer, and the commit of the last one. -/
theorem tallied_orderAnswered {kind : Kind} {call : Call} (now : Nanos) :
    Triple (Tallied (R := R) kind (some .staleOrders)) (orderAnswered call now) (Tallied kind none) := by
  intro out w h
  have hcounter := h.counter
  rw [if_pos rfl] at hcounter
  have hdown : w.stream.downloadStaleOrdersCounter - 1 = w.stream.calls.count (onSlot .staleOrders) := by
    omega
  unfold orderAnswered
  dsimp only
  split
  next hzero =>
    rw [hdown] at hzero
    exact ⟨h.kind_eq, batched_commit now (h.batched.congr rfl rfl) fun _ =>
      count_onSlot_eq_zero.mp hzero, hdown⟩
  next =>
    rw [List.append_nil]
    exact ⟨h.kind_eq, h.batched.unowed.congr rfl rfl, hdown⟩

theorem tallied_kept (kind : Kind) : Kept (R := R) kind (Tallied kind) where
  kind_eq h := h.kind_eq
  tame := by
    intro loud f hf owed out w h
    have haside := hf.aside w
    have hnone : (requested (f w).2).countP (onSlot .staleOrders) = 0 := by
      rw [List.countP_eq_zero]
      intro call hcall
      simp [onSlot, slot_of_ordinary haside.ordinary hcall]
    refine ⟨haside.kind_eq.trans h.kind_eq, batched_of_tame hf h.batched, ?_⟩
    rw [haside.counter_eq, haside.calls_eq, Ledger.count_enterAll, hnone, Nat.add_zero]
    exact h.counter
  request h hin := ⟨h.kind_eq, batched_of_request h.batched (hin _ (staleOrders_mem_slots kind)), h.counter⟩
  settle := by
    intro out w n call h hmem
    refine ⟨h.kind_eq, batched_settle h.batched hmem, ?_⟩
    have hcounter := h.counter
    rw [if_neg nofun, Nat.add_zero, Ledger.count_settle (onSlot .staleOrders) hmem] at hcounter
    simpa [onSlot] using hcounter
  closing := by
    intro now call
    cases call with
    | accountBalance polling =>
      cases polling with
      | true => exact keeps_skip _
      | false => exact tallied_commit (by decide) (by decide) now
    | accountStatus | position | openOrders => exact tallied_commit (by decide) (by decide) now
    | userTrades symbol =>
      have htrades : tradesSlot kind ≠ .staleOrders := by cases kind <;> decide
      exact tallied_commit htrades (by simp [Call.slot]) now
    | order clientOrderId => exact tallied_orderAnswered now
    | listenKey | orderPlace | orderModify | orderCancel | allOpenOrders | countdownCancelAll =>
      exact keeps_skip _

theorem tallied_steady (kind : Kind) : Steady (R := R) settings kind (Tallied kind) where
  toKept := tallied_kept kind
  served := by
    intro out w c now gate d h hserved
    have hr := serve_served settings d c { w with request := w.request.checkPending c now gate }
    rw [h.kind_eq] at hr
    refine ⟨hr.kind_eq.trans h.kind_eq, batched_served now gate h.batched hserved hr, ?_⟩
    have hcounter := h.counter
    rw [if_neg nofun, Nat.add_zero] at hcounter ⊢
    rw [hr.counter_eq, hr.count_eq, hcounter]

theorem run_tallied (kind : Kind) (account : String) (es : List Turn) :
    let s := run (mortal kills (turn settings)) es (create (R := R) kind account {}, false)
    s.1.2 = true ∨ Tallied kind none s.2 s.1.1 :=
  (tallied_steady settings kind).run ⟨rfl, batched_create kind account, rfl⟩ es

/-! ### Commits -/

/-- The call whose answer commits the slot. -/
def Output.commits (c : Slot) : Output → Option Call
  | .commit c' call => if c' = c then some call else none
  | _ => none

/-- The answer is the last outstanding one of the last batch of stale orders. -/
def LastOf (out : List Output) (w : World R) (n : ℕ) : Prop :=
  n ∈ lastBatch .staleOrders out ∧
    ∀ n' ∈ lastBatch .staleOrders out, n' ≠ n → ∀ call, (n', call) ∉ w.stream.calls.entries

/-- The turn is the last outstanding answer of a batch of stale orders, and the process survives it. -/
def Completes (out : List Output) (w : World R) : Turn → Prop
  | .own (.answer n call r _ _) => (n, call) ∈ w.stream.calls.entries ∧
    call.slot = some .staleOrders ∧ r.ends settings = false ∧ LastOf out w n
  | _ => False

/-- The slot is committed. -/
def Committed (c : Slot) (os : List Output) : Prop := ∃ call, .commit c call ∈ os

/-- While the process lives, the counter is the number of stale orders that have not been answered, it is
    not zero when one of them is answered, and an answer commits the slot exactly if it is the last
    outstanding one of the batch. -/
def Counted (out : List Output) (s : World R × Bool) : Prop :=
  s.2 = true ∨
    s.1.stream.downloadStaleOrdersCounter = s.1.stream.calls.count (onSlot .staleOrders) ∧
    (∀ n call, (n, call) ∈ s.1.stream.calls.entries → call.slot = some .staleOrders →
      0 < s.1.stream.downloadStaleOrdersCounter) ∧
    ∀ e, Committed .staleOrders (turn settings e s.1).2 ↔ Completes settings out s.1 e

theorem not_committed_nil (c : Slot) : ¬ Committed c [] := by
  rintro ⟨call, hmem⟩
  cases hmem

theorem committed_iff {c : Slot} {os : List Output} :
    Committed c os ↔ os.filterMap (Output.commits c) ≠ [] := by
  constructor
  · rintro ⟨call, hmem⟩
    exact List.ne_nil_of_mem (List.mem_filterMap.mpr ⟨_, hmem, if_pos rfl⟩)
  · intro hne
    obtain ⟨call, hcall⟩ := List.exists_mem_of_ne_nil _ hne
    obtain ⟨o, ho, hsome⟩ := List.mem_filterMap.mp hcall
    cases o with
    | commit c' call' =>
      by_cases hc : c' = c
      · exact ⟨call', hc ▸ ho⟩
      · simp [Output.commits, hc] at hsome
    | _ => cases hsome

/-- The slot that is committed at the end of a callback, if it is. -/
def Call.closes (kind : Kind) : Call → Option Slot
  | .userTrades _ => some (tradesSlot kind)
  | call => call.slot

/-- The end of a callback commits no other slot, and the slot is not in flight any more. -/
theorem committed_closing {kind : Kind} {now : Nanos} {call : Call} {c : Slot} {w : World R}
    (h : Committed c (closing kind now call w).2) :
    call.closes kind = some c ∧ (closing kind now call w).1.request.inFlight c = false := by
  have hcommit : ∀ (c' : Slot) (call' : Call) (w : World R), Committed c (commit c' call' now w).2 →
      some c' = some c ∧ (commit c' call' now w).1.request.inFlight c = false := by
    rintro c' call' w ⟨call'', hmem⟩
    obtain ⟨rfl, rfl⟩ : c = c' ∧ call'' = call' := by simpa [commit] using hmem
    exact ⟨rfl, by simp [commit, Request.inFlight_commit]⟩
  cases call with
  | accountBalance polling =>
    cases polling with
    | true => exact absurd h (not_committed_nil c)
    | false => exact hcommit _ _ w h
  | accountStatus | position | openOrders | userTrades symbol => exact hcommit _ _ w h
  | order clientOrderId =>
    simp only [closing, orderAnswered] at h ⊢
    split at h
    next hzero =>
      rw [if_pos hzero]
      exact hcommit _ _ _ h
    next => exact absurd h (not_committed_nil c)
  | listenKey | orderPlace | orderModify | orderCancel | allOpenOrders | countdownCancelAll =>
    exact absurd h (not_committed_nil c)

/-- The answer to a stale order commits the slot exactly if the counter comes down to zero. -/
theorem committed_getOrderAck_iff (kind : Kind) (clientOrderId : String) (r : RestResponse Json.Order)
    (now : Nanos) (w : World R) :
    Committed .staleOrders (getOrderAck settings kind clientOrderId r now w).2
      ↔ r.ends settings = false ∧ w.stream.downloadStaleOrdersCounter - 1 = 0 := by
  have hlast : ∀ call : Call, (orderAnswered call now w).2.filterMap (Output.commits .staleOrders) ≠ []
      ↔ w.stream.downloadStaleOrdersCounter - 1 = 0 := by
    intro call
    unfold orderAnswered
    dsimp only
    split
    next hzero => exact iff_of_true (by simp [commit, Output.commits]) hzero
    next hpos => exact iff_of_false (by simp) hpos
  rw [committed_iff, getOrderAck, filterMap_reply settings (fun _ => rfl)]
  rcases r.verdict_cases settings kind with ⟨hverdict, hends⟩ | ⟨ack, rfl, hverdict⟩ |
    ⟨⟨origin, status, error, text, hverdict⟩, hends⟩
  · rw [hverdict, hends]
    simp [reply, Output.commits]
  · rw [hverdict]
    exact (hlast _).trans ⟨fun h => ⟨rfl, h⟩, fun h => h.2⟩
  · rw [hverdict]
    exact (hlast _).trans ⟨fun h => ⟨hends, h⟩, fun h => h.2⟩

/-- What an answer commits, it commits at the end of its callback, and the process goes on. -/
theorem committed_acknowledge {kind : Kind} {env : Answers} {d : Dispatcher} {call : Call}
    {r : RestResponse call.Ack} {c : Slot} {w : World R}
    (h : Committed c (acknowledge settings kind env d call r w).2) :
    call.closes kind = some c ∧
      (acknowledge settings kind env d call r w).1.request.inFlight c = false ∧
      Output.fatal ∉ (acknowledge settings kind env d call r w).2 := by
  obtain ⟨call', hmem⟩ := h
  obtain ⟨reply, heq, htame⟩ := acknowledge_eq (R := R) settings kind env d call r
  rw [heq] at hmem ⊢
  cases reply with
  | none => cases List.mem_singleton.mp hmem
  | some f =>
    have hordinary := ((htame f rfl).aside w).ordinary
    rcases List.mem_append.mp hmem with hreply | hclosing
    · cases hordinary _ hreply
    · obtain ⟨hcloses, hflight⟩ := committed_closing ⟨call', hclosing⟩
      refine ⟨hcloses, hflight, fun hfatal => ?_⟩
      rcases List.mem_append.mp hfatal with hreply | hlast
      · cases hordinary _ hreply
      · exact silent_closing kind env.now call _ _ hlast nofun

/-- A slot is committed by an answer to an outstanding call, and by nothing else. -/
theorem committed_turn {e : Turn} {c : Slot} {w : World R} (h : Committed c (turn settings e w).2) :
    (∃ n call r env d, e = .own (.answer n call r env d) ∧ (n, call) ∈ w.stream.calls.entries ∧
      call.closes w.stream.kind = some c) ∧ (turn settings e w).1.request.inFlight c = false ∧
      Output.fatal ∉ (turn settings e w).2 := by
  obtain ⟨call', hmem⟩ := h
  cases e with
  | requested | stale => cases hmem
  | otherServed c' gate now | otherCommitted c' now =>
    simp only [turn] at hmem
    split at hmem
    · cases hmem
    · cases hmem
  | own e =>
    cases hslotted : e.slotted with
    | false => cases ((tame_step settings hslotted).aside w).ordinary _ hmem
    | true =>
      cases e with
      | timer now refresh gate d =>
        simp only [turn, step, guarded] at hmem
        split at hmem
        · exact absurd rfl (timely_timer settings now gate d _ w _ hmem)
        · cases hmem
      | answer n call r env d =>
        simp only [turn, step, answer] at hmem ⊢
        split at hmem
        next houtstanding =>
          rw [if_pos houtstanding]
          obtain ⟨hcloses, hrest⟩ := committed_acknowledge settings ⟨call', hmem⟩
          exact ⟨⟨n, call, r, env, d, rfl, houtstanding, hcloses⟩, hrest⟩
        next => cases hmem
      | _ => cases hslotted

theorem slot_of_closes {kind : Kind} {call : Call} (h : call.closes kind = some .staleOrders) :
    call.slot = some .staleOrders := by
  cases call with
  | userTrades symbol => cases kind <;> cases h
  | _ => exact h

theorem order_of_slot {call : Call} (h : call.slot = some .staleOrders) :
    ∃ clientOrderId, call = .order clientOrderId := by
  cases call with
  | order clientOrderId => exact ⟨clientOrderId, rfl⟩
  | accountBalance polling => cases polling <;> cases h
  | _ => cases h

/-- Nothing else of the batch is outstanding exactly if no other stale order is. -/
theorem lastOf_iff {kind : Kind} {n : ℕ} {call : Call} (h : Tallied kind none out w)
    (hmem : (n, call) ∈ w.stream.calls.entries) (hslot : call.slot = some .staleOrders) :
    LastOf out w n ↔ w.stream.downloadStaleOrdersCounter - 1 = 0 := by
  have hcounter := h.counter
  rw [if_neg nofun, Nat.add_zero, Ledger.count_settle (onSlot .staleOrders) hmem,
    if_pos (by simpa [onSlot] using hslot)] at hcounter
  rw [hcounter, Nat.add_sub_cancel, count_onSlot_eq_zero]
  constructor
  · rintro ⟨-, hlast⟩ n' call' hmem' hslot'
    obtain ⟨hold, hne⟩ := Ledger.mem_settle.mp hmem'
    exact hlast n' (h.batched.batch n' call' hold hslot') hne call' hold
  · intro hnone
    refine ⟨h.batched.batch n call hmem hslot, fun n' hn' hne call' hmem' => ?_⟩
    exact hnone n' call' (Ledger.mem_settle.mpr ⟨hmem', hne⟩) (h.batched.own _ n' call' hn' hmem')

theorem committed_turn_iff {kind : Kind} (h : Tallied kind none out w) (e : Turn) :
    Committed .staleOrders (turn settings e w).2 ↔ Completes settings out w e := by
  constructor
  · intro hcommitted
    obtain ⟨⟨n, call, r, env, d, rfl, hmem, hcloses⟩, -⟩ := committed_turn settings hcommitted
    obtain ⟨clientOrderId, rfl⟩ := order_of_slot (slot_of_closes hcloses)
    rw [turn, answer_of_mem settings hmem] at hcommitted
    obtain ⟨hends, hzero⟩ := (committed_getOrderAck_iff settings _ _ _ _ _).mp hcommitted
    exact ⟨hmem, rfl, hends, (lastOf_iff h hmem rfl).mpr hzero⟩
  · intro hcompletes
    unfold Completes at hcompletes
    split at hcompletes
    next n call r env d =>
      obtain ⟨hmem, hslot, hends, hlast⟩ := hcompletes
      have hzero := (lastOf_iff h hmem hslot).mp hlast
      obtain ⟨clientOrderId, rfl⟩ := order_of_slot hslot
      rw [turn, answer_of_mem settings hmem]
      exact (committed_getOrderAck_iff settings _ _ _ _ _).mpr ⟨hends, hzero⟩
    next => cases hcompletes

/-- CORRECT: in every state that a run of a stream reaches, the counter is the number of stale orders that
    have not been answered, it does not go below zero, and the slot is committed by the last outstanding
    answer of a batch and by nothing else. -/
theorem counted (kind : Kind) (account : String) (es : List Turn) :
    Counted settings (run (mortal kills (turn settings)) es (create (R := R) kind account {}, false)).2
      (run (mortal kills (turn settings)) es (create (R := R) kind account {}, false)).1 := by
  refine (run_tallied settings kind account es).imp id fun h => ⟨?_, fun n call hmem hslot => ?_,
    committed_turn_iff settings h⟩
  · have hcounter := h.counter
    rwa [if_neg nofun, Nat.add_zero] at hcounter
  · have hcounter := h.counter
    rw [if_neg nofun, Nat.add_zero] at hcounter
    rw [hcounter]
    exact Ledger.count_pos.mpr ⟨n, call, hmem, by simpa [onSlot] using hslot⟩

end

/-- An order management that finds an order for each id. -/
def twoOrders : Dispatcher := { Dispatcher.knowing none with
  findOrderById := fun userId orderId => some {
    userId, orderId, symbol := "BTCUSDT", clientOrderId := if orderId = 1 then "c1" else "c2" } }

/-- The answer to a request that asks for an order. -/
def filled (n : ℕ) (clientOrderId : String) : Turn :=
  .own (.answer n (.order clientOrderId)
    (.success (.ok { orderId := 7, symbol := "BTCUSDT", status := .filled, clientOrderId }))
    { now := 1, downloading := false, visits := [] } twoOrders)

/-- Two stale orders are asked for, and the first of them is answered. -/
def firstFilled : List Turn := [
  .own (.connected [.done]), .stale [(2, 1), (2, 2)], .requested .staleOrders 0,
  .own (.timer 0 true (fun c => c = .staleOrders) twoOrders), filled 0 "c1"]

/-- The second order is still counted, and its answer commits the slot. -/
theorem counted_firstFilled :
    let s := run (mortal kills (turn {})) firstFilled
      (create (R := .simple) .orderEntryClassic "A1" {}, false)
    s.1.2 = false ∧ s.1.1.stream.downloadStaleOrdersCounter = 1 ∧
      Committed .staleOrders (turn {} (filled 1 "c2") s.1.1).2 := by
  have halive : (run (mortal kills (turn {})) firstFilled
      (create (R := .simple) .orderEntryClassic "A1" {}, false)).1.2 = false := by decide
  have hcalls : (run (mortal kills (turn {})) firstFilled
      (create (R := .simple) .orderEntryClassic "A1" {}, false)).1.1.stream.calls.entries
        = [(1, .order "c2")] := by decide
  have h := (counted {} .orderEntryClassic "A1" firstFilled (R := .simple)).resolve_left (by simp [halive])
  refine ⟨halive, ?_, (h.2.2 (filled 1 "c2")).mpr ⟨?_, rfl, rfl, by decide, ?_⟩⟩
  · rw [h.1, Ledger.count, hcalls]
    decide
  · rw [hcalls]
    exact List.mem_singleton_self _
  · intro n _ hne call hmem
    rw [hcalls, List.mem_singleton] at hmem
    exact hne (Prod.mk.inj hmem).1

end BinanceFutures.RestStream
