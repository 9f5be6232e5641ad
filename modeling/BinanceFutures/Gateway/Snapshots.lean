import BinanceFutures.Gateway.Rest
import BinanceFutures.Schemes.Books

/-! # Snapshot requests

    A symbol that is put in a request queue stays there until its request goes out, and from then on the
    request stands for it. The answer decides what becomes of it.

        in the queue ─▶ outstanding ── success ─▶ handed to the sequencer, or published
                             │                              │ request_snapshot, BadState
                             │                              ▼
                             │                         in the queue
                             └── error ─▶ log

    An error is logged, and the symbol is in no place any more. `conserved_iff` says that this is the
    only way to lose one. -/

namespace BinanceFutures
open Machine

namespace Instruments

variable {Q : Type}

/-- The action puts requests behind those that are in the queue. -/
def Appends (f : Act Q) : Prop := ∀ shared, shared.depthRequestQueue <+: (f shared).1.depthRequestQueue

theorem appends_seq {f g : Act Q} (hf : Appends f) (hg : Appends g) : Appends (seq f g) :=
  fun shared => (hf shared).trans (hg (f shared).1)

theorem appends_seqAll : ∀ {fs : List (Act Q)}, (∀ f ∈ fs, Appends f) → Appends (seqAll fs)
  | [], _ => fun _ => List.prefix_refl _
  | f :: _, h => appends_seq (h f (List.mem_cons_self ..))
      (appends_seqAll fun g hg => h g (List.mem_cons_of_mem _ hg))

theorem appends_emit (os : List Output) : Appends (emit os : Act Q) := fun _ => List.prefix_refl _

variable (sequencer : Sequencer Q) (settings : Settings) (streamId : UInt16)

theorem appends_callback (m : DepthUpdate) (last : UInt64) (c : Callback) :
    Appends (callback (Q := Q) settings streamId m last c) := by
  cases c with
  | publishUpdate bids asks => exact appends_emit _
  | publishSnapshot bids asks sequence => exact appends_emit _
  | requestSnapshot retries =>
    intro shared
    unfold callback
    dsimp only
    split
    · exact List.prefix_refl _
    · exact List.prefix_append _ _

theorem appends_sequence (m : DepthUpdate) (instrument : Instrument Q) :
    Appends (sequence sequencer settings streamId m instrument) := by
  unfold sequence
  dsimp only
  refine appends_seqAll fun f hf => ?_
  simp only [List.mem_cons, List.not_mem_nil, or_false] at hf
  rcases hf with rfl | rfl | rfl | rfl
  · exact appends_emit _
  · exact fun _ => List.prefix_refl _
  · refine appends_seqAll fun g hg => ?_
    obtain ⟨c, -, rfl⟩ := List.mem_map.mp hg
    exact appends_callback settings streamId m _ c
  · intro shared
    rw [modify_apply]
    split
    · exact List.prefix_append _ _
    · exact List.prefix_refl _

theorem appends_message (m : Message) : Appends (step sequencer settings (.message streamId m)) := by
  intro shared
  cases m with
  | bookTicker m =>
    unfold step bookTicker
    dsimp only
    split
    · exact List.prefix_refl _
    · exact List.prefix_refl _
  | depthUpdate m =>
    unfold step depthUpdate
    dsimp only
    split
    · exact List.prefix_refl _
    · refine appends_seqAll (fun f hf => ?_) shared
      simp only [List.mem_cons, List.not_mem_nil, or_false] at hf
      rcases hf with rfl | rfl | rfl
      · exact appends_emit _
      · exact fun _ => List.prefix_refl _
      · split
        · exact appends_sequence sequencer settings streamId m _
        · exact fun _ => List.prefix_refl _

end Instruments

namespace Rest

/-! ### Where a symbol is -/

/-- A symbol is put in a queue. -/
def Output.enqueues : Output → Option (Source × String)
  | .emplaceBack _ source symbol => some (source, symbol)
  | _ => none

def Output.requests : Output → Option (ℕ × Call)
  | .request n call _ => some (n, call)
  | _ => none

/-- A snapshot request is concluded: its answer is handed to the sequencer, it is published or has no bars,
    or the symbol is put back in its queue. -/
def Output.concludes : Output → Option (ℕ × Call)
  | .sequence n symbol => some (n, .depth symbol)
  | .timeSeriesUpdate n m => some (n, .kline m.symbol)
  | .noBars n symbol => some (n, .kline symbol)
  | .emplaceBack (some n) source symbol => some (n, source.call symbol)
  | _ => none

def enqueued (out : List Output) : List (Source × String) := out.filterMap Output.enqueues

def requested (out : List Output) : List (ℕ × Call) := out.filterMap Output.requests

/-- What has been taken from the queues. -/
def dequeued (out : List Output) : List (Source × String) := (requested out).filterMap fun e => e.2.errand

def concluded (out : List Output) : List (ℕ × Call) := out.filterMap Output.concludes

/-- The symbols of one queue. -/
def ofSource (source : Source) (errands : List (Source × String)) : List String :=
  (errands.filter fun errand => errand.1 = source).map Prod.snd

/-- The request is one for a snapshot. -/
def isSnapshot (call : Call) : Bool := call.errand.isSome

section
variable {Q : Type}

/-- No snapshot request is lost: what has been put in a queue has been taken from it or is in it, and what
    has been taken from it is waiting for its response or has been concluded. -/
structure Conserved (out : List Output) (w : World Q) : Prop where
  queued : ∀ source, ofSource source (enqueued out)
    = ofSource source (dequeued out) ++ w.queue source
  kept : Ledger.Kept isSnapshot (requested out) (concluded out) w.calls

/-- The answer to a snapshot request is a success whose body is parsed, unless the process ends. -/
def Succeeds (settings : Settings) (s : World Q × Bool) : Event → Prop
  | .answer n call r _ => s.2 = false → isSnapshot call = true → (n, call) ∈ s.1.calls.entries →
      r.ends settings = true ∨ ∃ body, r = .success (.ok body)
  | _ => True

/-- Queues and books are in order. -/
structure Sound (out : List Output) (w : World Q) : Prop where
  queued : ∀ source, ofSource source (enqueued out)
    = ofSource source (dequeued out) ++ w.queue source
  books : Ledger.Books isSnapshot (requested out) (concluded out) w.calls

theorem Sound.conserved {out : List Output} {w : World Q} (h : Sound out w) : Conserved out w :=
  ⟨h.queued, h.books.kept⟩

theorem enqueued_append (out os : List Output) : enqueued (out ++ os) = enqueued out ++ enqueued os :=
  List.filterMap_append

theorem requested_append (out os : List Output) : requested (out ++ os) = requested out ++ requested os :=
  List.filterMap_append

theorem concluded_append (out os : List Output) : concluded (out ++ os) = concluded out ++ concluded os :=
  List.filterMap_append

theorem dequeued_append (out os : List Output) : dequeued (out ++ os) = dequeued out ++ dequeued os := by
  rw [dequeued, requested_append, List.filterMap_append]
  rfl

theorem ofSource_append (source : Source) (as bs : List (Source × String)) :
    ofSource source (as ++ bs) = ofSource source as ++ ofSource source bs := by
  rw [ofSource, List.filter_append, List.map_append]
  rfl

@[simp] theorem queue_setQueue (w : World Q) (source source' : Source) (queue : List String) :
    (w.setQueue source queue).queue source' = if source' = source then queue else w.queue source' := by
  cases source <;> cases source' <;> rfl

@[simp] theorem calls_setQueue (w : World Q) (source : Source) (queue : List String) :
    (w.setQueue source queue).calls = w.calls := by
  cases source <;> rfl

/-! ### Actions that send nothing -/

/-- The action sends nothing, appends to the queues, and concludes at most the one request. -/
structure Handles (e : Option (ℕ × Call)) (f : Act Q) : Prop where
  calls : ∀ w, (f w).1.calls = w.calls
  queue : ∀ w source, (f w).1.queue source = w.queue source ++ ofSource source (enqueued (f w).2)
  requested : ∀ w, requested (f w).2 = []
  concluded : ∀ w, ∀ x ∈ concluded (f w).2, e = some x

variable {e : Option (ℕ × Call)}

theorem handles_skip : Handles e (skip : Act Q) where
  calls _ := rfl
  queue _ _ := (List.append_nil _).symm
  requested _ := rfl
  concluded _ x hx := by cases hx

theorem handles_seq {f g : Act Q} (hf : Handles e f) (hg : Handles e g) : Handles e (seq f g) where
  calls w := (hg.calls _).trans (hf.calls w)
  queue w source := by
    rw [seq_fst, seq_snd, hg.queue, hf.queue, enqueued_append, ofSource_append, List.append_assoc]
  requested w := by rw [seq_snd, requested_append, hf.requested, hg.requested, List.nil_append]
  concluded w x hx := by
    rw [seq_snd, concluded_append] at hx
    rcases List.mem_append.mp hx with hx | hx
    · exact hf.concluded w x hx
    · exact hg.concluded _ x hx

theorem handles_seqAll : ∀ {fs : List (Act Q)}, (∀ f ∈ fs, Handles e f) → Handles e (seqAll fs)
  | [], _ => handles_skip
  | f :: _, h => handles_seq (h f (List.mem_cons_self ..))
      (handles_seqAll fun g hg => h g (List.mem_cons_of_mem _ hg))

theorem handles_emit {o : Output} (henqueues : o.enqueues = none) (hrequests : o.requests = none)
    (hconcludes : ∀ x, o.concludes = some x → e = some x) : Handles e (emit [o] : Act Q) where
  calls _ := rfl
  queue w source := by simp [enqueued, ofSource, henqueues]
  requested w := by simp [requested, hrequests]
  concluded w x hx := by
    obtain ⟨o', ho, hx⟩ := List.mem_filterMap.mp hx
    rw [emit_apply, List.mem_singleton] at ho
    exact hconcludes x (ho ▸ hx)

theorem handles_modify {f : World Q → World Q} (hcalls : ∀ w, (f w).calls = w.calls)
    (hqueue : ∀ w source, (f w).queue source = w.queue source) : Handles e (modify f) where
  calls := hcalls
  queue w source := (hqueue w source).trans (List.append_nil _).symm
  requested _ := rfl
  concluded _ x hx := by cases hx

theorem handles_emplaceBack {n : Option ℕ} {source : Source} {symbol : String}
    (h : ∀ m, n = some m → e = some (m, source.call symbol)) :
    Handles e (emplaceBack n source symbol : Act Q) where
  calls w := calls_setQueue _ _ _
  queue w source' := by
    rw [emplaceBack, queue_setQueue]
    by_cases hsource : source' = source
    · subst hsource
      simp [enqueued, Output.enqueues, ofSource]
    · have hne : source ≠ source' := fun heq => hsource heq.symm
      simp [enqueued, Output.enqueues, ofSource, hsource, hne]
  requested _ := rfl
  concluded w x hx := by
    cases n with
    | none => cases hx
    | some m =>
      rw [h m rfl]
      exact congrArg some (List.mem_singleton.mp hx).symm

/-! ### What keeps the books -/

variable {out : List Output} {w : World Q}

theorem Handles.queued {f : Act Q} (hf : Handles e f) (h : ∀ source, ofSource source (enqueued out)
      = ofSource source (dequeued out) ++ w.queue source) (source : Source) :
    ofSource source (enqueued (out ++ (f w).2))
      = ofSource source (dequeued (out ++ (f w).2)) ++ (f w).1.queue source := by
  have hnone : dequeued (f w).2 = [] := by rw [dequeued, hf.requested, List.filterMap_nil]
  rw [enqueued_append, ofSource_append, h, dequeued_append, hnone, List.append_nil, hf.queue,
    List.append_assoc]

/-- A request is settled, and what follows concludes it if it is one for a snapshot. -/
theorem Sound.settle {n : ℕ} {call : Call} {f : Act Q} (h : Sound out w)
    (hmem : (n, call) ∈ w.calls.entries) (hf : Handles (some (n, call)) f)
    (hdone : isSnapshot call = true →
      (n, call) ∈ concluded (f { w with calls := w.calls.settle n }).2) :
    Sound (out ++ (f { w with calls := w.calls.settle n }).2)
      (f { w with calls := w.calls.settle n }).1 where
  queued source := hf.queued (w := { w with calls := w.calls.settle n }) h.queued source
  books := by
    rw [requested_append, concluded_append, hf.requested, hf.calls, List.append_nil]
    exact h.books.settle hmem (fun e he => (Option.some.inj (hf.concluded _ e he)).symm) hdone

theorem Handles.concluded_eq {f : Act Q} (hf : Handles none f) (w : World Q) :
    Rest.concluded (f w).2 = [] := by
  refine List.eq_nil_iff_forall_not_mem.mpr fun x hx => ?_
  cases hf.concluded w x hx

theorem keeps_of_handles {f : Act Q} (hf : Handles none f) : Keeps Sound f := by
  intro out w h
  have hnone : concluded (f w).2 = [] := hf.concluded_eq w
  refine ⟨hf.queued h.queued, ?_⟩
  rw [requested_append, concluded_append, hf.requested, hnone, hf.calls, List.append_nil, List.append_nil]
  exact h.books

variable (sequencer : SnapshotSequencer Q) (api : API) (settings : Settings)

theorem queue_send (call : Call) (w : World Q) (source : Source) :
    (send api settings call w).1.queue source = w.queue source := by
  cases source <;> rfl

theorem dequeued_request (n : ℕ) (call : Call) (request : HttpRequest) :
    dequeued [.request n call request] = call.errand.toList := by
  cases call <;> rfl

/-- A request goes out. If it is one for a snapshot, its symbol has just been taken from the queue. -/
theorem Sound.send {w' : World Q} {call : Call} (h : Sound out w) (hcalls : w'.calls = w.calls)
    (hqueue : ∀ source, w.queue source = ofSource source call.errand.toList ++ w'.queue source) :
    Sound (out ++ (send api settings call w').2) (send api settings call w').1 where
  queued source := by
    calc ofSource source (enqueued (out ++ (Rest.send api settings call w').2))
        = ofSource source (enqueued out) := by
          rw [enqueued_append]
          exact congrArg (ofSource source) (List.append_nil _)
      _ = ofSource source (dequeued out) ++ (ofSource source call.errand.toList ++ w'.queue source) := by
          rw [h.queued, hqueue]
      _ = _ := by
          rw [queue_send, dequeued_append, ofSource_append, List.append_assoc, Rest.send, dequeued_request]
  books := by
    have hnone : concluded (Rest.send api settings call w').2 = [] := rfl
    have hbooks := h.books.enter call
    rw [← hcalls] at hbooks
    rw [requested_append, concluded_append, hnone, List.append_nil]
    exact hbooks

/-- A request of the download. -/
theorem keeps_send {call : Call} (hcall : call.errand = none) :
    Keeps Sound (send api settings call : Act Q) := by
  intro out w h
  refine h.send api settings rfl fun source => ?_
  rw [hcall]
  rfl

theorem keeps_takeOne (source : Source) : Keeps Sound (takeOne api settings source : Act Q) := by
  intro out w h
  unfold takeOne
  cases hqueue : w.queue source with
  | nil => simpa using h
  | cons symbol rest =>
    have herrand : (source.call symbol).errand = some (source, symbol) := by cases source <;> rfl
    refine h.send api settings (calls_setQueue _ _ _) fun source' => ?_
    rw [herrand, queue_setQueue]
    by_cases hsource : source' = source
    · subst hsource
      simp [ofSource, hqueue]
    · have hne : source ≠ source' := fun heq => hsource heq.symm
      simp [ofSource, hsource, hne]

/-! ### Events -/

theorem keeps_status (status : ConnectionStatus) (reason : String) :
    Keeps Sound (setStatus status reason : Act Q) :=
  keeps_of_handles (handles_seq (f := modify fun w => { w with connectionStatus := status })
    (g := emit [.streamStatus status reason])
    (handles_modify (fun _ => rfl) fun _ source => by cases source <;> rfl)
    (handles_emit rfl rfl fun x hx => by cases hx))

theorem keeps_emit {o : Output} (henqueues : o.enqueues = none) (hrequests : o.requests = none)
    (hconcludes : o.concludes = none) : Keeps Sound (emit [o] : Act Q) :=
  keeps_of_handles (handles_emit henqueues hrequests fun x hx => by rw [hconcludes] at hx; cases hx)

theorem keeps_visit (env : Answers) : Keeps Sound (visit api settings env : Act Q) := by
  refine keeps_map fun v _ => ?_
  unfold download
  cases v.state with
  | undefined => exact keeps_skip _
  | exchangeInfo => exact keeps_seq (keeps_status _ _) (keeps_send api settings rfl)
  | assetIndex =>
    refine keeps_seq (keeps_status _ _) ?_
    split
    · exact keeps_skip _
    · exact keeps_send api settings rfl
  | done => exact keeps_status _ _

theorem keeps_checkRequestQueue (limit : Source → ℕ) :
    Keeps Sound (checkRequestQueue api settings limit : Act Q) := by
  have hdispatch : ∀ source, Keeps Sound (dispatch api settings source (limit source) : Act Q) := by
    intro source
    refine keeps_seqAll fun f hf => ?_
    rw [List.eq_of_mem_replicate hf]
    exact keeps_takeOne api settings source
  exact keeps_seq (hdispatch .depth) (hdispatch .timeSeries)

/-- What is picked of a message is picked of the requests that it has led to. -/
theorem filterMap_message {β : Type} {p : Output → Option β} (hp : ∀ o, p (.marketData o) = none)
    (streamId : UInt16) (m : Instruments.Message) (w : World Q) :
    ∃ asked, (message sequencer settings streamId m w).1.shared.depthRequestQueue
        = w.shared.depthRequestQueue ++ asked ∧
      (message sequencer settings streamId m w).2.filterMap p
        = asked.filterMap fun symbol => p (.emplaceBack none .depth symbol) := by
  obtain ⟨asked, hasked⟩ :=
    Instruments.appends_message sequencer.toSequencer settings streamId m w.shared
  refine ⟨asked, hasked.symm, ?_⟩
  have hnone : ∀ out : List Instruments.Output, (out.map Output.marketData).filterMap p = [] := by
    intro out
    rw [List.filterMap_map]
    exact List.filterMap_eq_nil_iff.mpr fun o _ => hp o
  unfold message
  dsimp only
  rw [← hasked, List.drop_left, List.filterMap_append, hnone, List.nil_append, List.filterMap_map]
  rfl

/-- What the market data streams ask for is put behind what is in the queue. -/
theorem keeps_message (streamId : UInt16) (m : Instruments.Message) :
    Keeps Sound (message sequencer settings streamId m) := by
  refine keeps_of_handles ⟨fun _ => rfl, fun w source => ?_, fun w => ?_, fun w x hx => ?_⟩
  · obtain ⟨asked, hqueue, henqueued⟩ :=
      filterMap_message sequencer settings (p := Output.enqueues) (fun _ => rfl) streamId m w
    rw [enqueued, henqueued]
    cases source with
    | depth =>
      simpa [World.queue, Output.enqueues, ofSource, List.filter_map, Function.comp_def] using hqueue
    | timeSeries => simp [World.queue, Output.enqueues, ofSource, List.filter_map, message]
  · obtain ⟨asked, -, hnone⟩ :=
      filterMap_message sequencer settings (p := Output.requests) (fun _ => rfl) streamId m w
    rw [requested, hnone]
    exact List.filterMap_eq_nil_iff.mpr fun _ _ => rfl
  · obtain ⟨asked, -, hnone⟩ :=
      filterMap_message sequencer settings (p := Output.concludes) (fun _ => rfl) streamId m w
    rw [concluded, hnone] at hx
    obtain ⟨symbol, -, hsome⟩ := List.mem_filterMap.mp hx
    cases hsome

theorem keeps_subscribe (symbols : List String) : Keeps Sound (subscribe settings symbols : Act Q) := by
  unfold subscribe
  split
  · exact keeps_skip _
  · refine keeps_map fun symbol _ => ?_
    exact keeps_of_handles (handles_emplaceBack fun m hm => by cases hm)

/-! ### Answers -/

/-- The error handler runs, after the connection may have been suspended. -/
def Fails (onError : OnError Q) (f : Act Q) : Prop :=
  ∃ pre origin status error text, (∀ o ∈ pre, ∃ t, o = Output.suspendFor t) ∧
    f = seq (emit pre) (onError origin status error text)

section
variable {onError : OnError Q}

theorem fails_onError (origin : Origin) (status : RequestStatus) (error : Error) (text : String) :
    Fails onError (onError origin status error text) :=
  ⟨[], origin, status, error, text, by simp, (skip_seq _).symm⟩

theorem fails_suspend {f : Act Q} (t : Nanos) (hf : Fails onError f) :
    Fails onError (seq (emit [.suspendFor t]) f) := by
  obtain ⟨pre, origin, status, error, text, hpre, rfl⟩ := hf
  refine ⟨.suspendFor t :: pre, origin, status, error, text, fun o ho => ?_, ?_⟩
  · rcases List.mem_cons.mp ho with rfl | ho
    · exact ⟨t, rfl⟩
    · exact hpre o ho
  · rw [← seq_assoc]
    rfl

theorem fails_caught (e : Raised) : Fails onError (caught onError e) := by
  cases e with
  | oms | network | other => exact fails_onError _ _ _ _

/-- The process ends, the success handler runs, or the error handler does. -/
theorem processResponse_cases {α : Type} (r : RestResponse α) (onError : OnError Q)
    (onSuccess : α → Act Q) :
    (processResponse settings r onError onSuccess = none ∧ r.ends settings = true) ∨
    (∃ body, r = .success (.ok body) ∧
      processResponse settings r onError onSuccess = some (onSuccess body)) ∨
    ((∃ f, Fails onError f ∧ processResponse settings r onError onSuccess = some f) ∧
      r.ends settings = false ∧ ¬ ∃ body, r = .success (.ok body)) := by
  cases r with
  | unexpected e => exact Or.inr (Or.inr ⟨⟨_, fails_caught e, rfl⟩, rfl, by simp⟩)
  | success body =>
    cases body with
    | ok body => exact Or.inr (Or.inl ⟨body, rfl, rfl⟩)
    | error e => exact Or.inr (Or.inr ⟨⟨_, fails_caught e, rfl⟩, rfl, by simp⟩)
  | redirection => exact Or.inl ⟨rfl, rfl⟩
  | clientError status text retryAfter body =>
    have hlimit : Fails onError (seq (emit (if retryAfter ≠ 0 then [.suspendFor retryAfter] else []))
        (onError .exchange .rejected .requestRateLimitReached text)) := by
      split
      · exact fails_suspend _ (fails_onError _ _ _ _)
      · exact fails_onError _ _ _ _
    by_cases hforbidden : status = forbidden
    · by_cases hend : settings.rest.terminateOn403 = true
      · exact Or.inl ⟨by simp [processResponse, hforbidden, hend],
          by simp [RestResponse.ends, hforbidden, hend]⟩
      · exact Or.inr (Or.inr ⟨⟨_, fails_suspend settings.rest.backOffDelay hlimit,
            by simp [processResponse, hforbidden, hend]⟩,
          by simp [RestResponse.ends, hend], by simp⟩)
    · have hends : (RestResponse.clientError (α := α) status text retryAfter body).ends settings
          = false := by
        simp [RestResponse.ends, hforbidden]
      by_cases hlimited : status = iAmATeapot ∨ status = tooManyRequests
      · exact Or.inr (Or.inr ⟨⟨_, hlimit, by simp [processResponse, hforbidden, hlimited]⟩, hends, by simp⟩)
      · cases body with
        | ok error =>
          have hrejected : Fails onError
              (onError .exchange .rejected (Json.guessError error.code) error.msg) :=
            fails_onError _ _ _ _
          exact Or.inr (Or.inr ⟨⟨_, hrejected, by simp [processResponse, hforbidden, hlimited]⟩,
            hends, by simp⟩)
        | error e =>
          exact Or.inr (Or.inr ⟨⟨_, fails_caught e, by simp [processResponse, hforbidden, hlimited]⟩,
            hends, by simp⟩)
  | serverError text => exact Or.inr (Or.inr ⟨⟨_, fails_onError _ _ _ _, rfl⟩, rfl, by simp⟩)
  | raised e => exact Or.inr (Or.inr ⟨⟨_, fails_caught e, rfl⟩, rfl, by simp⟩)

end

theorem handles_suspensions {pre : List Output} (hpre : ∀ o ∈ pre, ∃ t, o = Output.suspendFor t) :
    Handles none (emit pre : Act Q) := by
  have hpick : ∀ {β : Type} (p : Output → Option β), (∀ t, p (.suspendFor t) = none) →
      pre.filterMap p = [] := by
    intro β p hp
    refine List.filterMap_eq_nil_iff.mpr fun o ho => ?_
    obtain ⟨t, rfl⟩ := hpre o ho
    exact hp t
  refine ⟨fun _ => rfl, fun w source => ?_, fun _ => hpick _ fun _ => rfl, fun w x hx => ?_⟩
  · rw [emit_apply, enqueued, hpick _ fun _ => rfl]
    exact (List.append_nil _).symm
  · rw [emit_apply, concluded, hpick _ fun _ => rfl] at hx
    cases hx

/-- An error is logged, and that is all. -/
theorem logged {f : Act Q} (hf : Fails logError f) : Handles none f ∧ ∀ w, (f w).2.any kills = false := by
  obtain ⟨pre, origin, status, error, text, hpre, rfl⟩ := hf
  rw [logError, seq_skip]
  refine ⟨handles_suspensions hpre, fun w => ?_⟩
  rw [emit_apply, List.any_eq_false]
  intro o ho
  obtain ⟨t, rfl⟩ := hpre o ho
  exact Bool.false_ne_true

theorem keeps_downloadAck {α : Type} (state : State) (r : RestResponse α) (env : Answers)
    {ack : α → Output} (henqueues : ∀ body, (ack body).enqueues = none)
    (hrequests : ∀ body, (ack body).requests = none) (hconcludes : ∀ body, (ack body).concludes = none) :
    Keeps Sound (downloadAck api settings state r env ack : Act Q) := by
  have hvisit : Keeps Sound (visit api settings env : Act Q) := keeps_visit api settings env
  unfold downloadAck
  split
  · exact keeps_skip _
  · rcases processResponse_cases settings r _ _ with ⟨hnone, -⟩ | ⟨body, -, hsome⟩ | ⟨⟨f, hf, hsome⟩, -⟩
    · rw [hnone]
      exact keeps_emit rfl rfl rfl
    · rw [hsome]
      exact keeps_seq (keeps_emit (henqueues body) (hrequests body) (hconcludes body))
        (keeps_seq (keeps_emit rfl rfl rfl) (keeps_seq hvisit (keeps_skip _)))
    · rw [hsome]
      obtain ⟨pre, origin, status, error, text, hpre, rfl⟩ := hf
      refine keeps_seq (keeps_of_handles (handles_suspensions hpre)) ?_
      split
      · exact keeps_seq (keeps_emit rfl rfl rfl) hvisit
      · exact keeps_skip _

theorem handles_callback (n : ℕ) (symbol : String) (m : Json.DepthAck) (last : UInt64)
    (c : SnapshotCallback) :
    Handles (some (n, .depth symbol)) (callback settings n symbol m last c : Act Q) := by
  cases c with
  | publishSnapshot bids asks sequence => exact handles_emit rfl rfl fun x hx => by cases hx
  | requestSnapshot retries =>
    unfold callback
    dsimp only
    split
    · exact handles_emit rfl rfl fun x hx => by cases hx
    · exact handles_emplaceBack fun m hm => by cases hm; rfl

/-- The sequencer asks for another snapshot, or is cleared, and the symbol is put back in its queue. -/
theorem handles_sequence (n : ℕ) (symbol : String) (m : Json.DepthAck) (instrument : Instrument Q) :
    Handles (some (n, .depth symbol)) (sequence sequencer settings n symbol m instrument) := by
  unfold sequence
  dsimp only
  refine handles_seqAll fun f hf => ?_
  simp only [List.mem_cons, List.not_mem_nil, or_false] at hf
  rcases hf with rfl | rfl | rfl | rfl
  · exact handles_emit rfl rfl fun x hx => hx
  · exact handles_modify (fun _ => rfl) fun _ source => by cases source <;> rfl
  · refine handles_seqAll fun g hg => ?_
    obtain ⟨c, -, rfl⟩ := List.mem_map.mp hg
    exact handles_callback settings n symbol m _ c
  · split
    · exact handles_emplaceBack fun m hm => by cases hm; rfl
    · exact handles_skip

/-- A snapshot is handed to the sequencer, whatever that makes of it. -/
theorem handles_depthAck (n : ℕ) (symbol : String) (m : Json.DepthAck) :
    Handles (some (n, .depth symbol)) (depthAck sequencer settings n symbol m) ∧
      ∀ w, (n, .depth symbol) ∈ concluded (depthAck sequencer settings n symbol m w).2 := by
  refine ⟨⟨fun w => ?_, fun w => ?_, fun w => ?_, fun w => ?_⟩, fun w => ?_⟩
  · exact (handles_sequence sequencer settings n symbol m _).calls w
  · exact (handles_sequence sequencer settings n symbol m _).queue w
  · exact (handles_sequence sequencer settings n symbol m _).requested w
  · exact (handles_sequence sequencer settings n symbol m _).concluded w
  · exact List.mem_filterMap.mpr ⟨.sequence n symbol, List.mem_cons_self .., rfl⟩

theorem handles_klineAck (n : ℕ) (symbol : String) (items : List Json.KlineAckDataItem) :
    Handles (some (n, .kline symbol)) (klineAck settings n symbol items : Act Q) ∧
      ∀ w : World Q, (n, .kline symbol) ∈ concluded (klineAck settings n symbol items w).2 := by
  unfold klineAck
  split
  · refine ⟨handles_emit rfl rfl fun x hx => hx, fun w => ?_⟩
    exact List.mem_singleton_self _
  · refine ⟨handles_emit rfl rfl fun x hx => hx, fun w => ?_⟩
    exact List.mem_singleton_self _

/-- The answer to a snapshot request ends the process, concludes the request, or is logged. -/
inductive Answered {α : Type} (n : ℕ) (call : Call) (r : RestResponse α) (f : Act Q) : Prop
  | ends (hends : r.ends settings = true) (hfatal : f = emit [.fatal])
  | concludes (hok : ∃ body, r = .success (.ok body)) (hf : Handles (some (n, call)) f)
      (hdone : ∀ w, (n, call) ∈ concluded (f w).2)
  | logs (hends : r.ends settings = false) (hmiss : ¬ ∃ body, r = .success (.ok body))
      (hf : Handles none f) (halive : ∀ w, (f w).2.any kills = false)

theorem answered_reply {α : Type} {n : ℕ} {call : Call} (r : RestResponse α) {onSuccess : α → Act Q}
    (hsuccess : ∀ body, Handles (some (n, call)) (onSuccess body) ∧
      ∀ w, (n, call) ∈ concluded (onSuccess body w).2) :
    Answered settings n call r (reply (processResponse settings r logError onSuccess)) := by
  rcases processResponse_cases settings r logError onSuccess with ⟨hnone, hends⟩ | ⟨body, hr, hsome⟩ |
    ⟨⟨f, hf, hsome⟩, hends, hmiss⟩
  · rw [hnone]
    exact .ends hends rfl
  · obtain ⟨hhandles, hdone⟩ := hsuccess body
    rw [hsome]
    exact .concludes ⟨body, hr⟩ hhandles hdone
  · obtain ⟨hhandles, halive⟩ := logged hf
    rw [hsome]
    exact .logs hends hmiss hhandles halive

theorem answered_acknowledge (n : ℕ) (env : Answers) {call : Call} (hcall : isSnapshot call = true)
    (r : RestResponse call.Ack) :
    Answered settings n call r (acknowledge sequencer api settings n env call r) := by
  cases call with
  | exchangeInfo sequence => cases hcall
  | assetIndex sequence => cases hcall
  | depth symbol => exact answered_reply settings r (handles_depthAck sequencer settings n symbol)
  | kline symbol => exact answered_reply settings r (handles_klineAck settings n symbol)

/-- The answer to a request of the download. -/
theorem keeps_acknowledge (n : ℕ) (env : Answers) {call : Call} (hcall : isSnapshot call = false)
    (r : RestResponse call.Ack) : Keeps Sound (acknowledge sequencer api settings n env call r) := by
  cases call with
  | exchangeInfo sequence =>
    exact keeps_downloadAck api settings _ r env (fun _ => rfl) (fun _ => rfl) fun _ => rfl
  | assetIndex sequence =>
    exact keeps_downloadAck api settings _ r env (fun _ => rfl) (fun _ => rfl) fun _ => rfl
  | depth symbol => cases hcall
  | kline symbol => cases hcall

variable {sequencer api settings}

theorem answer_of_mem {n : ℕ} {call : Call} (hmem : (n, call) ∈ w.calls.entries) (r : RestResponse call.Ack)
    (env : Answers) : answer sequencer api settings n call r env w
      = acknowledge sequencer api settings n env call r { w with calls := w.calls.settle n } := if_pos hmem

/-- An answer, as it should be. -/
theorem sound_answer {n : ℕ} {call : Call} {r : RestResponse call.Ack} {env : Answers} (h : Sound out w)
    (hsucceeds : Succeeds settings (w, false) (.answer n call r env)) :
    (answer sequencer api settings n call r env w).2.any kills = true ∨
      Sound (out ++ (answer sequencer api settings n call r env w).2)
        (answer sequencer api settings n call r env w).1 := by
  by_cases hmem : (n, call) ∈ w.calls.entries
  · rw [answer_of_mem hmem]
    by_cases hcall : isSnapshot call = true
    · cases answered_acknowledge sequencer api settings n env hcall r with
      | ends _ hfatal =>
        rw [hfatal]
        exact Or.inl rfl
      | concludes _ hhandles hdone => exact Or.inr (h.settle hmem hhandles fun _ => hdone _)
      | logs hends hmiss _ _ =>
        rcases hsucceeds rfl hcall hmem with hended | hok
        · rw [hends] at hended
          cases hended
        · exact absurd hok hmiss
    · rw [Bool.not_eq_true] at hcall
      have hsettled : Sound (out ++ []) { w with calls := w.calls.settle n } :=
        h.settle (f := skip) hmem handles_skip fun hsnapshot => by rw [hcall] at hsnapshot; cases hsnapshot
      rw [List.append_nil] at hsettled
      exact Or.inr (keeps_acknowledge sequencer api settings n env hcall r _ _ hsettled)
  · right
    rw [answer, if_neg hmem, List.append_nil]
    exact h

theorem sound_step {e : Event} (h : Sound out w) (hsucceeds : Succeeds settings (w, false) e) :
    (step sequencer api settings e w).2.any kills = true ∨
      Sound (out ++ (step sequencer api settings e w).2) (step sequencer api settings e w).1 := by
  cases e with
  | start | stop | latency => exact Or.inr (keeps_emit rfl rfl rfl out w h)
  | timer refresh limit =>
    exact Or.inr (keeps_guarded _
      (fun out w _ h => keeps_checkRequestQueue api settings limit out w h) out w h)
  | connected env =>
    refine Or.inr (keeps_seq (keeps_emit ?_ ?_ ?_) (keeps_visit api settings env) out w h)
    · split <;> rfl
    · split <;> rfl
    · split <;> rfl
  | disconnected env =>
    refine Or.inr (keeps_seq (keeps_status _ _) ?_ out w h)
    split
    · exact keeps_skip _
    · exact keeps_emit rfl rfl rfl
  | answer n call r env => exact sound_answer h hsucceeds
  | message streamId m => exact Or.inr (keeps_message sequencer settings streamId m out w h)
  | subscribe symbols => exact Or.inr (keeps_subscribe settings symbols out w h)

/-- An error: the symbol of the request is lost, and the process goes on. -/
theorem lost_step {e : Event} (h : Sound out w) (hmiss : ¬ Succeeds settings (w, false) e) :
    (step sequencer api settings e w).2.any kills = false ∧
      ¬ Conserved (out ++ (step sequencer api settings e w).2) (step sequencer api settings e w).1 := by
  cases e with
  | answer n call r env =>
    have hfailed : isSnapshot call = true ∧ (n, call) ∈ w.calls.entries ∧
        ¬ (r.ends settings = true ∨ ∃ body, r = .success (.ok body)) := by
      simpa [Succeeds] using hmiss
    obtain ⟨hcall, hmem, hnot⟩ := hfailed
    rw [step, answer_of_mem hmem]
    cases answered_acknowledge sequencer api settings n env hcall r with
    | ends hends _ => exact absurd (Or.inl hends) hnot
    | concludes hok _ _ => exact absurd (Or.inr hok) hnot
    | logs _ _ hhandles halive =>
      refine ⟨halive _, fun hconserved => ?_⟩
      have hkept := hconserved.kept
      rw [requested_append, concluded_append, hhandles.requested, hhandles.concluded_eq, hhandles.calls,
        List.append_nil, List.append_nil] at hkept
      exact h.books.lost hmem hcall hkept
  | _ => exact absurd trivial hmiss

variable (sequencer api settings)

/-- EXACT: in every state that a run of the stream reaches while the process lives, no snapshot request is
    lost, exactly if every answer to one has been a success whose body is parsed, or has ended the
    process. -/
theorem conserved_iff (es : List Event) :
    (∀ pre, pre <+: es → (run (mortal kills (step sequencer api settings)) pre ({}, false)).1.2 = false →
        Conserved (run (mortal kills (step sequencer api settings)) pre ({}, false)).2
          (run (mortal kills (step sequencer api settings)) pre ({}, false)).1.1)
    ↔ Along (mortal kills (step sequencer api settings)) (Succeeds settings) es ({}, false) := by
  refine exact_condition (I := fun out (s : World Q × Bool) => s.2 = false → Sound out s.1)
    (P := fun out (s : World Q × Bool) => s.2 = false → Conserved out s.1) ?_ ?_ ?_ ?_ es
  · rintro out ⟨w, dead⟩ e h hsucceeds
    cases dead with
    | true => exact fun hdead => by cases hdead
    | false =>
      intro halive
      rcases sound_step (h rfl) hsucceeds with hkilled | hsound
      · rw [mortal_alive] at halive
        exact absurd (hkilled.symm.trans halive) (by decide)
      · exact hsound
  · exact fun out s h halive => (h halive).conserved
  · rintro out ⟨w, dead⟩ e h hmiss hconserved
    cases dead with
    | true =>
      refine hmiss ?_
      unfold Succeeds
      split
      · exact fun hdead => by cases hdead
      · trivial
    | false =>
      obtain ⟨halive, hlost⟩ := lost_step (h rfl) hmiss
      exact hlost (hconserved halive)
  · exact fun _ => ⟨fun source => by cases source <;> rfl, Ledger.books_empty⟩

end

/-- The klines of a symbol are asked for, and the connection is lost before the answer. -/
def lostKlines : List Event := [
  .connected { visits := [⟨.done, 0⟩] },
  .subscribe ["btcusdt"],
  .timer true fun _ => 1,
  .disconnected {},
  .answer 0 (.kline "btcusdt") (.raised (.network .error .networkError "disconnected")) {}]

/-- The symbol is not waiting for its klines, has not got them, and is not in the queue. -/
theorem lostKlines_not_conserved :
    ¬ ∀ pre, pre <+: lostKlines →
      (run (mortal kills (step publishing (.usdMFutures .undefinedInternal)
          { download := { timeSeriesLookback := seconds 60 } })) pre ({}, false)).1.2 = false →
        Conserved
          (run (mortal kills (step publishing (.usdMFutures .undefinedInternal)
            { download := { timeSeriesLookback := seconds 60 } })) pre ({}, false)).2
          (run (mortal kills (step publishing (.usdMFutures .undefinedInternal)
            { download := { timeSeriesLookback := seconds 60 } })) pre ({}, false)).1.1 := by
  intro h
  have hkept := (h lostKlines (List.prefix_refl _) (by decide)).kept (0, .kline "btcusdt") (by decide) rfl
  revert hkept
  decide

end Rest
end BinanceFutures
