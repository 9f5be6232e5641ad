import BinanceFutures.Gateway.Controller
import BinanceFutures.Gateway.RestMemory

/-! # Listen keys

    An order-entry stream acknowledges listen keys and publishes some of them; the controller creates
    the account's drop copy for the first that it hears of, and removes it after it has expired. What an
    account's drop copy holds is a latch over what is put out for the account.

        seen:   the order entry acknowledges a listen key
        offer:  it publishes the listen key; the controller takes it if there is no drop copy
        drop:   the drop copy is removed

    A `WebSocket` publishes every listen key; a REST stream publishes its first one only. So a REST
    account whose drop copy has been removed does not get another. -/

namespace BinanceFutures
open Machine

/-! ### `WebSocket` -/

namespace WebSocket

/-- What is put out about listen keys. -/
def Output.latchEvent : Output → Option (Latch.Event String)
  | .listenKeyAck listenKey => some (.seen listenKey)
  | .listenKeyUpdate listenKey => some (.offer listenKey)
  | _ => none

/-- Nothing about listen keys, or one that is acknowledged and published. -/
def Announcing (es : List (Latch.Event String)) : Prop :=
  es = [] ∨ ∃ listenKey, es = [.seen listenKey, .offer listenKey]

section
variable {R : LimitRequest} (scanner : Json.Scanner) (settings : Settings)

theorem trace_ordinary {f : Act R} (hf : Ordinary f) (w : World R) :
    (f w).2.filterMap Output.latchEvent = [] := by
  rw [List.filterMap_eq_nil_iff]
  intro o ho
  have hordinary := hf w o ho
  cases o <;> first | rfl | exact absurd rfl hordinary

theorem announcing_listenKey (m : Json.WSAPIMessage) (env : Answers) (w : World R) :
    Announcing ((wsapiListenKey scanner settings m env w).2.filterMap Output.latchEvent) := by
  unfold wsapiListenKey
  split
  · have hrest : Ordinary (R := R) (seqAll [
        emit [.downloadCheckRelaxed .userDataStreamStart], visit scanner env.visits,
        modify fun w =>
          { w with socket.listenKeyRefresh := env.now + settings.rest.listenKeyRefresh }]) :=
      silent_seq (ordinary_emit rfl) (silent_seq (bare_visit scanner _).ordinary
        (silent_seq (ordinary_of (by simp)) (silent_skip _)))
    refine Or.inr ⟨m.result.listenKey, ?_⟩
    rw [seqAll, seq_snd, List.filterMap_append, trace_ordinary hrest]
    rfl
  · exact Or.inl (trace_ordinary (bare_retry scanner _ _).ordinary w)

theorem announcing_handle (m : Json.WSAPIMessage) (request : Json.WSAPIRequest) (env : Answers)
    (d : Dispatcher) (w : World R) :
    Announcing ((handle scanner settings m request env d w).2.filterMap Output.latchEvent) := by
  by_cases hstart : request.type = .userDataStreamStart
  · rw [handle, hstart]
    exact announcing_listenKey scanner settings m env w
  · by_cases hping : request.type = .userDataStreamPing
    · rw [handle, hping]
      exact announcing_listenKey scanner settings m env w
    · exact Or.inl (trace_ordinary (ordinary_handle scanner settings m env d hstart hping) w)

/-- An answer is handled once, so it announces one listen key at most. -/
theorem announcing_answer (n : ℕ) (reply : Json.Reply) (arrangement : Json.Arrangement)
    (env : Answers) (d : Dispatcher) (w : World R) :
    Announcing ((answer scanner settings n reply arrangement env d w).2.filterMap
      Output.latchEvent) := by
  unfold answer
  split
  · exact Or.inl rfl
  next sent _ =>
    have hbefore : Ordinary (R := R) (seq
        (modify fun w => { w with socket.calls := w.socket.calls.settle n })
        (emit [.answered n reply])) :=
      silent_seq (ordinary_of (by simp)) (ordinary_emit rfl)
    have htext : ∀ w : World R, Announcing
        ((text scanner settings (reply.message sent.id arrangement) env d w).2.filterMap
          Output.latchEvent) := by
      intro w
      cases hdispatch : Json.WSAPIParser.dispatch scanner env.allowUnknownEventTypes
          (reply.message sent.id arrangement) with
      | none =>
        rw [text, hdispatch]
        exact Or.inl rfl
      | some requests =>
        rw [text, hdispatch]
        have hlength := Json.WSAPIParser.dispatch_length scanner _ reply sent.id arrangement hdispatch
        match requests, hlength with
        | [], _ => exact Or.inl rfl
        | [request], _ =>
          dsimp only
          rw [List.map_singleton, seqAll, seqAll, seq_skip]
          exact announcing_handle scanner settings _ request env d w
    rw [seqAll, seqAll, ← Machine.seq_assoc, seqAll, seqAll, seq_skip, seq_snd, List.filterMap_append,
      trace_ordinary hbefore, List.nil_append]
    exact htext _

theorem trace_orderRequest {body : Except Exn String} {call : Call}
    (hcall : ∀ n, (Output.sendText n call).latchEvent = none) (w : World R) :
    (sendEncoded scanner body call w).2.filterMap Output.latchEvent = [] := by
  cases body with
  | ok body =>
    rw [List.filterMap_eq_nil_iff]
    intro o ho
    rw [List.mem_singleton.mp ho]
    exact hcall _
  | error e => rfl

/-- Only answers announce listen keys. -/
theorem trace_step {e : Event} (he : ∀ n reply arrangement env d,
    e ≠ .answer n reply arrangement env d) (w : World R) :
    (step scanner settings e w).2.filterMap Output.latchEvent = [] := by
  cases e with
  | answer n reply arrangement env d => exact absurd rfl (he n reply arrangement env d)
  | createOrder m userId body =>
    simp only [step, orderPlace]
    split
    · exact trace_orderRequest scanner (fun _ => rfl) _
    · rfl
  | modifyOrder m userId body =>
    simp only [step, orderModify]
    split
    · exact trace_orderRequest scanner (fun _ => rfl) _
    · rfl
  | cancelOrder m userId body =>
    simp only [step, orderCancel]
    split
    · exact trace_orderRequest scanner (fun _ => rfl) _
    · rfl
  | _ => exact trace_ordinary (bare_step scanner settings rfl).ordinary w

theorem announcing_step (e : Event) (w : World R) :
    Announcing ((step scanner settings e w).2.filterMap Output.latchEvent) := by
  cases e with
  | answer n reply arrangement env d =>
    exact announcing_answer scanner settings n reply arrangement env d w
  | _ => exact Or.inl (trace_step scanner settings (by simp) w)

end

end WebSocket

/-! ### The latch of an account -/

namespace Controller
open Machine.Family

/-- What is put out about the listen keys of the account and its drop copy. -/
def Output.latchEvent : Output → Option (Latch.Event String)
  | .rest o => o.latchEvent
  | .webSocket o => o.latchEvent
  | .dropCopyRemoved => some .drop
  | _ => none

def trace (out : List Output) : List (Latch.Event String) := out.filterMap Output.latchEvent

theorem trace_append (out out' : List Output) : trace (out ++ out') = trace out ++ trace out' :=
  List.filterMap_append

section
variable {R : LimitRequest} (scanner : Json.Scanner) (settings : Settings)

/-- The listen key of the account's drop copy. -/
def heldKey (s : Slice R) : Option String := s.dropCopy.map (·.listenKey)

/-- The action moves the drop copy as the latch says, and announces no listen key but the last. -/
structure Follows (f : Act R) : Prop where
  held : ∀ s, heldKey (f s).1 = (trace (f s).2).foldl Latch.step (heldKey s)
  announced : ∀ s last, Latch.Announced last (trace (f s).2)

/-- The same of everything put out so far, from a drop copy and a last listen key. -/
def Followed (held last : Option String) (out : List Output) (s : Slice R) : Prop :=
  heldKey s = (trace out).foldl Latch.step held ∧ Latch.Announced last (trace out)

theorem keeps_followed {f : Act R} (h : Follows f) (held last : Option String) :
    Keeps (Followed held last) f := by
  rintro out s ⟨hheld, hannounced⟩
  refine ⟨?_, ?_⟩
  · rw [trace_append, List.foldl_append, ← hheld, h.held]
  · rw [trace_append]
    exact Latch.announced_append.mpr ⟨hannounced, h.announced _ _⟩

theorem follows_of_keeps {f : Act R} (h : ∀ held last, Keeps (Followed held last) f) : Follows f :=
  ⟨fun s => (h (heldKey s) none [] s ⟨rfl, trivial⟩).1,
    fun s last => (h (heldKey s) last [] s ⟨rfl, trivial⟩).2⟩

/-- An action that leaves the drop copy alone and says nothing about listen keys. -/
theorem follows_of_quiet {f : Act R} (hheld : ∀ s, heldKey (f s).1 = heldKey s)
    (htrace : ∀ s, trace (f s).2 = []) : Follows f := by
  refine ⟨fun s => ?_, fun s last => ?_⟩
  · rw [htrace]
    exact hheld s
  · rw [htrace]
    trivial

theorem createDropCopyHelper_key (variant : Variant) (listenKey : String) (s : Slice R) :
    heldKey (createDropCopyHelper settings variant listenKey s).1
        = (heldKey s).or (some listenKey) ∧
      trace (createDropCopyHelper settings variant listenKey s).2 = [] := by
  unfold createDropCopyHelper
  cases hdrop : s.dropCopy with
  | none => exact ⟨by simp [heldKey, hdrop, DropCopy.step, DropCopy.create], rfl⟩
  | some d => exact ⟨by simp [heldKey, hdrop], rfl⟩

/-- The handlers of what a stream puts out, one output after the other. -/
theorem held_handlers {α : Type} {handle : α → Act R}
    (h : ∀ o s, heldKey (handle o s).1 = (trace (handle o s).2).foldl Latch.step (heldKey s)) :
    ∀ (os : List α) (s : Slice R), heldKey (seqAll (os.map handle) s).1
      = (trace (seqAll (os.map handle) s).2).foldl Latch.step (heldKey s)
  | [], _ => rfl
  | o :: os, s => by
      rw [List.map_cons, seqAll, seq_fst, seq_snd, trace_append, List.foldl_append,
        held_handlers h os, h]

theorem trace_handleRest (kind : RestStream.Kind) (o : RestStream.Output) (s : Slice R) :
    trace (handleRest settings kind o s).2 = o.latchEvent.toList := by
  cases o with
  | listenKeyUpdate listenKey =>
    rw [handleRest, seq_snd, trace_append, (createDropCopyHelper_key settings _ _ _).2]
    rfl
  | _ => rfl

theorem held_handleRest (kind : RestStream.Kind) (o : RestStream.Output) (s : Slice R) :
    heldKey (handleRest settings kind o s).1
      = (trace (handleRest settings kind o s).2).foldl Latch.step (heldKey s) := by
  rw [trace_handleRest]
  cases o with
  | listenKeyUpdate listenKey => exact (createDropCopyHelper_key settings _ _ _).1
  | _ => rfl

theorem trace_handleWebSocket (o : WebSocket.Output) (s : Slice R) :
    trace (handleWebSocket settings o s).2 = o.latchEvent.toList := by
  cases o with
  | listenKeyUpdate listenKey =>
    rw [handleWebSocket, seq_snd, trace_append, (createDropCopyHelper_key settings _ _ _).2]
    rfl
  | _ => rfl

theorem held_handleWebSocket (o : WebSocket.Output) (s : Slice R) :
    heldKey (handleWebSocket settings o s).1
      = (trace (handleWebSocket settings o s).2).foldl Latch.step (heldKey s) := by
  rw [trace_handleWebSocket]
  cases o with
  | listenKeyUpdate listenKey => exact (createDropCopyHelper_key settings _ _ _).1
  | _ => rfl

theorem trace_onRest (e : RestStream.Event) (s : Slice R) :
    trace (onRest settings e s).2 = match s.orderEntry with
      | .webSocket _ => []
      | .rest stream => RestStream.announcement stream.listenKey (stream.acknowledged e) := by
  unfold onRest
  cases s.orderEntry with
  | webSocket socket => rfl
  | rest stream =>
    dsimp only
    rw [trace, filterMap_seqAll (trace_handleRest settings stream.kind)]
    exact (RestStream.effect_step settings e ⟨stream, s.request⟩).trace_eq

theorem announced_announcement (listenKey : String) (key last : Option String) :
    Latch.Announced last (RestStream.announcement listenKey key) := by
  cases key with
  | none => trivial
  | some acked =>
    rw [RestStream.announcement]
    split <;> simp [Latch.Announced, Latch.look]

theorem follows_onRest (e : RestStream.Event) : Follows (onRest (R := R) settings e) := by
  refine ⟨fun s => ?_, fun s last => ?_⟩
  · unfold onRest
    split
    · rfl
    · exact held_handlers (held_handleRest settings _) _ _
  · rw [trace_onRest]
    cases s.orderEntry with
    | webSocket socket => trivial
    | rest stream => exact announced_announcement _ _ _

theorem announcing_onWebSocket (e : WebSocket.Event) (s : Slice R) :
    WebSocket.Announcing (trace (onWebSocket scanner settings e s).2) := by
  unfold onWebSocket
  split
  · exact Or.inl rfl
  · rw [trace, filterMap_seqAll (trace_handleWebSocket settings)]
    exact WebSocket.announcing_step scanner settings e _

theorem trace_onWebSocket {e : WebSocket.Event} (he : ∀ n reply arrangement env d,
    e ≠ .answer n reply arrangement env d) (s : Slice R) :
    trace (onWebSocket scanner settings e s).2 = [] := by
  unfold onWebSocket
  split
  · rfl
  · rw [trace, filterMap_seqAll (trace_handleWebSocket settings)]
    exact WebSocket.trace_step scanner settings he _

theorem follows_onWebSocket (e : WebSocket.Event) :
    Follows (onWebSocket (R := R) scanner settings e) := by
  refine ⟨fun s => ?_, fun s last => ?_⟩
  · unfold onWebSocket
    split
    · rfl
    · exact held_handlers (held_handleWebSocket settings) _ _
  · rcases announcing_onWebSocket scanner settings e s with htrace | ⟨listenKey, htrace⟩
    · rw [htrace]
      trivial
    · rw [htrace]
      simp [Latch.Announced, Latch.look]

theorem trace_onDropCopy (e : DropCopy.Event) (s : Slice R) :
    trace (onDropCopy settings e s).2 = [] := by
  unfold onDropCopy
  split
  · rfl
  · have hhandle : ∀ (o : DropCopy.Output) (s : Slice R),
        trace (handleDropCopy o s).2 = (none : Option (Latch.Event String)).toList := by
      intro o s
      cases o <;> rfl
    rw [trace, filterMap_seqAll hhandle]
    exact List.filterMap_eq_nil_iff.mpr fun _ _ => rfl

/-- A drop copy keeps its listen key, whatever happens to it. -/
theorem follows_onDropCopy (e : DropCopy.Event) : Follows (onDropCopy (R := R) settings e) := by
  refine follows_of_quiet (fun s => ?_) (trace_onDropCopy settings e)
  have htrace := trace_onDropCopy settings e s
  unfold onDropCopy at htrace ⊢
  cases hdrop : s.dropCopy with
  | none => rfl
  | some d =>
    rw [hdrop] at htrace
    have hhandle : ∀ (o : DropCopy.Output) (s : Slice R), heldKey (handleDropCopy o s).1
        = (trace (handleDropCopy o s).2).foldl Latch.step (heldKey s) := by
      intro o s
      cases o <;> rfl
    dsimp only at htrace ⊢
    rw [held_handlers hhandle, htrace, List.foldl_nil]
    have hkey := DropCopy.frame_step settings e ⟨d, s.request⟩
    rw [heldKey, heldKey, hdrop]
    exact congrArg some hkey

theorem trace_onDownload (e : RestStream.Event) (s : Slice R) :
    trace (onDownload settings e s).2 = [] := by
  unfold onDownload
  split
  · rfl
  · rw [trace, List.filterMap_map]
    exact List.filterMap_eq_nil_iff.mpr fun _ _ => rfl

theorem follows_onDownload (e : RestStream.Event) : Follows (onDownload (R := R) settings e) := by
  refine follows_of_quiet (fun s => ?_) (trace_onDownload settings e)
  unfold onDownload
  split <;> rfl

theorem follows_reaction (account : String) (e : Event) :
    Follows (reaction (R := R) scanner settings account e) := by
  have hquiet : ∀ e : Exn, Follows (emit [.throws e] : Act R) :=
    fun e => follows_of_quiet (fun _ => rfl) fun _ => rfl
  have hremoved : Follows (fun s : Slice R => ({ s with dropCopy := none }, [.dropCopyRemoved])) :=
    ⟨fun _ => rfl, fun s last => by simp [trace, Output.latchEvent, Latch.Announced]⟩
  have hreaped : Follows (modify fun s : Slice R => { s with zombie := false }) :=
    follows_of_quiet (fun _ => rfl) fun _ => rfl
  refine follows_of_keeps fun held last => Rules.reaction ⟨fun e => ?_, fun e => ?_, fun e => ?_,
    fun e => ?_, fun e => ?_, ?_, ?_⟩ account e
  · exact keeps_followed (follows_onRest settings e) held last
  · exact keeps_followed (follows_onWebSocket scanner settings e) held last
  · exact keeps_followed (follows_onDropCopy settings e) held last
  · exact keeps_followed (follows_onDownload settings e) held last
  · exact keeps_followed (hquiet e) held last
  · exact keeps_followed hremoved held last
  · exact keeps_followed hreaped held last

end

/-! ### What is acknowledged -/

/-- The order entry of the account has acknowledged the listen key. -/
def Acked (account listenKey : String) (out : List (String × Output)) : Prop :=
  (account, .rest (.listenKeyAck listenKey)) ∈ out ∨
    (account, .webSocket (.listenKeyAck listenKey)) ∈ out

theorem seen_mem_trace {listenKey : String} {out : List Output} : .seen listenKey ∈ trace out ↔
    .rest (.listenKeyAck listenKey) ∈ out ∨ .webSocket (.listenKeyAck listenKey) ∈ out := by
  rw [trace, List.mem_filterMap]
  constructor
  · rintro ⟨o, ho, hevent⟩
    cases o with
    | rest o =>
      cases o with
      | listenKeyAck key =>
        obtain rfl : key = listenKey := by
          simpa [Output.latchEvent, RestStream.Output.latchEvent] using hevent
        exact Or.inl ho
      | _ => simp [Output.latchEvent, RestStream.Output.latchEvent] at hevent
    | webSocket o =>
      cases o with
      | listenKeyAck key =>
        obtain rfl : key = listenKey := by
          simpa [Output.latchEvent, WebSocket.Output.latchEvent] using hevent
        exact Or.inr ho
      | _ => simp [Output.latchEvent, WebSocket.Output.latchEvent] at hevent
    | _ => simp [Output.latchEvent] at hevent
  · rintro (ho | ho)
    · exact ⟨_, ho, rfl⟩
    · exact ⟨_, ho, rfl⟩

theorem acked_iff {account listenKey : String} {out : List (String × Output)} :
    Acked account listenKey out ↔ .seen listenKey ∈ trace (output account out) := by
  rw [seen_mem_trace, Acked, mem_output, mem_output]

section
variable {R : LimitRequest} (scanner : Json.Scanner) (c : Controller) {a : Account}

/-- The account's drop copy. -/
def dropCopyOf (account : String) (s : State R × Bool) : Option DropCopy :=
  (s.1 account).bind (·.dropCopy)

/-- A listen key that the step acknowledges finds, or creates, the account's drop copy; one that is
    created uses the listen key. -/
def Served (account : String) (s : State R × Bool) (e : Event) : Prop :=
  ∀ listenKey, Acked account listenKey (mortal kills (c.step scanner) e s).2 →
    ∃ d, dropCopyOf account (mortal kills (c.step scanner) e s).1 = some d ∧
      (dropCopyOf account s = none → d.listenKey = listenKey)

/-- The step does not acknowledge a listen key to a REST account that has no drop copy, unless it is
    the first listen key of the stream. -/
def FirstKey (account : String) (s : State R × Bool) (e : Event) : Prop :=
  s.2 = false → ∀ slice stream call listenKey, s.1 account = some slice →
    slice.orderEntry = .rest stream → slice.dropCopy = none → e = .rest account call →
    RestStream.acknowledged stream call = some listenKey → stream.listenKey = "" ∧ listenKey ≠ ""

/-- Nothing is acknowledged. -/
def Mute (f : Act R) : Prop := ∀ s listenKey, .seen listenKey ∉ trace (f s).2

theorem mute_of_nil {f : Act R} (h : ∀ s, trace (f s).2 = []) : Mute f := by
  intro s listenKey
  rw [h]
  exact List.not_mem_nil

theorem mute_skip : Mute (skip : Act R) := mute_of_nil fun _ => rfl

theorem mute_seq {f g : Act R} (hf : Mute f) (hg : Mute g) : Mute (seq f g) := by
  intro s listenKey hmem
  rw [seq_snd, trace_append, List.mem_append] at hmem
  rcases hmem with hmem | hmem
  · exact hf s listenKey hmem
  · exact hg _ listenKey hmem

/-- Only answers acknowledge listen keys. -/
theorem mute_onOrderEntry (settings : Settings) {rest : RestStream.Event}
    {webSocket : WebSocket.Event} (hrest : ∀ stream, RestStream.acknowledged stream rest = none)
    (hsocket : ∀ n reply arrangement env d, webSocket ≠ .answer n reply arrangement env d) :
    Mute (onOrderEntry (R := R) scanner settings rest webSocket) := by
  refine mute_seq (mute_of_nil fun s => ?_)
    (mute_of_nil (trace_onWebSocket scanner settings hsocket))
  rw [trace_onRest]
  split
  · rfl
  next stream _ => rw [hrest stream, RestStream.announcement]

theorem mute_onRequest (settings : Settings) (q : ClientRequest) :
    Mute (onRequest (R := R) scanner settings q) := by
  intro s
  unfold onRequest
  split
  · exact mute_of_nil (f := emit _) (fun _ => rfl) s
  · refine mute_onOrderEntry scanner settings (fun stream => ?_) ?_ s
    · cases q <;> rfl
    · cases q <;> simp [ClientRequest.webSocket]
  · exact mute_of_nil (trace_onDownload settings _) s

theorem mute_reaction (settings : Settings) (account : String) {e : Event}
    (hrest : ∀ call, e ≠ .rest account call) (hsocket : ∀ call, e ≠ .webSocket account call) :
    Mute (reaction (R := R) scanner settings account e) := by
  have hall : ∀ (rest : RestStream.Event) (webSocket : WebSocket.Event) (drop : DropCopy.Event)
      (download : RestStream.Event), (∀ stream, RestStream.acknowledged stream rest = none) →
      (∀ n reply arrangement env d, webSocket ≠ .answer n reply arrangement env d) →
      Mute (R := R) (seqAll [onOrderEntry scanner settings rest webSocket, onDropCopy settings drop,
        onDownload settings download]) := fun rest webSocket drop download hrest hsocket =>
    mute_seq (mute_onOrderEntry scanner settings hrest hsocket) (mute_seq
      (mute_of_nil (trace_onDropCopy settings _)) (mute_seq
        (mute_of_nil (trace_onDownload settings _)) mute_skip))
  have hif : ∀ {p : Prop} [Decidable p] {f : Act R}, Mute f → Mute (if p then f else skip) := by
    intro p _ f hf
    split
    · exact hf
    · exact mute_skip
  cases e with
  | start => exact hall _ _ _ _ (fun _ => rfl) (by simp)
  | stop => exact hall _ _ _ _ (fun _ => rfl) (by simp)
  | timer now answers =>
    refine mute_seq (fun s => ?_) (hall _ _ _ _ (fun _ => rfl) (by simp))
    unfold reap guarded
    split
    · refine mute_seq (fun s listenKey => ?_) (mute_seq (mute_onOrderEntry scanner settings
        (fun _ => rfl) (by simp)) (mute_seq (mute_of_nil fun _ => rfl) mute_skip)) s
      simp [trace, Output.latchEvent]
    · exact mute_skip s
  | request q => exact hif (mute_onRequest scanner settings q)
  | dropCopy account' e => exact hif (mute_of_nil (trace_onDropCopy settings e))
  | download account' e => exact hif (mute_of_nil (trace_onDownload settings e))
  | rest account' e =>
    have hne : account' ≠ account := by
      rintro rfl
      exact hrest e rfl
    rw [reaction, if_neg (fun h => hne h.1)]
    exact mute_skip
  | webSocket account' e =>
    have hne : account' ≠ account := by
      rintro rfl
      exact hsocket e rfl
    rw [reaction, if_neg (fun h => hne h.1)]
    exact mute_skip

/-! ### Listen keys that create drop copies -/

theorem heldKey_eq_some {s : Slice R} {listenKey : String} :
    heldKey s = some listenKey ↔ ∃ d, s.dropCopy = some d ∧ d.listenKey = listenKey :=
  Option.map_eq_some_iff

theorem fromConnection_of_acknowledged {stream : RestStream} {call : RestStream.Event}
    {listenKey : String} (h : stream.acknowledged call = some listenKey) :
    call.fromConnection = true := by
  cases call with
  | answer n call r env d => rfl
  | _ => cases h

/-- A REST stream has acknowledged a listen key: there is a drop copy, or the listen key is the first. -/
theorem served_rest {s s' : Slice R} {listenKey acked : String}
    (hheld : heldKey s' = (RestStream.announcement listenKey (some acked)).foldl Latch.step
      (heldKey s)) :
    (∃ d, s'.dropCopy = some d ∧ (s.dropCopy = none → d.listenKey = acked))
    ↔ (s.dropCopy = none → listenKey = "" ∧ acked ≠ "") := by
  cases hdrop : s.dropCopy with
  | some d =>
    have hkey : heldKey s = some d.listenKey := by rw [heldKey, hdrop, Option.map_some]
    have hsame : heldKey s' = some d.listenKey := by
      rw [hheld, hkey, RestStream.announcement]
      split <;> rfl
    obtain ⟨d', hd', -⟩ := heldKey_eq_some.mp hsame
    exact ⟨fun _ h => by simp at h, fun _ => ⟨d', hd', fun h => by simp at h⟩⟩
  | none =>
    have hkey : heldKey s = none := by rw [heldKey, hdrop, Option.map_none]
    rw [hkey, RestStream.announcement] at hheld
    simp only [forall_const]
    rw [← heldKey_eq_some, hheld]
    split
    next hfirst => exact ⟨fun _ => hfirst, fun _ => rfl⟩
    next hlater => exact iff_of_false (by simp [Latch.step]) hlater

/-- Every listen key that the action acknowledges finds, or creates, the drop copy; one that is created
    uses the listen key. -/
def Serves (f : Act R) (s : Slice R) : Prop :=
  ∀ listenKey, .seen listenKey ∈ trace (f s).2 →
    ∃ d, (f s).1.dropCopy = some d ∧ (s.dropCopy = none → d.listenKey = listenKey)

theorem serves_of_mute {f : Act R} (h : Mute f) (s : Slice R) : Serves f s :=
  fun listenKey hmem => absurd hmem (h s listenKey)

theorem serves_onRest_iff (settings : Settings) (call : RestStream.Event) (s : Slice R) :
    Serves (onRest settings call) s
    ↔ ∀ stream listenKey, s.orderEntry = .rest stream → s.dropCopy = none →
      stream.acknowledged call = some listenKey → stream.listenKey = "" ∧ listenKey ≠ "" := by
  have hheld := (follows_onRest (R := R) settings call).held s
  unfold Serves
  rw [trace_onRest] at hheld ⊢
  cases hentry : s.orderEntry with
  | webSocket socket => exact iff_of_true (fun _ h => by cases h) fun _ _ h => by cases h
  | rest stream =>
    rw [hentry] at hheld
    dsimp only at hheld ⊢
    cases hacked : stream.acknowledged call with
    | none =>
      refine iff_of_true (fun _ h => by cases h) fun stream' listenKey h _ hsome => ?_
      cases h
      rw [hacked] at hsome
      cases hsome
    | some acked =>
      rw [hacked] at hheld
      have hseen : ∀ listenKey, .seen listenKey ∈
          RestStream.announcement stream.listenKey (some acked) ↔ listenKey = acked := by
        intro listenKey
        rw [RestStream.announcement]
        split <;> simp
      constructor
      · intro hserved stream' listenKey h hdrop hsome
        cases h
        obtain rfl := Option.some.inj (hacked.symm.trans hsome)
        exact (served_rest hheld).mp (hserved acked ((hseen acked).mpr rfl)) hdrop
      · intro hfirst listenKey hmem
        obtain rfl := (hseen listenKey).mp hmem
        exact (served_rest hheld).mpr fun hdrop => hfirst stream listenKey rfl hdrop hacked

/-- The listen key is published, so the latch holds it, or one that it held before. -/
theorem serves_onWebSocket (settings : Settings) (call : WebSocket.Event) (s : Slice R) :
    Serves (onWebSocket scanner settings call) s := by
  have hheld := (follows_onWebSocket (R := R) scanner settings call).held s
  intro listenKey hmem
  rcases announcing_onWebSocket scanner settings call s with htrace | ⟨acked, htrace⟩
  · rw [htrace] at hmem
    cases hmem
  · rw [htrace] at hheld hmem
    obtain rfl : listenKey = acked := by simpa using hmem
    cases hdrop : s.dropCopy with
    | none =>
      have hkey : heldKey s = none := by rw [heldKey, hdrop, Option.map_none]
      rw [hkey] at hheld
      obtain ⟨d, hd, hsame⟩ := heldKey_eq_some.mp hheld
      exact ⟨d, hd, fun _ => hsame⟩
    | some d =>
      have hkey : heldKey s = some d.listenKey := by rw [heldKey, hdrop, Option.map_some]
      rw [hkey] at hheld
      obtain ⟨d', hd', -⟩ := heldKey_eq_some.mp hheld
      exact ⟨d', hd', fun h => by cases h⟩

/-- What a step does with the listen keys it acknowledges, for the account's own streams. -/
theorem served_reaction (settings : Settings) (account : String) (s : Slice R) (e : Event) :
    Serves (reaction scanner settings account e) s
    ↔ ∀ stream call listenKey, s.orderEntry = .rest stream → s.dropCopy = none →
      e = .rest account call → RestStream.acknowledged stream call = some listenKey →
      stream.listenKey = "" ∧ listenKey ≠ "" := by
  by_cases hrest : ∃ call, e = .rest account call
  · obtain ⟨call, rfl⟩ := hrest
    rw [reaction]
    split
    next =>
      rw [serves_onRest_iff settings call s]
      constructor
      · intro h stream call' listenKey hstream hdrop heq
        cases heq
        exact h stream listenKey hstream hdrop
      · exact fun h stream listenKey hstream hdrop => h stream call listenKey hstream hdrop rfl
    next hcall =>
      refine iff_of_true (serves_of_mute mute_skip s) fun stream call' listenKey _ _ heq hacked => ?_
      cases heq
      exact absurd ⟨rfl, fromConnection_of_acknowledged hacked⟩ hcall
  · have hnone : ∀ call, e ≠ .rest account call := fun call heq => hrest ⟨call, heq⟩
    refine iff_of_true ?_ fun _ call _ _ _ heq => absurd heq (hnone call)
    by_cases hsocket : ∃ call, e = .webSocket account call
    · obtain ⟨call, rfl⟩ := hsocket
      rw [reaction]
      split
      · exact serves_onWebSocket scanner settings call s
      · exact serves_of_mute mute_skip s
    · exact serves_of_mute (mute_reaction scanner settings account hnone
        fun call heq => hsocket ⟨call, heq⟩) s

/-- What a step does with the listen keys it acknowledges. -/
theorem served_step (ha : a ∈ c.accounts) (e : Event) {s : State R × Bool} {slice : Slice R}
    (hs : s.1 a.name = some slice) :
    Served scanner c a.name s e ↔ FirstKey a.name s e := by
  obtain ⟨state, dead⟩ := s
  cases dead with
  | true => exact iff_of_true (fun _ h => by simp [Acked] at h) fun h => by cases h
  | false =>
    obtain ⟨hstate, hout⟩ := seen_step scanner c ha e state slice hs
    dsimp only at hs
    simp only [Served, FirstKey, acked_iff, dropCopyOf, mortal_alive, hout, hstate, hs,
      Option.bind_some]
    rw [← Serves, served_reaction scanner c.settings a.name slice e]
    constructor
    · rintro h - slice' stream call listenKey hslice
      obtain rfl := Option.some.inj hslice
      exact h stream call listenKey
    · exact fun h stream call listenKey => h trivial slice stream call listenKey rfl

/-- EXACT: every listen key that a run acknowledges for an account finds, or creates, the account's drop
    copy, exactly if no step of the run acknowledges to a REST account without a drop copy a listen key
    other than the stream's first. -/
theorem served_along_iff (ha : a ∈ c.accounts) (es : List Event) :
    (∀ pre e post, es = pre ++ e :: post →
      Served scanner c a.name (c.execute scanner pre (c.boot (R := R))).1 e)
    ↔ Along (mortal kills (c.step scanner)) (FirstKey a.name) es (c.boot (R := R)) := by
  rw [← along_iff_split]
  refine along_congr (I := fun s : State R × Bool => ∃ slice, s.1 a.name = some slice) ?_
    (fun s e hs => served_step scanner c ha e hs.choose_spec) ?_
  · rintro ⟨state, dead⟩ e ⟨slice, hs⟩
    cases dead with
    | true => exact ⟨slice, hs⟩
    | false => exact ⟨_, (seen_step scanner c ha e state slice hs).1⟩
  · obtain ⟨streamId, hs⟩ := initial_of_mem (R := R) c ha
    exact ⟨_, hs⟩

/-- The listen key that has been acknowledged last. -/
def latestKey (account : String) (out : List (String × Output)) : Option String :=
  Latch.lastSeen (trace (output account out))

/-- CORRECT: the listen key of a drop copy is the one that had been acknowledged last when the drop copy
    was created, and it is the latest as long as no other has been acknowledged since. -/
theorem dropCopy_key (ha : a ∈ c.accounts) (es : List Event) {d : DropCopy}
    (hd : dropCopyOf a.name (c.execute scanner es (c.boot (R := R))).1 = some d) :
    ∃ pre post, trace (output a.name (c.execute scanner es (c.boot (R := R))).2)
        = pre ++ .offer d.listenKey :: post ∧
      .drop ∉ post ∧ Latch.held pre = none ∧ Latch.lastSeen pre = some d.listenKey ∧
      ((∀ listenKey, .seen listenKey ∈ post → listenKey = d.listenKey) →
        latestKey a.name (c.execute scanner es (c.boot (R := R))).2 = some d.listenKey) := by
  let I : List Output → Slice R → Prop := fun out s =>
    heldKey s = Latch.held (trace out) ∧ Latch.Announced none (trace out)
  have hstep : ∀ e, Keeps I (reaction scanner c.settings a.name e) := by
    rintro e out s ⟨hheld, hannounced⟩
    have hfollows := follows_reaction (R := R) scanner c.settings a.name e
    refine ⟨?_, ?_⟩
    · rw [hfollows.held, trace_append, Latch.held_append, hheld]
    · rw [trace_append]
      exact Latch.announced_append.mpr ⟨hannounced, hfollows.announced s _⟩
  obtain ⟨s, hs, hheld, hannounced⟩ := of_execute scanner c ha hstep (fun _ => ⟨rfl, trivial⟩) es
  have hdrop : s.dropCopy = some d := by simpa [dropCopyOf, hs] using hd
  have hkey : Latch.held (trace (output a.name (c.execute scanner es (c.boot (R := R))).2))
      = some d.listenKey := by rw [← hheld, heldKey, hdrop, Option.map_some]
  obtain ⟨pre, post, htrace, hpost, hpre, hlast⟩ := Latch.held_of_announced hannounced hkey
  refine ⟨pre, post, htrace, hpost, hpre, hlast, fun hsame => ?_⟩
  rw [latestKey, htrace, Latch.lastSeen_append, hlast, List.foldl_cons]
  exact Latch.look_of_forall hsame

end

/-! ### Runs of one account -/

/-- The exchange answers a listen-key request with success. -/
def listenKeyAnswer (now : Nanos) (n : ℕ) (listenKey : String) (visits : List RestStream.State) :
    Event :=
  .rest "A1" (.answer n .listenKey (.success (.ok listenKey))
    { now, downloading := true, visits } (.knowing none))

/-- A timer on which every connection refreshes. -/
def tick (now : Nanos) : Event :=
  .timer now fun _ =>
    { orderEntryRefresh := true, dropCopyRefresh := true, downloadRefresh := true
      orderEntryGate := fun _ => true, downloadGate := fun _ => true, visits := [],
      d := .knowing none }

/-- A listen key is acquired, expires, and is refreshed after the drop copy has been removed. -/
def expired : List Event := [
  .rest "A1" (.connected [.listenKey]), listenKeyAnswer 1 0 "K1" [.done],
  .dropCopy "A1" (.text (.knowing none) (some .listenKeyExpired)), .dropCopy "A1" .disconnected,
  tick 2, tick (seconds 20), listenKeyAnswer (seconds 21) 1 "K2" []]

/-- The refreshed listen key creates no drop copy. -/
theorem expired_not_served :
    ¬ ∀ pre e post, expired = pre ++ e :: post →
      Served .standard (single false .cross) "A1"
        ((single false .cross).execute .standard pre ((single false .cross).boot (R := .simple))).1
        e := by
  intro h
  obtain ⟨d, hd, -⟩ := h (expired.take 6) (listenKeyAnswer (seconds 21) 1 "K2" []) [] rfl "K2"
    (Or.inl (by decide))
  have hnone : (dropCopyOf "A1" (mortal kills ((single false .cross).step .standard)
      (listenKeyAnswer (seconds 21) 1 "K2" [])
      ((single false .cross).execute .standard (expired.take 6)
        ((single false .cross).boot (R := .simple))).1).1).isNone = true := by decide
  rw [hd] at hnone
  cases hnone

/-- The listen key of an order entry that is a REST stream. -/
def restKey : OrderEntry → Option String
  | .rest stream => some stream.listenKey
  | .webSocket _ => none

/-- The first answer finds a stream without a listen key. -/
theorem acquired_first : FirstKey "A1" ((single false .cross).execute .standard (expired.take 1)
    ((single false .cross).boot (R := .simple))).1 (listenKeyAnswer 1 0 "K1" [.done]) := by
  intro _ slice stream call listenKey hslice hentry _ heq hacked
  have hkey : ((((single false .cross).execute .standard (expired.take 1)
      ((single false .cross).boot (R := .simple))).1.1 "A1").map fun s => restKey s.orderEntry)
      = some (some "") := by decide
  rw [hslice, Option.map_some, hentry] at hkey
  refine ⟨Option.some.inj (Option.some.inj hkey), ?_⟩
  cases heq
  simp only [RestStream.acknowledged] at hacked
  split at hacked
  · rw [← Option.some.inj hacked]
    decide
  · cases hacked

/-- The first listen key does. -/
theorem acquired_served :
    Served .standard (single false .cross) "A1"
      ((single false .cross).execute .standard (expired.take 1)
        ((single false .cross).boot (R := .simple))).1 (listenKeyAnswer 1 0 "K1" [.done]) :=
  (served_along_iff .standard (single false .cross) (List.mem_singleton_self _)
    (expired.take 2)).mpr
    ⟨fun _ _ _ _ _ _ _ _ heq hacked => (by cases heq; cases hacked), acquired_first, trivial⟩ _ _ [] rfl

/-- Its drop copy holds the listen key that was acknowledged last. -/
theorem acquired_key :
    ∃ pre post, trace (output "A1" ((single false .cross).execute .standard (expired.take 2)
        ((single false .cross).boot (R := .simple))).2) = pre ++ .offer "K1" :: post ∧
      .drop ∉ post ∧ Latch.held pre = none ∧ Latch.lastSeen pre = some "K1" ∧
      ((∀ listenKey, .seen listenKey ∈ post → listenKey = "K1") →
        latestKey "A1" ((single false .cross).execute .standard (expired.take 2)
          ((single false .cross).boot (R := .simple))).2 = some "K1") :=
  dropCopy_key (R := .simple) .standard (single false .cross) (a := ⟨"A1", .cross⟩)
    (List.mem_singleton_self _) (expired.take 2)
    (d := { variant := .classic, account := "A1", listenKey := "K1" }) rfl

/-- A listen key is acquired, and refreshed while the drop copy is there. -/
def refreshed : List Event := [
  .rest "A1" (.connected [.listenKey]), listenKeyAnswer 1 0 "K1" [.done],
  tick (seconds 2000), listenKeyAnswer (seconds 2001) 1 "K2" []]

/-- The drop copy stays with the listen key that it was created with. -/
theorem refreshed_keeps_key :
    ¬ ∀ d, dropCopyOf "A1" ((single false .cross).execute .standard refreshed
          ((single false .cross).boot (R := .simple))).1 = some d → d.stop = false →
      latestKey "A1" ((single false .cross).execute .standard refreshed
        ((single false .cross).boot (R := .simple))).2 = some d.listenKey := by
  intro h
  have hkey : (dropCopyOf "A1" ((single false .cross).execute .standard refreshed
      ((single false .cross).boot (R := .simple))).1).map (fun d => (d.listenKey, d.stop))
        = some ("K1", false) := by decide
  obtain ⟨d, hd, hkey⟩ := Option.map_eq_some_iff.mp hkey
  have hlatest : latestKey "A1" ((single false .cross).execute .standard refreshed
      ((single false .cross).boot (R := .simple))).2 = some "K2" := by decide
  obtain ⟨hkey, hstop⟩ := Prod.mk.inj hkey
  have hstay := h d hd hstop
  rw [hlatest, hkey] at hstay
  revert hstay
  decide

end Controller
end BinanceFutures
