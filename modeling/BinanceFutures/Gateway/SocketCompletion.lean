import BinanceFutures.Gateway.Blocked
import BinanceFutures.Gateway.Completion
import BinanceFutures.Gateway.SocketServing

/-! # Completion of a download over the WebSocket API

    An account that trades over the WebSocket API has three streams on its slots: the drop copy opens
    them, the socket serves the balances and the positions, and `RestTrade` serves the orders.

        GET_BALANCES, GET_POSITIONS        socket       ─▶ answered ─▶ commit
        GET_OPEN_ORDERS, GET_STALE_ORDERS  `RestTrade`  ─▶ answered ─▶ commit
        GET_TRADES                         `RestTrade`  ─▶ nothing is asked for

    An account that does not download trades gets READY as one that trades over REST does, round after
    round. An account that downloads trades never does. -/

namespace BinanceFutures
open Machine

/-- An account that trades over the WebSocket API: the order entry, the download and the drop copy, and
    the slots that they share. -/
structure SocketAccount (R : LimitRequest) where
  socket : WebSocket
  trade : RestStream
  dropCopy : DropCopy
  request : Request R

namespace SocketAccount

section
variable {R : LimitRequest} (scanner : Json.Scanner) (settings : Settings)
  (proc : Stages.Procedure DropCopy.State)

/-- The account as each of the three sees it. -/
def ws (s : SocketAccount R) : WebSocket.World R := ⟨s.socket, s.request⟩

def rest (s : SocketAccount R) : RestStream.World R := ⟨s.trade, s.request⟩

def copy (s : SocketAccount R) : DropCopy.World R := ⟨s.dropCopy, s.request⟩

inductive Turn where
  | orderEntry (e : WebSocket.Event)
  | download (e : RestStream.Event)
  | dropCopy (e : DropCopy.Event)
  /-- The controller creates a drop copy for a new listen key. -/
  | created (listenKey : String)

inductive Output where
  | orderEntry (o : WebSocket.Output)
  | download (o : RestStream.Output)
  | dropCopy (n : DropCopy.Note)

def step : Turn → Action (SocketAccount R) Output
  | .orderEntry e => fun s =>
    let (w, out) := WebSocket.step scanner settings e s.ws
    ({ s with socket := w.socket, request := w.request }, out.map .orderEntry)
  | .download e => fun s =>
    let (w, out) := RestStream.step settings e s.rest
    ({ s with trade := w.stream, request := w.request }, out.map .download)
  | .dropCopy e => fun s =>
    let (w, notes) := DropCopy.downloadTurn settings proc (.own e) s.copy
    ({ s with dropCopy := w.dropCopy, request := w.request }, notes.map .dropCopy)
  | .created listenKey => modify fun s =>
    { s with dropCopy := (DropCopy.create .classic s.socket.account listenKey s.request).dropCopy }

/-- The account as the controller creates it, with a first drop copy. -/
def create (account : String) (streamId : UInt16) (listenKey : String) : SocketAccount R where
  socket := (WebSocket.create (R := R) account streamId {}).socket
  trade := (RestStream.create (R := R) .restTrade account {}).stream
  dropCopy := (DropCopy.create (R := R) .classic account listenKey {}).dropCopy
  request := {}

/-! ### In the controller -/

/-- What the controller holds of an account that trades over the WebSocket API and has a drop copy. -/
def ofSlice (slice : Slice R) : Option (SocketAccount R) :=
  match slice.orderEntry, slice.download, slice.dropCopy with
  | .webSocket socket, some trade, some dropCopy => some ⟨socket, trade, dropCopy, slice.request⟩
  | _, _, _ => none

/-- Where there is a drop copy already, the handlers of what the order entry puts out create none. -/
theorem handlers_webSocket : ∀ (os : List WebSocket.Output) {slice : Slice R},
    slice.dropCopy ≠ none → (seqAll (os.map (Controller.handleWebSocket settings)) slice).1 = slice
  | [], _, _ => rfl
  | o :: os, slice, h => by
      obtain ⟨dropCopy, hdropCopy⟩ := Option.ne_none_iff_exists'.mp h
      have hfirst : (Controller.handleWebSocket settings o slice).1 = slice := by
        cases o <;> simp [Controller.handleWebSocket, Controller.createDropCopyHelper, hdropCopy]
      rw [List.map_cons, seqAll, seq_fst, hfirst]
      exact handlers_webSocket os h

/-- The controller's streams take their turns as the account does. -/
theorem ofSlice_onWebSocket (e : WebSocket.Event) {slice : Slice R} {s : SocketAccount R}
    (h : ofSlice slice = some s) :
    ofSlice (Controller.onWebSocket scanner settings e slice).1
      = some (step scanner settings proc (.orderEntry e) s).1 := by
  unfold ofSlice at h
  split at h
  next socket trade dropCopy hsocket htrade hdropCopy =>
    obtain rfl := Option.some.inj h
    unfold Controller.onWebSocket
    rw [hsocket]
    dsimp only
    rw [handlers_webSocket settings _ (by simp [hdropCopy])]
    simp only [ofSlice, hdropCopy, htrade]
    rfl
  next => cases h

theorem ofSlice_onDownload (e : RestStream.Event) {slice : Slice R} {s : SocketAccount R}
    (h : ofSlice slice = some s) :
    ofSlice (Controller.onDownload settings e slice).1
      = some (step scanner settings proc (.download e) s).1 := by
  unfold ofSlice at h
  split at h
  next socket trade dropCopy hsocket htrade hdropCopy =>
    obtain rfl := Option.some.inj h
    unfold Controller.onDownload
    rw [htrade]
    simp only [ofSlice, hdropCopy, hsocket]
    rfl
  next => cases h

/-- So does its drop copy, with what its download answers. -/
theorem ofSlice_onDropCopy {e e' : DropCopy.Event} {slice : Slice R} {s : SocketAccount R}
    (h : ofSlice slice = some s)
    (he : (DropCopy.Turn.own e).calling (DropCopy.visits settings proc s.copy (.own e)) = .own e') :
    ofSlice (Controller.onDropCopy settings e' slice).1
      = some (step scanner settings proc (.dropCopy e) s).1 := by
  unfold ofSlice at h
  split at h
  next socket trade dropCopy hsocket htrade hdropCopy =>
    obtain rfl := Option.some.inj h
    unfold Controller.onDropCopy
    rw [hdropCopy]
    dsimp only
    rw [Controller.handlers_dropCopy]
    simp only [ofSlice, hsocket, htrade, step, DropCopy.downloadTurn, he]
    rfl
  next => cases h

/-- The controller creates a drop copy as the account does. -/
theorem ofSlice_created (listenKey : String) {slice : Slice R} {s : SocketAccount R}
    (hsocket : slice.orderEntry = .webSocket s.socket) (htrade : slice.download = some s.trade)
    (hnone : slice.dropCopy = none) (hrequest : slice.request = s.request)
    (haccount : slice.account.name = s.socket.account) :
    ofSlice (Controller.createDropCopyHelper settings .classic listenKey slice).1
      = some (step scanner settings proc (.created listenKey) s).1 := by
  simp only [Controller.createDropCopyHelper, hnone, ofSlice, hsocket, htrade, hrequest, haccount]
  rfl

/-! ### What is put out -/

def Output.socket? : Output → Option WebSocket.Output
  | .orderEntry o => some o
  | _ => none

def Output.rest? : Output → Option RestStream.Output
  | .download o => some o
  | _ => none

/-- What the order entry has put out. -/
def sockets (out : List Output) : List WebSocket.Output := out.filterMap Output.socket?

/-- What the download has put out. -/
def rests (out : List Output) : List RestStream.Output := out.filterMap Output.rest?

theorem sockets_download (out : List Output) (os : List RestStream.Output) :
    sockets (out ++ os.map .download) = sockets out :=
  filterMap_other Output.socket? (fun _ => rfl) out os

theorem sockets_dropCopy (out : List Output) (notes : List DropCopy.Note) :
    sockets (out ++ notes.map .dropCopy) = sockets out :=
  filterMap_other Output.socket? (fun _ => rfl) out notes

theorem rests_orderEntry (out : List Output) (os : List WebSocket.Output) :
    rests (out ++ os.map .orderEntry) = rests out :=
  filterMap_other Output.rest? (fun _ => rfl) out os

theorem rests_dropCopy (out : List Output) (notes : List DropCopy.Note) :
    rests (out ++ notes.map .dropCopy) = rests out :=
  filterMap_other Output.rest? (fun _ => rfl) out notes

theorem sockets_orderEntry (out : List Output) (os : List WebSocket.Output) :
    sockets (out ++ os.map .orderEntry) = sockets out ++ os :=
  filterMap_own Output.socket? (fun _ => rfl) out os

theorem rests_download (out : List Output) (os : List RestStream.Output) :
    rests (out ++ os.map .download) = rests out ++ os :=
  filterMap_own Output.rest? (fun _ => rfl) out os

/-! ### Turns and the slots of others -/

variable {out : List Output} {s : SocketAccount R} {m : ℕ}

/-- What the order entry serves the download does not. -/
theorem not_served_by_both {c : Slot} (hc : c ∈ RestStream.Kind.restTrade.slots) :
    c ∉ WebSocket.slots := by
  cases c <;> revert hc <;> decide

/-- The requests of the session are known. -/
abbrev Known (out : List Output) (s : SocketAccount R) : Prop :=
  WebSocket.Correlated scanner settings [] (sockets out) s.ws

variable {scanner settings proc}

variable (proc) in
theorem known_step (e : Turn) (h : Known scanner settings out s) :
    Known scanner settings (out ++ (step scanner settings proc e s).2)
      (step scanner settings proc e s).1 := by
  cases e with
  | orderEntry e =>
    simp only [step, Known, sockets_orderEntry]
    exact WebSocket.correlated_step scanner settings e _ _ h
  | download e =>
    simp only [step, Known, sockets_download]
    exact ⟨h.agrees, h.packed⟩
  | dropCopy e =>
    simp only [step, Known, sockets_dropCopy]
    exact ⟨h.agrees, h.packed⟩
  | created listenKey =>
    simp only [step, modify_apply, List.append_nil]
    exact ⟨h.agrees, h.packed⟩

/-- An open slot stays open while the streams that serve the slots take their turns. -/
theorem opened_orderEntry (hserves : R.Serves) (h : Known scanner settings out s) (e : WebSocket.Event)
    (c : Slot) (hopened : s.request.Opened c) :
    (WebSocket.step scanner settings e s.ws).1.request.Opened c :=
  (WebSocket.follows_opened hserves c).step e h (fun _ => hopened) hopened

theorem opened_download (hserves : R.Serves) (e : RestStream.Event) (c : Slot)
    (hopened : s.request.Opened c) : (RestStream.step settings e s.rest).1.request.Opened c :=
  ((RestStream.follows_openAt hserves s.trade.kind c).step settings e [] s.rest ⟨rfl, hopened⟩).2

/-! ### Accounts that download trades -/

variable (scanner settings proc)

/-- The drop copy does not become ready, and has not said so. -/
structure Blocked (out : List Output) (s : SocketAccount R) : Prop where
  known : Known scanner settings out s
  kind_eq : s.trade.kind = .restTrade
  barred : DropCopy.Barred [] s.copy
  never : ∀ reason, .dropCopy (.out (.streamStatus .ready reason)) ∉ out

variable {scanner settings proc}

variable (proc) in
theorem blocked_step (hclears : R.Clears) (hwants : DropCopy.wantsTrades settings = true) (e : Turn)
    (h : Blocked scanner settings out s) :
    Blocked scanner settings (out ++ (step scanner settings proc e s).2)
      (step scanner settings proc e s).1 := by
  have hknown := known_step proc e h.known
  -- the others do not say that the drop copy is ready, and leave the trades without a response
  have hothers : ∀ {α : Type} {f : α → Output} {os : List α} {s' : SocketAccount R},
      (∀ a reason, f a ≠ .dropCopy (.out (.streamStatus .ready reason))) →
      s'.dropCopy = s.dropCopy → s'.trade.kind = .restTrade →
      (s.request.hasResponse .trades = false → s'.request.hasResponse .trades = false) →
      Known scanner settings (out ++ os.map f) s' →
      Blocked scanner settings (out ++ os.map f) s' := by
    intro α f os s' hf hdropCopy hkind hresponse hknown
    refine ⟨hknown, hkind, ⟨?_, ?_, by simp, fun heq => ?_⟩, fun reason hmem => ?_⟩
    · exact (congrArg DropCopy.variant hdropCopy).trans h.barred.variant_eq
    · exact (congrArg DropCopy.connectionStatus hdropCopy) ▸ h.barred.status
    · have hstate : s.dropCopy.downloadState = .getTrades := hdropCopy ▸ heq
      exact hresponse (h.barred.unanswered hstate)
    · rcases List.mem_append.mp hmem with hbefore | hnow
      · exact h.never reason hbefore
      · obtain ⟨a, -, heq⟩ := List.mem_map.mp hnow
        exact hf a reason heq
  cases e with
  | orderEntry e =>
    refine hothers (by simp) rfl h.kind_eq (fun hresponse => ?_) hknown
    have hslot := WebSocket.slot_step (c := .trades) e (by decide) h.known
    unfold Request.hasResponse at hresponse ⊢
    rw [← hresponse]
    exact congrArg R.hasResponse hslot
  | download e =>
    refine hothers (by simp) rfl ?_ (fun hresponse => ?_) hknown
    · exact (RestStream.kind_step settings e s.rest).trans h.kind_eq
    · exact ((RestStream.follows_unanswered hclears).step settings e [] s.rest ⟨h.kind_eq, hresponse⟩).2
  | dropCopy e =>
    have hturn := DropCopy.barred_turn proc hclears hwants e h.barred
    refine ⟨hknown, h.kind_eq, ⟨hturn.variant_eq, hturn.status, by simp, hturn.unanswered⟩, ?_⟩
    intro reason hmem
    rcases List.mem_append.mp hmem with hbefore | hnow
    · exact h.never reason hbefore
    · obtain ⟨n, hn, heq⟩ := List.mem_map.mp hnow
      obtain rfl := Output.dropCopy.inj heq
      rcases List.mem_cons.mp hn with hfirst | hout
      · cases hfirst
      · obtain ⟨o, ho, heq⟩ := List.mem_map.mp hout
        obtain rfl := DropCopy.Note.out.inj heq
        exact hturn.never reason ho
  | created listenKey =>
    simp only [step, modify_apply, List.append_nil]
    exact ⟨h.known, h.kind_eq, ⟨rfl, nofun, by simp, nofun⟩, h.never⟩

/-! ### Rounds -/

variable (scanner settings proc)

/-- The process does not end, the session does not end on a slot in flight, and every callback of a slot
    asks for something. -/
def Fine (s : SocketAccount R) : Turn → Prop
  | .orderEntry e => WebSocket.Idle (s.ws, false) (.own e)
  | .download e => RestStream.Output.fatal ∉ (RestStream.step settings e s.rest).2 ∧
      RestStream.Issues settings (s.rest, false) (.own e)
  | _ => True

/-- The drop copy stays, and so does its connection. -/
def Turn.calm : Turn → Bool
  | .orderEntry _ | .download _ => true
  | .dropCopy e => e.calm
  | .created _ => false

/-- A timer of the stream that serves the slot, when the stream is ready and lets the slot through. -/
def Turn.serves (s : SocketAccount R) (c : Slot) : Turn → Prop
  | .orderEntry (.timer _ true gate) =>
    WebSocket.isReady s.ws = true ∧ c ∈ WebSocket.slots ∧ gate c = true
  | .download (.timer _ true gate _) =>
    RestStream.isReady s.rest = true ∧ c ∈ RestStream.Kind.restTrade.slots ∧ gate c = true
  | _ => False

/-- The slot that the download waits for is served; what the streams have asked for by then is answered;
    the drop copy looks at its slots. -/
def Round (es : List Turn) (s : SocketAccount R) : Prop :=
  ∃ before e answers now d vs after,
    es = before ++ e :: (answers ++ .dropCopy (.timer now true d vs) :: after) ∧
    let served := (run (step scanner settings proc) before s).1
    let asked := (step scanner settings proc e served).1
    let answered := (run (step scanner settings proc) answers asked).1
    (∀ c ∈ served.dropCopy.downloadState.slot, e.serves served c) ∧
      (∀ x ∈ asked.socket.calls.entries, x ∉ answered.socket.calls.entries) ∧
      ∀ x ∈ asked.trade.calls.entries, x ∉ answered.trade.calls.entries

/-! ### What is kept -/

/-- What every turn keeps. -/
structure Inv (out : List Output) (s : SocketAccount R) : Prop where
  socket : WebSocket.Sound scanner settings (sockets out) s.ws
  trade : RestStream.Sound .restTrade none (rests out) s.rest
  live : DropCopy.Live s.copy

theorem inv_create (account : String) (streamId : UInt16) (listenKey : String) :
    Inv scanner settings [] (create (R := R) account streamId listenKey) where
  socket := ⟨WebSocket.correlated_create scanner settings account streamId {}, fun c _ _ hflight => by
    simp [create, ws] at hflight⟩
  trade := RestStream.sound_create _ _
  live := ⟨rfl, nofun⟩

variable {scanner settings proc}

variable (proc) in
theorem inv_step (hserves : R.Serves) {e : Turn} (h : Inv scanner settings out s)
    (hfine : Fine settings s e) :
    Inv scanner settings (out ++ (step scanner settings proc e s).2)
      (step scanner settings proc e s).1 := by
  have hknown := known_step proc e h.socket.correlated
  cases e with
  | orderEntry e =>
    refine ⟨?_, ?_, h.live.others rfl (opened_orderEntry hserves h.socket.correlated e)⟩
    · simp only [step, sockets_orderEntry]
      exact WebSocket.sound_turn scanner settings (.own e) h.socket hfine
    · simp only [step, rests_orderEntry]
      refine RestStream.sound_of_request h.trade fun c hc => ?_
      exact congrArg R.inFlight (WebSocket.slot_step e (not_served_by_both hc) h.socket.correlated)
  | download e =>
    refine ⟨⟨hknown, fun c hc howed hflight => ?_⟩, ?_, h.live.others rfl (opened_download hserves e)⟩
    · -- the download does not put the slots of the order entry in flight
      have hother : c ∉ s.rest.stream.kind.slots := by
        rw [h.trade.kind_eq]
        exact fun hboth => not_served_by_both hboth hc
      exact h.socket.waits c hc howed (RestStream.inFlight_step settings e hother hflight)
    · simp only [step, rests_download]
      exact (RestStream.turn_sound settings (.own e) h.trade hfine.2).resolve_left hfine.1
  | dropCopy e =>
    have hflies := congrFun (DropCopy.inFlight_turn settings proc e s.copy)
    refine ⟨⟨hknown, fun c hc howed hflight => ?_⟩, ?_, DropCopy.live_turn settings proc hserves e h.live⟩
    · exact h.socket.waits c hc howed ((hflies c).symm.trans hflight)
    · simp only [step, rests_dropCopy]
      exact RestStream.sound_of_request h.trade fun c _ => hflies c
  | created listenKey =>
    refine ⟨⟨hknown, ?_⟩, ?_, rfl, nofun⟩
    · exact h.socket.waits
    · simp only [step, modify_apply, List.append_nil]
      exact h.trade

/-! ### Within a round -/

/-- A calm turn does not set the download back. -/
theorem arrived_step (hserves : R.Serves) {e : Turn} (hcalm : e.calm = true)
    (hknown : Known scanner settings out s)
    (h : DropCopy.Arrived ((DropCopy.states .classic).drop m) s.copy) :
    DropCopy.Arrived ((DropCopy.states .classic).drop m) (step scanner settings proc e s).1.copy := by
  cases e with
  | created listenKey => cases hcalm
  | orderEntry e => exact h.others rfl (opened_orderEntry hserves hknown e)
  | download e => exact h.others rfl (opened_download hserves e)
  | dropCopy e => exact DropCopy.arrived_turn settings proc hserves hcalm h

/-- The slot is held by the stream that serves it. -/
def Held (c : Slot) (ns : List ℕ) (calls : Ledger WebSocket.Sent) (out : List Output)
    (s : SocketAccount R) : Prop :=
  c ∈ WebSocket.slots ∧ WebSocket.Held c calls s.ws ∨
    c ∈ RestStream.Kind.restTrade.slots ∧ RestStream.Held c ns (rests out) s.rest

theorem held_orderEntry (hserves : R.Serves) {c : Slot} {ns : List ℕ} {calls : Ledger WebSocket.Sent}
    {e : WebSocket.Event} (hknown : Known scanner settings out s)
    (hfine : Fine settings s (.orderEntry e)) (h : Held c ns calls out s) :
    Held c ns calls (out ++ (step scanner settings proc (.orderEntry e) s).2)
      (step scanner settings proc (.orderEntry e) s).1 := by
  rcases h with ⟨hc, hheld⟩ | ⟨hc, hheld⟩
  · refine Or.inl ⟨hc, WebSocket.held_step hserves hc e hknown ?_ hheld⟩
    rintro rfl
    exact hfine rfl
  · refine Or.inr ⟨hc, ?_⟩
    have hslot : (step scanner settings proc (.orderEntry e) s).1.request.slot c = s.request.slot c :=
      WebSocket.slot_step e (not_served_by_both hc) hknown
    simp only [step, rests_orderEntry] at hslot ⊢
    unfold RestStream.Held Request.hasResponse Request.inFlight rest at hheld ⊢
    rwa [hslot]

theorem held_download (hserves : R.Serves) {c : Slot} {ns : List ℕ} {calls : Ledger WebSocket.Sent}
    {e : RestStream.Event} (hkind : s.trade.kind = .restTrade) (h : Held c ns calls out s) :
    Held c ns calls (out ++ (step scanner settings proc (.download e) s).2)
      (step scanner settings proc (.download e) s).1 := by
  have hstep : ∀ {ns}, RestStream.Held c ns (rests out) s.rest →
      RestStream.Held c ns (rests out ++ (RestStream.step settings e s.rest).2)
        (RestStream.step settings e s.rest).1 := fun hheld =>
    ((RestStream.follows_held hserves .restTrade c _).step settings e _ s.rest ⟨hkind, hheld⟩).2
  rcases h with ⟨hc, hresponse | ⟨hflight, hentry⟩⟩ | ⟨hc, hheld⟩
  · exact Or.inl ⟨hc, Or.inl (RestStream.response_step settings hserves e hresponse)⟩
  · -- the session is not the download's
    refine Or.inl ⟨hc, ?_⟩
    exact (hstep (Or.inr ⟨hflight, rfl⟩)).imp_right fun hafter => ⟨hafter.1, hentry⟩
  · refine Or.inr ⟨hc, ?_⟩
    simp only [step, rests_download]
    exact hstep hheld

variable (scanner settings proc)

/-- The download has gone on to the states, or waits in the state for its slot, which is held since the
    calls of the two streams were these. -/
structure Served (m : ℕ) (state : DropCopy.State) (c : Slot) (ns : List ℕ)
    (session : Ledger WebSocket.Sent) (calls : Ledger RestStream.Call) (out : List Output)
    (s : SocketAccount R) : Prop where
  inv : Inv scanner settings out s
  later : RestStream.Later calls s.trade.calls
  either : DropCopy.Arrived ((DropCopy.states .classic).drop m) s.copy ∨
    DropCopy.Waits [state] s.copy ∧ Held c ns session out s

variable {scanner settings proc}

theorem served_step (hserves : R.Serves) {state : DropCopy.State} {c : Slot} {ns : List ℕ}
    {session : Ledger WebSocket.Sent} {calls : Ledger RestStream.Call} (hslot : state.slot = some c)
    (hstate : state ∈ DropCopy.states .classic)
    (hbehind : DropCopy.behind state ⊆ (DropCopy.states .classic).drop m) {e : Turn}
    (h : Served scanner settings m state c ns session calls out s) (hfine : Fine settings s e)
    (hcalm : e.calm = true) :
    Served scanner settings m state c ns session calls (out ++ (step scanner settings proc e s).2)
      (step scanner settings proc e s).1 := by
  have hinv := inv_step proc hserves h.inv hfine
  have hknown := h.inv.socket.correlated
  refine ⟨hinv, ?_, ?_⟩
  · cases e with
    | download e => exact h.later.trans (RestStream.later_step settings e s.rest)
    | orderEntry | dropCopy | created => exact h.later
  · rcases h.either with harrived | ⟨hwaits, hheld⟩
    · exact Or.inl (arrived_step hserves hcalm hknown harrived)
    · cases e with
      | created => cases hcalm
      | orderEntry e =>
        exact Or.inr ⟨hwaits.others rfl (opened_orderEntry hserves hknown e),
          held_orderEntry hserves hknown hfine hheld⟩
      | download e =>
        exact Or.inr ⟨hwaits.others rfl (opened_download hserves e),
          held_download hserves h.inv.trade.kind_eq hheld⟩
      | dropCopy e =>
        have hturn := DropCopy.waits_turn settings proc hserves hcalm hslot hstate h.inv.live.1 hwaits
        split at hturn
        · exact Or.inl (hturn.mono hbehind)
        · refine Or.inr ⟨hwaits.same hturn, ?_⟩
          have hrequest : (DropCopy.downloadTurn settings proc (.own e) s.copy).1.request = s.request :=
            hturn.request_eq
          simp only [step, Held, rests_dropCopy]
          unfold Held WebSocket.Held RestStream.Held ws rest at hheld
          unfold WebSocket.Held RestStream.Held ws rest
          rwa [hrequest]

/-- When what was outstanding then has been answered, the slot has a response. -/
theorem Served.answered {state : DropCopy.State} {c : Slot} {ns : List ℕ}
    {session : Ledger WebSocket.Sent} {calls : Ledger RestStream.Call}
    (h : Served scanner settings m state c ns session calls out s) (hnumbers : ∀ n ∈ ns, n < calls.next)
    (hsession : ∀ e ∈ session.entries, e ∉ s.socket.calls.entries)
    (hcalls : ∀ e ∈ calls.entries, e ∉ s.trade.calls.entries) :
    DropCopy.Arrived ((DropCopy.states .classic).drop m) s.copy ∨
      DropCopy.Waits [state] s.copy ∧ s.request.hasResponse c = true := by
  rcases h.either with harrived | ⟨hwaits, ⟨-, hheld⟩ | ⟨hc, hresponse | ⟨hflight, hbatch⟩⟩⟩
  · exact Or.inl harrived
  · exact Or.inr ⟨hwaits, hheld.answered hsession⟩
  · exact Or.inr ⟨hwaits, hresponse⟩
  · -- a slot in flight waits for an answer to its batch, and the batch has been answered
    obtain ⟨n, hn, call, hmem⟩ := h.inv.trade.waits c hc nofun hflight
    rcases h.later.old _ hmem with hold | hnew
    · exact absurd hmem (hcalls _ hold)
    · exact absurd (hnumbers n (hbatch ▸ hn)) (Nat.not_lt.mpr hnew)

variable (proc) in
/-- A timer of the stream that serves the slot holds it. -/
theorem held_serves (hserves : R.Serves) {e : Turn} {c : Slot} (h : Inv scanner settings out s)
    (hfine : Fine settings s e) (hopened : s.request.Opened c) (hserved : e.serves s c) :
    let s' := (step scanner settings proc e s).1
    ∃ ns, (∀ n ∈ ns, n < s'.trade.calls.next) ∧
      Held c ns s'.socket.calls (out ++ (step scanner settings proc e s).2) s' := by
  intro s'
  have hafter := inv_step proc hserves h hfine
  cases e with
  | orderEntry e =>
    cases e with
    | timer now refresh gate =>
      cases refresh with
      | false => cases hserved
      | true =>
        obtain ⟨hready, hc, hgate⟩ := hserved
        refine ⟨[], by simp, Or.inl ⟨hc, ?_⟩⟩
        exact WebSocket.held_timer scanner settings hserves now hc hgate h.socket hopened hready
    | _ => cases hserved
  | download e =>
    cases e with
    | timer now refresh gate d =>
      cases refresh with
      | false => cases hserved
      | true =>
        obtain ⟨hready, hc, hgate⟩ := hserved
        obtain ⟨ns, hheld⟩ := RestStream.holding_timer settings hserves now d hgate hc
          (show RestStream.Of .restTrade _ (rests out) s.rest from ⟨h.trade.kind_eq, hopened⟩) hready
        rw [← rests_download] at hheld
        rcases hheld with hresponse | ⟨hflight, hbatch⟩
        · exact ⟨[], by simp, Or.inr ⟨hc, Or.inl hresponse⟩⟩
        · refine ⟨ns, fun n hn => ?_, Or.inr ⟨hc, Or.inr ⟨hflight, hbatch⟩⟩⟩
          exact hafter.trade.old c n (hbatch ▸ hn)
    | _ => cases hserved
  | dropCopy | created => cases hserved

variable (proc) in
theorem waits_serves (hserves : R.Serves) {e : Turn} {c : Slot} {ss : List DropCopy.State}
    (hknown : Known scanner settings out s) (hserved : e.serves s c) (h : DropCopy.Waits ss s.copy) :
    DropCopy.Waits ss (step scanner settings proc e s).1.copy := by
  cases e with
  | orderEntry e => exact h.others rfl (opened_orderEntry hserves hknown e)
  | download e => exact h.others rfl (opened_download hserves e)
  | dropCopy | created => cases hserved

variable (scanner settings proc)

/-- How far the download has come. -/
def Reached (m : ℕ) (out : List Output) (s : SocketAccount R) : Prop :=
  Inv scanner settings out s ∧ DropCopy.Arrived ((DropCopy.states .classic).drop m) s.copy

variable {scanner settings proc}

theorem reached_step (hserves : R.Serves) (out : List Output) (s : SocketAccount R) (e : Turn)
    (h : Reached scanner settings m out s) (hC : Fine settings s e ∧ e.calm = true) :
    Reached scanner settings m (out ++ (step scanner settings proc e s).2)
      (step scanner settings proc e s).1 :=
  ⟨inv_step proc hserves h.1 hC.1, arrived_step hserves hC.2 h.1.socket.correlated h.2⟩

/-- A round brings the download one state on. -/
theorem reached_round (hserves : R.Serves) {es : List Turn} (h : Reached scanner settings m out s)
    (hround : Round scanner settings proc es s)
    (hes : Along (step scanner settings proc) (fun s e => Fine settings s e ∧ e.calm = true) es s) :
    Reached scanner settings (m + 1) (out ++ (run (step scanner settings proc) es s).2)
      (run (step scanner settings proc) es s).1 := by
  obtain ⟨before, e, answers, now, d, vs, after, rfl, hserved, hsession, hcalls⟩ := hround
  refine along_round (reached_step hserves) (reached_step hserves) ?_ h hes
  intro s₁ s₂ out₁ hreached hserve
  obtain ⟨hinv, hclassic, hdone | hwaits⟩ := hreached
  · -- nothing is left to be done
    exact Or.inl ⟨hinv, hclassic, Or.inl hdone⟩
  · have hstate : s₁.copy.dropCopy.downloadState ∈ DropCopy.states .classic :=
      List.drop_subset _ _ hwaits.state_mem
    have hbehind := DropCopy.behind_drop hwaits.state_mem
    obtain ⟨c, hslot, hopened⟩ := hwaits.opened
    obtain ⟨ns, hnumbers, hheld⟩ := held_serves proc hserves hinv hserve.1 hopened (hserved c hslot)
    have hhere : DropCopy.Waits [s₁.copy.dropCopy.downloadState] s₁.copy :=
      ⟨hwaits.status_eq, hwaits.waiting_eq, List.mem_singleton_self _, hwaits.opened⟩
    have hwaits' := waits_serves proc hserves hinv.socket.correlated (hserved c hslot) hhere
    have hbegun : Served scanner settings (m + 1) s₁.copy.dropCopy.downloadState c ns
        (step scanner settings proc e s₁).1.socket.calls (step scanner settings proc e s₁).1.trade.calls
        (out₁ ++ (step scanner settings proc e s₁).2) (step scanner settings proc e s₁).1 :=
      ⟨inv_step proc hserves hinv hserve.1, RestStream.later_refl _, Or.inr ⟨hwaits', hheld⟩⟩
    refine Or.inr ⟨_, fun out s e h hC => served_step hserves hslot hstate hbehind h hC.1 hC.2,
      hbegun, ?_⟩
    intro out₂ hkept hlook
    have hresponse := hkept.answered hnumbers hsession hcalls
    exact ⟨inv_step proc hserves hkept.inv hlook.1,
      DropCopy.arrived_look settings proc hserves hslot hstate hbehind now d vs hkept.inv.live.1
        hresponse⟩

end

/-- CORRECT: where trades are downloaded, the drop copy of an account that trades over the WebSocket API
    never becomes ready, whatever happens to the account: the slot of the trades gets no response. -/
theorem blocked_run {R : LimitRequest} (hclears : R.Clears) (scanner : Json.Scanner) (settings : Settings)
    (proc : Stages.Procedure DropCopy.State) (account : String) (streamId : UInt16) (listenKey : String)
    (hwants : DropCopy.wantsTrades settings = true) (es : List Turn) :
    let s := run (step scanner settings proc) es (create (R := R) account streamId listenKey)
    s.1.dropCopy.connectionStatus ≠ .ready ∧
      ∀ reason, .dropCopy (.out (.streamStatus .ready reason)) ∉ s.2 := by
  intro s
  have hinit : Blocked scanner settings []
      (create (R := R) account streamId listenKey) :=
    ⟨WebSocket.correlated_create scanner settings account streamId {}, rfl,
      ⟨rfl, nofun, by simp, nofun⟩, by simp⟩
  have hrun := keeps_run (fun e out s h => blocked_step proc hclears hwants e h) es [] _ hinit
  exact ⟨hrun.barred.status, by simpa using hrun.never⟩

/-- CORRECT: once the download of the drop copy of an account that trades over the WebSocket API is under
    way, five rounds bring the drop copy to READY, whatever else happens to the account in between, as
    long as the process goes on, no session ends on a slot in flight, and no slot is served in vain. -/
theorem ready_after_rounds {R : LimitRequest} (hserves : R.Serves) (scanner : Json.Scanner)
    (settings : Settings) (proc : Stages.Procedure DropCopy.State) (account : String) (streamId : UInt16)
    (listenKey : String) (before after : List Turn) {k : ℕ} (hk : 5 ≤ k)
    (hfine : Along (step (R := R) scanner settings proc) (Fine settings) (before ++ after)
      (create account streamId listenKey)) :
    let s := (run (step (R := R) scanner settings proc) before (create account streamId listenKey)).1
    s.dropCopy.waiting = true → (∀ e ∈ after, e.calm = true) →
      Rounds (step scanner settings proc) (Round scanner settings proc) k after s →
        (run (step scanner settings proc) after s).1.dropCopy.connectionStatus = .ready := by
  intro s hwaiting hcalm hrounds
  obtain ⟨hbefore, hafter⟩ := along_append.mp hfine
  have hinv := keeps_along (fun out s e h hC => inv_step proc hserves h hC)
    (inv_create (R := R) scanner settings account streamId listenKey) hbefore
  rw [List.nil_append] at hinv
  have hstart : Reached scanner settings 0
      (run (step scanner settings proc) before (create account streamId listenKey)).2 s :=
    ⟨hinv, hinv.live.1, Or.inr (hinv.live.2 hwaiting)⟩
  have hlast := rounds_climb (fun h hround hes => reached_round hserves h hround hes) hstart hrounds
    (along_mem hafter hcalm)
  exact hlast.2.ready (by omega)

/-- A successful answer of the exchange to the `n`-th request of the session. -/
def success (n : ℕ) (result : Json.Result) (visits : List WebSocket.State) : Turn :=
  .orderEntry (.answer n ⟨200, .result result⟩ WebSocket.inOrder
    { now := 1, nowUtc := 1, downloading := true, visits, allowUnknownEventTypes := false }
    (.knowing none))

/-- The order entry logs on and gets a listen key, the download is connected, and the drop copy begins. -/
def begun : List Turn := [
  .orderEntry (.ready [.sessionLogon]),
  success 0 {} [.userDataStreamStart],
  success 1 { listenKey := "key" } [.accountPosition, .done],
  success 2 {} [],
  .created "key",
  .download (.connected []),
  .dropCopy (.ready 2 [])]

/-- A timer of the drop copy. -/
def looking (now : Nanos) : Turn := .dropCopy (.timer now true (.knowing none) [])

/-- A timer of the download. -/
def downloadTimer (now : Nanos) : Turn := .download (.timer now true (fun _ => true) (.knowing none))

/-- A round in which the order entry is answered. -/
def sessionRound (now : Nanos) (n : ℕ) : List Turn :=
  [.orderEntry (.timer now true fun _ => true), success n {} [], looking now]

/-- A round in which the open orders are answered. -/
def ordersRound (now : Nanos) : List Turn := [
  downloadTimer now,
  .download (.answer 0 .openOrders (.success (.ok [])) { now, downloading := false, visits := [] }
    (.knowing none)),
  looking now]

/-- A round in which nothing is asked for. -/
def restingRound (now : Nanos) : List Turn := [downloadTimer now, looking now]

def fiveRounds : List Turn :=
  sessionRound 3 3 ++ (sessionRound 4 4 ++ (ordersRound 5 ++ (restingRound 6 ++ (restingRound 7 ++ []))))

theorem blocked_fiveRounds :
    let s := run (step (R := .simple) .standard RestAccount.downloading .standard) (begun ++ fiveRounds)
      (create "A1" 1 "")
    s.1.dropCopy.connectionStatus ≠ .ready ∧
      ∀ reason, .dropCopy (.out (.streamStatus .ready reason)) ∉ s.2 :=
  blocked_run LimitRequest.simple_clears .standard RestAccount.downloading .standard "A1" 1 ""
    (by decide) _

/-- The drop copy waits for the trades. -/
example : (run (step (R := .simple) .standard RestAccount.downloading .standard) (begun ++ fiveRounds)
    (create "A1" 1 "")).1.dropCopy.downloadState = .getTrades := by
  decide +kernel

theorem ready_after_five :
    (run (step (R := .simple) .standard {} .standard) fiveRounds
      (run (step (R := .simple) .standard {} .standard) begun (create "A1" 1 "")).1).1.dropCopy.connectionStatus
      = .ready := by
  refine ready_after_rounds LimitRequest.simple_serves .standard {} .standard "A1" 1 "" begun fiveRounds
    (Nat.le_refl 5) ?_ (by decide +kernel) (by decide) ?_
  · have htimer : ∀ {s : SocketAccount .simple} {now : Nanos},
        s.request.served .staleOrders now true = false → s.request.served .trades now true = false →
        RestStream.Output.fatal ∉ (RestStream.step {} (.timer now true (fun _ => true) (.knowing none))
          s.rest).2 → Fine {} s (downloadTimer now) :=
      fun hstale htrades hfatal => ⟨hfatal, RestStream.issues_timer {} hstale (Or.inr htrades)⟩
    simp only [begun, fiveRounds, sessionRound, ordersRound, restingRound, List.cons_append,
      List.nil_append, List.append_nil, Along, and_true]
    refine ⟨trivial, trivial, trivial, trivial, trivial, ⟨by decide +kernel, trivial⟩, trivial,
      trivial, trivial, trivial, trivial, trivial, trivial,
      htimer rfl rfl (by decide +kernel), ⟨by decide +kernel, trivial⟩, trivial,
      htimer rfl rfl (by decide +kernel), trivial,
      htimer rfl rfl (by decide +kernel), trivial⟩
  · have hsome : ∀ {e : Turn} {s : SocketAccount .simple} {c₀ : Slot},
        s.dropCopy.downloadState.slot = some c₀ → e.serves s c₀ →
        ∀ c ∈ s.dropCopy.downloadState.slot, e.serves s c :=
      fun hslot hserves c hc => Option.some.inj (hslot.symm.trans hc) ▸ hserves
    have hnone : ∀ {e : Turn} {s : SocketAccount .simple}, s.dropCopy.downloadState.slot = none →
        ∀ c ∈ s.dropCopy.downloadState.slot, e.serves s c := by
      intro e s hslot c hc
      rw [hslot] at hc
      cases hc
    refine ⟨_, _, rfl, ⟨[], _, [_], _, _, _, [], rfl,
      hsome (by decide +kernel : _ = some Slot.balances) ⟨by decide +kernel, by decide, rfl⟩,
      by decide +kernel, by decide +kernel⟩, ?_⟩
    refine ⟨_, _, rfl, ⟨[], _, [_], _, _, _, [], rfl,
      hsome (by decide +kernel : _ = some Slot.positions) ⟨by decide +kernel, by decide, rfl⟩,
      by decide +kernel, by decide +kernel⟩, ?_⟩
    refine ⟨_, _, rfl, ⟨[], _, [_], _, _, _, [], rfl,
      hsome (by decide +kernel : _ = some Slot.openOrders) ⟨by decide +kernel, by decide, rfl⟩,
      by decide +kernel, by decide +kernel⟩, ?_⟩
    refine ⟨_, _, rfl, ⟨[], _, [], _, _, _, [], rfl, hnone (by decide +kernel), by decide +kernel,
      by decide +kernel⟩, ?_⟩
    exact ⟨_, _, rfl, ⟨[], _, [], _, _, _, [], rfl, hnone (by decide +kernel), by decide +kernel,
      by decide +kernel⟩, rfl⟩

end SocketAccount

end BinanceFutures
