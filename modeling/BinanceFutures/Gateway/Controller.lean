import BinanceFutures.Gateway.DropCopy
import BinanceFutures.Gateway.RestStream
import BinanceFutures.Gateway.WebSocket
import BinanceFutures.Schemes.Family
import Mathlib.Data.List.Sigma

/-! # Controller

    The controller creates the streams of every account, routes the client's requests to them, and
    listens to them: a listen key creates the account's drop copy, an expired one has it removed on the
    next timer.

        order entry ── ListenKeyUpdate ─▶ create_drop_copy_helper ─▶ drop copy
        drop copy ── Remove ─▶ zombie ── timer ─▶ reset, force_listen_key_refresh
        client ── create, modify, cancel, cancel all ─▶ order entry, or download

    The maps of the controller are keyed by account, and but for the pointers to the drop copies they
    are filled once: `Slice` is what they hold for one account. Market data, and the stream that
    downloads the symbols, have no part in what is modelled here. -/

namespace BinanceFutures
open Machine

/-- `Account`; its `crypto_` only signs. -/
structure Account where
  name : String
  marginMode : MarginMode

/-- `OrderEntry` -/
inductive OrderEntry where
  | webSocket (socket : WebSocket)
  | rest (stream : RestStream)

/-- What the controller holds for one account: the entries of `requests_`, `order_entry_`, `drop_copy_`
    and `download_`, and whether `drop_copy_zombies_` has the account. -/
structure Slice (R : LimitRequest) where
  account : Account
  request : Request R := {}
  orderEntry : OrderEntry
  dropCopy : Option DropCopy := none
  download : Option RestStream := none
  zombie : Bool := false

/-- A request of the client. The last argument of the order requests is what the encoder makes of them. -/
inductive ClientRequest where
  | createOrder (m : CreateOrder) (userId : UserId) (body : Except Exn String)
  | modifyOrder (m : ModifyOrder) (userId : UserId) (body : Except Exn String)
  | cancelOrder (m : CancelOrder) (userId : UserId) (body : Except Exn String)
  | cancelAllOrders (m : CancelAllOrders) (requestId : String)

namespace ClientRequest

def account : ClientRequest → String
  | .createOrder m _ _ => m.account
  | .modifyOrder m _ _ => m.account
  | .cancelOrder m _ _ => m.account
  | .cancelAllOrders m _ => m.account

/-- The event that the request is for a REST stream. -/
def rest : ClientRequest → RestStream.Event
  | .createOrder m userId body => .createOrder m userId body
  | .modifyOrder m userId body => .modifyOrder m userId body
  | .cancelOrder m userId body => .cancelOrder m userId body
  | .cancelAllOrders m requestId => .cancelAllOrders m requestId

/-- The event that the request is for a `WebSocket`. -/
def webSocket : ClientRequest → WebSocket.Event
  | .createOrder m userId body => .createOrder m userId body
  | .modifyOrder m userId body => .modifyOrder m userId body
  | .cancelOrder m userId body => .cancelOrder m userId body
  | .cancelAllOrders m _ => .cancelAllOrders m

end ClientRequest

/-- The event comes from the stream's connection. -/
def RestStream.Event.fromConnection : RestStream.Event → Bool
  | .connected _ | .disconnected | .latency | .answer .. => true
  | _ => false

/-- The event comes from the socket's connection. -/
def WebSocket.Event.fromConnection : WebSocket.Event → Bool
  | .connected | .disconnected | .ready _ | .close | .latency | .answer .. | .binary => true
  | _ => false

/-- The event comes from the drop copy's connection. -/
def DropCopy.Event.fromConnection : DropCopy.Event → Bool
  | .connected | .disconnected | .ready .. | .close | .latency | .text .. | .binary => true
  | _ => false

/-- The class of drop copy that the handler of the stream's `ListenKeyUpdate` creates. -/
def RestStream.Kind.variant : RestStream.Kind → Variant
  | .orderEntryPortfolio => .portfolio
  | _ => .classic

namespace Controller

/-- What is put out for one account: by its streams, and by the controller itself. -/
inductive Output where
  | throws (e : Exn)
  | rest (o : RestStream.Output)
  | webSocket (o : WebSocket.Output)
  | dropCopy (o : DropCopy.Output)
  | download (o : RestStream.Output)
  | dropCopyCreated (listenKey : String)
  | dropCopyRemoved
  deriving DecidableEq

/-- What the connections and the order management of one account answer while a timer is handled. -/
structure TimerAnswers where
  /-- `(*connection_).refresh`, for the order entry, the drop copy and the download. -/
  orderEntryRefresh : Bool
  dropCopyRefresh : Bool
  downloadRefresh : Bool
  orderEntryGate : Slot → Bool
  downloadGate : Slot → Bool
  visits : List DropCopy.State
  d : Dispatcher

inductive Event where
  | start
  | stop
  | timer (now : Nanos) (answers : String → TimerAnswers)
  | request (q : ClientRequest)
  /-- The connections of an account's streams call back. -/
  | rest (account : String) (e : RestStream.Event)
  | webSocket (account : String) (e : WebSocket.Event)
  | dropCopy (account : String) (e : DropCopy.Event)
  | download (account : String) (e : RestStream.Event)

/-- The streams, by account. -/
abbrev State (R : LimitRequest) := String → Option (Slice R)

/-- An action on the streams of one account. -/
abbrev Act (R : LimitRequest) := Action (Slice R) Output

/-- The process ends where a stream logs a fatal error. -/
def kills (o : String × Output) : Bool :=
  o.2 = .rest .fatal || o.2 = .webSocket .fatal || o.2 = .dropCopy .fatal || o.2 = .download .fatal

section
variable {R : LimitRequest} (scanner : Json.Scanner) (settings : Settings)

/-! ### Construction -/

/-- `create_order_entry`, for one account. -/
def createOrderEntry (account : Account) (streamId : UInt16) (request : Request R) : OrderEntry :=
  match account.marginMode with
  | .undefined | .isolated | .cross =>
    if settings.wsApi then .webSocket (WebSocket.create account.name streamId request).socket
    else .rest (RestStream.create .orderEntryClassic account.name request).stream
  | .portfolio => .rest (RestStream.create .orderEntryPortfolio account.name request).stream

/-- `create_download`, for one account. -/
def createDownload (account : Account) (request : Request R) : Option RestStream :=
  match account.marginMode with
  | .undefined | .isolated | .cross =>
    if settings.wsApi then some (RestStream.create .restTrade account.name request).stream else none
  | .portfolio => none

/-- The streams of one account, as they are constructed. -/
def createSlice (account : Account) (streamId : UInt16) : Slice R where
  account := account
  request := {}
  orderEntry := createOrderEntry (R := R) settings account streamId {}
  dropCopy := none
  download := createDownload (R := R) settings account {}
  zombie := false

/-! ### Drop copies -/

/-- `create_drop_copy_helper` -/
def createDropCopyHelper (variant : Variant) (listenKey : String) : Act R := fun s =>
  match s.dropCopy with
  | some _ => (s, [])
  | none =>
    let started := DropCopy.step settings .start
      (DropCopy.create variant s.account.name listenKey s.request)
    ({ s with dropCopy := some started.1.dropCopy },
      .dropCopyCreated listenKey :: started.2.map .dropCopy)

/-- An order-entry stream over HTTP has put something out; `ListenKeyUpdate` has a handler here. -/
def handleRest (kind : RestStream.Kind) (o : RestStream.Output) : Act R :=
  match o with
  | .listenKeyUpdate listenKey =>
    seq (emit [.rest o]) (createDropCopyHelper settings kind.variant listenKey)
  | _ => emit [.rest o]

/-- A `WebSocket` has put something out; `ListenKeyUpdate` has a handler here. -/
def handleWebSocket (o : WebSocket.Output) : Act R :=
  match o with
  | .listenKeyUpdate listenKey =>
    seq (emit [.webSocket o]) (createDropCopyHelper settings .classic listenKey)
  | _ => emit [.webSocket o]

/-- A drop copy has put something out; `Remove` has a handler here. -/
def handleDropCopy (o : DropCopy.Output) : Act R :=
  match o with
  | .remove _ => seq (emit [.dropCopy o]) (modify fun s => { s with zombie := true })
  | _ => emit [.dropCopy o]

/-! ### Streams -/

/-- The order entry takes its turn, if it is a REST stream. -/
def onRest (e : RestStream.Event) : Act R := fun s =>
  match s.orderEntry with
  | .webSocket _ => (s, [])
  | .rest stream =>
    let turn := RestStream.step settings e ⟨stream, s.request⟩
    seqAll (turn.2.map (handleRest settings stream.kind))
      { s with orderEntry := .rest turn.1.stream, request := turn.1.request }

/-- The order entry takes its turn, if it is a `WebSocket`. -/
def onWebSocket (e : WebSocket.Event) : Act R := fun s =>
  match s.orderEntry with
  | .rest _ => (s, [])
  | .webSocket socket =>
    let turn := WebSocket.step scanner settings e ⟨socket, s.request⟩
    seqAll (turn.2.map (handleWebSocket settings))
      { s with orderEntry := .webSocket turn.1.socket, request := turn.1.request }

/-- The order entry takes its turn, whichever it is. -/
def onOrderEntry (rest : RestStream.Event) (webSocket : WebSocket.Event) : Act R :=
  seq (onRest settings rest) (onWebSocket scanner settings webSocket)

/-- The drop copy takes its turn, if there is one. -/
def onDropCopy (e : DropCopy.Event) : Act R := fun s =>
  match s.dropCopy with
  | none => (s, [])
  | some dropCopy =>
    let turn := DropCopy.step settings e ⟨dropCopy, s.request⟩
    seqAll (turn.2.map handleDropCopy)
      { s with dropCopy := some turn.1.dropCopy, request := turn.1.request }

/-- The download takes its turn, if there is one. -/
def onDownload (e : RestStream.Event) : Act R := fun s =>
  match s.download with
  | none => (s, [])
  | some stream =>
    let turn := RestStream.step settings e ⟨stream, s.request⟩
    ({ s with download := some turn.1.stream, request := turn.1.request }, turn.2.map .download)

/-! ### Timer -/

/-- The drop copy of a zombie is removed, and its order entry asks for a new listen key. -/
def reap (now : Nanos) : Act R :=
  guarded (·.zombie) (seqAll [
    fun s => ({ s with dropCopy := none }, [.dropCopyRemoved]),
    onOrderEntry scanner settings (.forceListenKeyRefresh now) (.forceListenKeyRefresh now),
    modify fun s => { s with zombie := false }])

def orderEntryTimer (now : Nanos) (answers : TimerAnswers) : Act R :=
  onOrderEntry scanner settings
    (.timer now answers.orderEntryRefresh answers.orderEntryGate answers.d)
    (.timer now answers.orderEntryRefresh answers.orderEntryGate)

def dropCopyTimer (now : Nanos) (answers : TimerAnswers) : Act R :=
  onDropCopy settings (.timer now answers.dropCopyRefresh answers.d answers.visits)

def downloadTimer (now : Nanos) (answers : TimerAnswers) : Act R :=
  onDownload settings (.timer now answers.downloadRefresh answers.downloadGate answers.d)

/-! ### Requests -/

/-- Where a request is sent. -/
inductive Target where | orderEntry | restTrade
  deriving DecidableEq

/-- `RuntimeError` of `get_order_entry` and `get_rest_trade`. -/
def unknownAccount (account : String) : Exn :=
  .runtimeError ("Unknown account=\"" ++ account ++ "\"")

/-- `get_rest_trade` -/
def getRestTrade (s : Slice R) : Except Exn Target :=
  match s.download with
  | some _ => .ok .restTrade
  | none => .error (unknownAccount s.account.name)

/-- The routing of the request handlers. -/
def route (q : ClientRequest) (s : Slice R) : Except Exn Target :=
  match q with
  | .cancelAllOrders .. => if settings.wsApi then getRestTrade s else .ok .orderEntry
  | _ => .ok .orderEntry

/-- A request is routed, and its stream takes its turn. -/
def onRequest (q : ClientRequest) : Act R := fun s =>
  match route settings q s with
  | .error e => (s, [.throws e])
  | .ok .orderEntry => onOrderEntry scanner settings q.rest q.webSocket s
  | .ok .restTrade => onDownload settings q.rest s

/-! ### Events -/

/-- What an event makes the streams of one account do. -/
def reaction (account : String) : Event → Act R
  | .start => seqAll [onOrderEntry scanner settings .start .start, onDropCopy settings .start,
      onDownload settings .start]
  | .stop => seqAll [onOrderEntry scanner settings .stop .stop, onDropCopy settings .stop,
      onDownload settings .stop]
  | .timer now answers => seqAll [
      reap scanner settings now,
      orderEntryTimer scanner settings now (answers account),
      dropCopyTimer settings now (answers account),
      downloadTimer settings now (answers account)]
  | .request q => if q.account = account then onRequest scanner settings q else skip
  | .rest account' e =>
    if account' = account ∧ e.fromConnection then onRest settings e else skip
  | .webSocket account' e =>
    if account' = account ∧ e.fromConnection then onWebSocket scanner settings e else skip
  | .dropCopy account' e =>
    if account' = account ∧ e.fromConnection then onDropCopy settings e else skip
  | .download account' e =>
    if account' = account ∧ e.fromConnection then onDownload settings e else skip

end

end Controller

/-- The const members of the controller: `accounts_`, in the map's order of iteration, and the
    settings. -/
structure Controller where
  settings : Settings
  accounts : List Account
  nodup : (accounts.map (·.name)).Nodup

namespace Controller
open Machine.Family

section
variable {R : LimitRequest} (scanner : Json.Scanner) (c : Controller)

def names : List String := c.accounts.map (·.name)

/-- The streams as they are constructed; `rest_` takes the first stream id. -/
def initial : State R := fun account =>
  (c.accounts.find? (·.name = account)).map fun a =>
    createSlice c.settings a (UInt16.ofNat (c.names.idxOf account + 2))

/-- `dispatch` to the streams: all order entries, then all drop copies, then all downloads. -/
def dispatch (orderEntry dropCopy download : String → Act R) : Action (State R) (String × Output) :=
  seqAll [each c.names orderEntry, each c.names dropCopy, each c.names download]

/-- A callback of one stream. -/
def callback (account : String) (fromConnection : Bool) (f : Act R) :
    Action (State R) (String × Output) :=
  if fromConnection then member account f else skip

/-- A request; without an entry for the account the routing throws. -/
def request (q : ClientRequest) : Action (State R) (String × Output) := fun state =>
  match state q.account with
  | none => (state, [(q.account, .throws (unknownAccount q.account))])
  | some _ => member q.account (onRequest scanner c.settings q) state

def step : Event → Action (State R) (String × Output)
  | .start => c.dispatch (fun _ => onOrderEntry scanner c.settings .start .start)
      (fun _ => onDropCopy c.settings .start) (fun _ => onDownload c.settings .start)
  | .stop => c.dispatch (fun _ => onOrderEntry scanner c.settings .stop .stop)
      (fun _ => onDropCopy c.settings .stop) (fun _ => onDownload c.settings .stop)
  | .timer now answers =>
    -- note! remove drop_copy *BEFORE* dispatching timer
    seq (each c.names fun _ => reap scanner c.settings now)
      (c.dispatch (fun account => orderEntryTimer scanner c.settings now (answers account))
        (fun account => dropCopyTimer c.settings now (answers account))
        (fun account => downloadTimer c.settings now (answers account)))
  | .request q => c.request scanner q
  | .rest account e => callback account e.fromConnection (onRest c.settings e)
  | .webSocket account e => callback account e.fromConnection (onWebSocket scanner c.settings e)
  | .dropCopy account e => callback account e.fromConnection (onDropCopy c.settings e)
  | .download account e => callback account e.fromConnection (onDownload c.settings e)

/-- A run of the process, which ends where a stream logs a fatal error. -/
abbrev execute (es : List Event) (s : State R × Bool) : (State R × Bool) × List (String × Output) :=
  run (mortal kills (c.step scanner)) es s

/-- The process as it starts. -/
abbrev boot : State R × Bool := (c.initial, false)

end

/-! ### `create` -/

/-- Whether `Ed25519::create` and `MAC::create` accept a secret. -/
structure Secrets where
  ed25519 : String → Bool
  mac : String → Bool

/-- `create_crypto` and the constructor of `Crypto`: whether the process goes on. -/
def createCrypto (secrets : Secrets) (account : ConfigAccount) : Bool :=
  account.login ≠ "" && account.secret ≠ "" &&
    match account.marginMode with
    | .portfolio => account.secret2 = ""
    | _ => secrets.ed25519 account.secret ||
        secrets.mac (if account.secret2 = "" then account.secret else account.secret2)

/-- The accounts of a configuration, each name once. -/
def readAccounts (config : Config) : List (Σ _ : String, ConfigAccount) :=
  (config.accounts.map fun e => (⟨e.1, e.2⟩ : Σ _ : String, ConfigAccount)).dedupKeys

/-- `create`, or `none` where the process ends. -/
def create (settings : Settings) (config : Config) (secrets : Secrets) : Option Controller :=
  let entries := readAccounts config
  if entries.all (fun e => createCrypto secrets e.2) ∧
      (settings.api = "fapi" ∨ settings.api = "dapi") ∧ settings.rest.cancelOnDisconnect = false then
    some {
      settings
      accounts := entries.map fun e => ⟨e.1, e.2.marginMode⟩
      nodup := by
        rw [List.map_map]
        exact List.nodupKeys_dedupKeys _ }
  else none

/-! ### Rules -/

section
variable {R : LimitRequest} (scanner : Json.Scanner) (settings : Settings)

/-- The account, its order entry and its download. -/
def wiring (s : Slice R) : Account × OrderEntry × Option RestStream :=
  (s.account, s.orderEntry, s.download)

theorem frame_createDropCopyHelper (variant : Variant) (listenKey : String) :
    Frame wiring (createDropCopyHelper (R := R) settings variant listenKey) := by
  intro s
  unfold createDropCopyHelper
  split <;> rfl

theorem frame_handlers {α : Type} {handle : α → Act R} (h : ∀ o, Frame wiring (handle o))
    (os : List α) : Frame wiring (seqAll (os.map handle)) := by
  refine frame_map fun o _ => ?_
  exact h o

theorem frame_handleRest (kind : RestStream.Kind) (o : RestStream.Output) :
    Frame wiring (handleRest (R := R) settings kind o) := by
  cases o with
  | listenKeyUpdate listenKey =>
    exact frame_seq (fun _ => rfl) (frame_createDropCopyHelper settings _ _)
  | _ => exact fun _ => rfl

theorem frame_handleWebSocket (o : WebSocket.Output) :
    Frame wiring (handleWebSocket (R := R) settings o) := by
  cases o with
  | listenKeyUpdate listenKey =>
    exact frame_seq (fun _ => rfl) (frame_createDropCopyHelper settings _ _)
  | _ => exact fun _ => rfl

theorem frame_handleDropCopy (o : DropCopy.Output) : Frame wiring (handleDropCopy (R := R) o) := by
  cases o <;> exact fun _ => rfl

/-- A turn of the order entry changes the order entry. -/
theorem wiring_onRest (e : RestStream.Event) {s : Slice R} {stream : RestStream}
    (h : s.orderEntry = .rest stream) : wiring (onRest settings e s).1
      = (s.account, .rest (RestStream.step settings e ⟨stream, s.request⟩).1.stream, s.download) := by
  unfold onRest
  rw [h]
  exact frame_handlers (frame_handleRest settings stream.kind) _ _

theorem wiring_onWebSocket (e : WebSocket.Event) {s : Slice R} {socket : WebSocket}
    (h : s.orderEntry = .webSocket socket) : wiring (onWebSocket scanner settings e s).1
      = (s.account, .webSocket (WebSocket.step scanner settings e ⟨socket, s.request⟩).1.socket,
        s.download) := by
  unfold onWebSocket
  rw [h]
  exact frame_handlers (frame_handleWebSocket settings) _ _

theorem onRest_of_webSocket (e : RestStream.Event) {s : Slice R} {socket : WebSocket}
    (h : s.orderEntry = .webSocket socket) : onRest settings e s = (s, []) := by
  unfold onRest
  rw [h]

theorem onWebSocket_of_rest (e : WebSocket.Event) {s : Slice R} {stream : RestStream}
    (h : s.orderEntry = .rest stream) : onWebSocket scanner settings e s = (s, []) := by
  unfold onWebSocket
  rw [h]

theorem wiring_onDownload (e : RestStream.Event) {s : Slice R} {stream : RestStream}
    (h : s.download = some stream) : wiring (onDownload settings e s).1
      = (s.account, s.orderEntry, some (RestStream.step settings e ⟨stream, s.request⟩).1.stream) := by
  unfold onDownload
  rw [h]
  rfl

theorem onDownload_of_none (e : RestStream.Event) {s : Slice R} (h : s.download = none) :
    onDownload settings e s = (s, []) := by
  unfold onDownload
  rw [h]

/-- A turn of the drop copy does not touch the other streams. -/
theorem frame_onDropCopy (e : DropCopy.Event) : Frame wiring (onDropCopy (R := R) settings e) := by
  intro s
  unfold onDropCopy
  split
  · rfl
  · exact frame_handlers frame_handleDropCopy _ _

/-- What the single turns of an account's streams keep. -/
structure Rules (I : List Output → Slice R → Prop) : Prop where
  rest : ∀ e, Keeps I (onRest settings e)
  webSocket : ∀ e, Keeps I (onWebSocket scanner settings e)
  dropCopy : ∀ e, Keeps I (onDropCopy settings e)
  download : ∀ e, Keeps I (onDownload settings e)
  throws : ∀ e, Keeps I (emit [.throws e])
  removed : Keeps I fun s => ({ s with dropCopy := none }, [.dropCopyRemoved])
  reaped : Keeps I (modify fun s => { s with zombie := false })

variable {scanner settings} {I : List Output → Slice R → Prop}

theorem Rules.orderEntry (h : Rules scanner settings I) (rest : RestStream.Event)
    (webSocket : WebSocket.Event) : Keeps I (onOrderEntry scanner settings rest webSocket) :=
  keeps_seq (h.rest rest) (h.webSocket webSocket)

theorem Rules.all (h : Rules scanner settings I) (rest : RestStream.Event)
    (webSocket : WebSocket.Event) (drop : DropCopy.Event) (download : RestStream.Event) :
    Keeps I (seqAll [onOrderEntry scanner settings rest webSocket, onDropCopy settings drop,
      onDownload settings download]) :=
  keeps_seq (h.orderEntry rest webSocket)
    (keeps_seq (h.dropCopy drop) (keeps_seq (h.download download) (keeps_skip I)))

theorem Rules.request (h : Rules scanner settings I) (q : ClientRequest) :
    Keeps I (onRequest scanner settings q) := by
  intro out s hI
  unfold onRequest
  split
  · exact h.throws _ out s hI
  · exact h.orderEntry _ _ out s hI
  · exact h.download _ out s hI

/-- What the single turns keep, every reaction keeps. -/
theorem Rules.reaction (h : Rules scanner settings I) (account : String) (e : Event) :
    Keeps I (reaction scanner settings account e) := by
  have hif : ∀ {p : Prop} [Decidable p] {f : Act R}, Keeps I f → Keeps I (if p then f else skip) := by
    intro p _ f hf
    split
    · exact hf
    · exact keeps_skip I
  cases e with
  | start => exact h.all _ _ _ _
  | stop => exact h.all _ _ _ _
  | timer now answers =>
    refine keeps_seq (keeps_guarded _ fun out s _ => ?_) (h.all _ _ _ _)
    exact keeps_seq h.removed
      (keeps_seq (h.orderEntry _ _) (keeps_seq h.reaped (keeps_skip I))) out s
  | request q => exact hif (h.request q)
  | rest account' e => exact hif (h.rest e)
  | webSocket account' e => exact hif (h.webSocket e)
  | dropCopy account' e => exact hif (h.dropCopy e)
  | download account' e => exact hif (h.download e)

end

/-! ### One account -/

section
variable {R : LimitRequest} (scanner : Json.Scanner) (c : Controller) {a : Account}

/-- A configured account has its streams from the start. -/
theorem initial_of_mem (ha : a ∈ c.accounts) :
    ∃ streamId, c.initial a.name = some (createSlice (R := R) c.settings a streamId) := by
  have hfind : c.accounts.find? (fun b => b.name = a.name) = some a := by
    cases hresult : c.accounts.find? fun b => b.name = a.name with
    | none =>
      have hnone := List.find?_eq_none.mp hresult a ha
      simp at hnone
    | some b =>
      have hname : b.name = a.name := by simpa using List.find?_some hresult
      have hb := List.mem_of_find?_eq_some hresult
      rw [List.inj_on_of_nodup_map c.nodup hb ha hname]
  exact ⟨_, by rw [initial, hfind, Option.map_some]⟩

theorem seen_dispatch (ha : a ∈ c.accounts) (f g h : String → Act R) :
    Seen a.name (c.dispatch f g h) (seqAll [f a.name, g a.name, h a.name]) := by
  have hname : a.name ∈ c.names := List.mem_map_of_mem ha
  exact seen_seq (seen_each f c.nodup hname) (seen_seq (seen_each g c.nodup hname)
    (seen_seq (seen_each h c.nodup hname) (seen_skip _)))

theorem seen_callback (account account' : String) (fromConnection : Bool) (f : Act R) :
    Seen account (callback account' fromConnection f)
      (if account' = account ∧ fromConnection then f else skip) := by
  unfold callback
  cases fromConnection with
  | false => simpa using seen_skip account
  | true =>
    by_cases heq : account' = account
    · subst heq
      simpa using seen_member account' f
    · simpa [heq] using seen_other heq f

theorem seen_request (account : String) (q : ClientRequest) :
    Seen account (c.request (R := R) scanner q)
      (if q.account = account then onRequest scanner c.settings q else skip) := by
  intro state s hs
  by_cases heq : q.account = account
  · subst heq
    rw [if_pos rfl, request, hs]
    exact seen_member q.account (onRequest scanner c.settings q) state s hs
  · rw [if_neg heq, request]
    split
    · exact ⟨hs, by simp [output, heq]⟩
    · exact seen_other heq (onRequest scanner c.settings q) state s hs

/-- Seen from an account, a step of the controller is the reaction of the account's own streams. -/
theorem seen_step (ha : a ∈ c.accounts) (e : Event) :
    Seen a.name (c.step (R := R) scanner e) (reaction scanner c.settings a.name e) := by
  cases e with
  | start => exact seen_dispatch c ha _ _ _
  | stop => exact seen_dispatch c ha _ _ _
  | timer now answers =>
    have hname : a.name ∈ c.names := List.mem_map_of_mem ha
    exact seen_seq (seen_each _ c.nodup hname) (seen_dispatch c ha _ _ _)
  | request q => exact seen_request scanner c a.name q
  | rest account e => exact seen_callback a.name account _ _
  | webSocket account e => exact seen_callback a.name account _ _
  | dropCopy account e => exact seen_callback a.name account _ _
  | download account e => exact seen_callback a.name account _ _

/-- What the reactions of an account to the events of a run keep holds of it after the run. -/
theorem of_execute_of (ha : a ∈ c.accounts) {I : List Output → Slice R → Prop} {es : List Event}
    (hstep : ∀ e ∈ es, Keeps I (reaction scanner c.settings a.name e))
    (hinit : ∀ streamId, I [] (createSlice c.settings a streamId)) :
    Of a.name I (c.execute (R := R) scanner es c.boot).2
      (c.execute scanner es c.boot).1.1 := by
  obtain ⟨streamId, hs⟩ := initial_of_mem (R := R) c ha
  have hkeeps : ∀ e ∈ es, Keeps (fun out s => Of a.name I out s.1)
      (mortal kills (c.step scanner) e) := fun e he =>
    keeps_mortal (keeps_of (seen_step scanner c ha e) (hstep e he))
  have hrun := keeps_run_of hkeeps [] c.boot ⟨_, hs, hinit streamId⟩
  rwa [List.nil_append] at hrun

/-- What the reactions of an account keep holds of it after every run. -/
theorem of_execute (ha : a ∈ c.accounts) {I : List Output → Slice R → Prop}
    (hstep : ∀ e, Keeps I (reaction scanner c.settings a.name e))
    (hinit : ∀ streamId, I [] (createSlice c.settings a streamId)) (es : List Event) :
    Of a.name I (c.execute (R := R) scanner es c.boot).2
      (c.execute scanner es c.boot).1.1 :=
  of_execute_of scanner c ha (fun e _ => hstep e) hinit

end

/-- A gateway with one account, `A1`. -/
def single (wsApi : Bool) (marginMode : MarginMode) : Controller where
  settings := { wsApi }
  accounts := [⟨"A1", marginMode⟩]
  nodup := by simp

end Controller
end BinanceFutures
