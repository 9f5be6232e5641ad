import BinanceFutures.Gateway.Controller
import BinanceFutures.Gateway.RestMemory

/-! # Routing

    Which object a request ends in depends on what was constructed for its account.

        margin mode      ws_api   order entry            download
        not portfolio    off      OrderEntryClassic      ·
        not portfolio    on       WebSocket              RestTrade
        portfolio        any      OrderEntryPortfolio    ·

    Orders go to the order entry. So does a request to cancel all orders, but with `ws_api` it goes to the
    download, which a portfolio account does not have. -/

namespace BinanceFutures
open Machine Machine.Family

/-- A request to cancel all orders. -/
def ClientRequest.cancelsAll : ClientRequest → Bool
  | .cancelAllOrders .. => true
  | _ => false

namespace Controller

section
variable {R : LimitRequest} (scanner : Json.Scanner) (settings : Settings)

/-! ### What is constructed -/

/-- The classes of an account's streams; a `WebSocket` counts as none of the REST streams. -/
def shape (w : Account × OrderEntry × Option RestStream) :
    Account × Option RestStream.Kind × Option RestStream.Kind :=
  (w.1,
    match w.2.1 with
    | .webSocket _ => none
    | .rest stream => some stream.kind,
    w.2.2.map (·.kind))

/-- Nothing changes the classes of an account's streams. -/
theorem frame_reaction (account : String) (e : Event) :
    Frame (fun s => shape (wiring s)) (reaction (R := R) scanner settings account e) := by
  rw [frame_iff]
  intro x
  refine Rules.reaction ⟨fun e out s hs => ?_, fun e out s hs => ?_, fun e out s hs => ?_,
    fun e out s hs => ?_, fun _ _ _ hs => hs, fun _ _ hs => hs, fun _ _ hs => hs⟩ account e
  · cases hentry : s.orderEntry with
    | webSocket socket => rwa [onRest_of_webSocket settings e hentry]
    | rest stream =>
      have hkind := (RestStream.effect_step settings e ⟨stream, s.request⟩).kind_eq
      rw [wiring_onRest settings e hentry, ← hs, wiring, hentry, shape, shape]
      simp only [hkind]
  · cases hentry : s.orderEntry with
    | rest stream => rwa [onWebSocket_of_rest scanner settings e hentry]
    | webSocket socket =>
      rw [wiring_onWebSocket scanner settings e hentry, ← hs, wiring, hentry, shape, shape]
  · rw [frame_onDropCopy settings e]
    exact hs
  · cases hdownload : s.download with
    | none => rwa [onDownload_of_none settings e hdownload]
    | some stream =>
      have hkind := (RestStream.effect_step settings e ⟨stream, s.request⟩).kind_eq
      rw [wiring_onDownload settings e hdownload, ← hs, wiring, hdownload, shape, shape]
      simp only [Option.map_some, hkind]

/-- What the constructors make of an account. -/
theorem shape_createSlice (a : Account) (streamId : UInt16) :
    shape (wiring (createSlice (R := R) settings a streamId)) =
      (a,
        if a.marginMode = .portfolio then some .orderEntryPortfolio
        else if settings.wsApi then none else some .orderEntryClassic,
        if a.marginMode ≠ .portfolio ∧ settings.wsApi = true then some .restTrade else none) := by
  obtain ⟨name, marginMode⟩ := a
  cases hapi : settings.wsApi <;> cases marginMode <;>
    simp [shape, wiring, createSlice, createOrderEntry, createDownload, RestStream.create, hapi]

/-! ### Where requests end -/

/-- The object that the target is has a handler for the request; a `WebSocket` has none to cancel all
    orders, and `RestTrade` has no other. -/
def implements (q : ClientRequest) (s : Slice R) : Target → Bool
  | .orderEntry => match s.orderEntry with
    | .webSocket _ => !q.cancelsAll
    | .rest stream => stream.kind ≠ .restTrade || q.cancelsAll
  | .restTrade => q.cancelsAll

/-- The routing does not throw, and ends in an object that implements the request. -/
def Routed (q : ClientRequest) (state : State R) : Prop :=
  ∃ s target, state q.account = some s ∧ route settings q s = .ok target ∧
    implements q s target = true

/-- Where the object does not implement the request, it throws or ends the process. -/
theorem ends_of_not_implements {q : ClientRequest} {s : Slice R} {target : Target}
    (hroute : route settings q s = .ok target) (h : implements q s target = false) :
    (onRequest scanner settings q s).2 = [.webSocket .fatal] ∨
      (onRequest scanner settings q s).2 = [.rest (.throws (.notSupported "not supported"))] := by
  cases target with
  | restTrade =>
    cases q with
    | cancelAllOrders m requestId => cases h
    | createOrder | modifyOrder | cancelOrder => cases hroute
  | orderEntry =>
    unfold implements at h
    unfold onRequest
    rw [hroute]
    cases hentry : s.orderEntry with
    | webSocket socket =>
      rw [hentry] at h
      cases q with
      | cancelAllOrders m requestId =>
        left
        simp [onOrderEntry, onRest, onWebSocket, hentry, ClientRequest.webSocket, WebSocket.step,
          handleWebSocket, seqAll, seq]
      | createOrder | modifyOrder | cancelOrder => cases h
    | rest stream =>
      rw [hentry] at h
      right
      have hkind : stream.kind = .restTrade ∧ q.cancelsAll = false := by simpa using h
      cases q with
      | cancelAllOrders m requestId => cases hkind.2
      | createOrder | modifyOrder | cancelOrder =>
        simp [onOrderEntry, onRest, onWebSocket, hentry, ClientRequest.rest, RestStream.step,
          RestStream.orderAction, hkind.1, handleRest, seqAll, seq]

/-- The connection of the order entry is ready. -/
def ready (s : Slice R) : Bool :=
  match s.orderEntry with
  | .webSocket socket => socket.connectionStatus = .ready
  | .rest stream => stream.connectionStatus = .ready

/-- The encoder has made something of the order request. -/
def encoded : ClientRequest → Bool
  | .createOrder _ _ (.ok _) | .modifyOrder _ _ (.ok _) | .cancelOrder _ _ (.ok _) => true
  | _ => false

/-- The output is the order request on its way to the exchange. -/
def Output.sends : ClientRequest → Output → Bool
  | .createOrder m userId (.ok body), .rest (.request _ call) =>
    call = .orderPlace m.symbol body userId m.orderId 1
  | .modifyOrder m userId (.ok body), .rest (.request _ call) =>
    call = .orderModify body userId m.orderId m.version
  | .cancelOrder m userId (.ok body), .rest (.request _ call) =>
    call = .orderCancel body userId m.orderId m.version
  | .createOrder m userId (.ok _), .webSocket (.sendText _ call) =>
    call = .orderPlace m.symbol userId m.orderId 1
  | .modifyOrder m userId (.ok _), .webSocket (.sendText _ call) =>
    call = .orderModify userId m.orderId m.version
  | .cancelOrder m userId (.ok _), .webSocket (.sendText _ call) =>
    call = .orderCancel userId m.orderId m.version
  | _, _ => false

/-- Where the object implements an order request, is ready and can encode it, it sends it. -/
theorem sends_of_implements {q : ClientRequest} {s : Slice R} {target : Target}
    (hroute : route settings q s = .ok target) (h : implements q s target = true)
    (hready : ready s = true) (hencoded : encoded q = true) :
    ∃ o ∈ (onRequest scanner settings q s).2, o.sends q = true := by
  cases target with
  | restTrade =>
    cases q with
    | cancelAllOrders m requestId => cases hencoded
    | createOrder | modifyOrder | cancelOrder => cases hroute
  | orderEntry =>
    unfold implements at h
    unfold ready at hready
    unfold onRequest
    rw [hroute]
    cases hentry : s.orderEntry with
    | webSocket socket =>
      rw [hentry] at hready
      have hstatus : socket.connectionStatus = .ready := by simpa using hready
      cases q with
      | cancelAllOrders m requestId => cases hencoded
      | createOrder m userId body | modifyOrder m userId body | cancelOrder m userId body =>
        cases body with
        | error e => cases hencoded
        | ok body =>
          simp [onOrderEntry, onRest, onWebSocket, hentry, ClientRequest.webSocket, WebSocket.step,
            WebSocket.orderPlace, WebSocket.orderModify, WebSocket.orderCancel,
            WebSocket.sendEncoded, WebSocket.send, WebSocket.isReady, hstatus, handleWebSocket,
            seqAll, seq, Output.sends]
    | rest stream =>
      rw [hentry] at h hready
      have hstatus : stream.connectionStatus = .ready := by simpa using hready
      cases q with
      | cancelAllOrders m requestId => cases hencoded
      | createOrder m userId body | modifyOrder m userId body | cancelOrder m userId body =>
        have hkind : stream.kind ≠ .restTrade := by simpa [ClientRequest.cancelsAll] using h
        cases body with
        | error e => cases hencoded
        | ok body =>
          simp [onOrderEntry, onRest, onWebSocket, hentry, ClientRequest.rest, RestStream.step,
            RestStream.orderAction, hkind, RestStream.orderPlace, RestStream.orderModify,
            RestStream.orderCancel, RestStream.sendEncoded, RestStream.send, RestStream.isReady,
            hstatus, handleRest, seqAll, seq, Output.sends]

/-- What the classes of an account's streams say about the routing. -/
theorem routes_iff {settings : Settings} {a : Account} {s : Slice R}
    (hshape : shape (wiring s) = (a,
      if a.marginMode = .portfolio then some .orderEntryPortfolio
      else if settings.wsApi then none else some .orderEntryClassic,
      if a.marginMode ≠ .portfolio ∧ settings.wsApi = true then some .restTrade else none))
    (q : ClientRequest) :
    (∃ target, route settings q s = .ok target ∧ implements q s target = true)
    ↔ (q.cancelsAll = true → settings.wsApi = false ∨ a.marginMode ≠ .portfolio) := by
  rw [shape, wiring, Prod.mk.injEq, Prod.mk.injEq] at hshape
  obtain ⟨-, hentry, hdownload⟩ := hshape
  -- the order entry is a `WebSocket`, or a REST stream that takes orders
  have horder : ∀ q : ClientRequest, q.cancelsAll = false → implements q s .orderEntry = true := by
    intro q hq
    rw [implements]
    cases horderEntry : s.orderEntry with
    | webSocket socket => simp [hq]
    | rest stream =>
      rw [horderEntry] at hentry
      have hkind : stream.kind ≠ .restTrade := by
        rintro heq
        dsimp only at hentry
        rw [heq] at hentry
        split at hentry
        · cases hentry
        · split at hentry <;> cases hentry
      simp [hkind]
  cases q with
  | createOrder | modifyOrder | cancelOrder =>
    exact iff_of_true ⟨.orderEntry, rfl, horder _ rfl⟩ fun h => by cases h
  | cancelAllOrders m requestId =>
    simp only [ClientRequest.cancelsAll, forall_const, route]
    cases hapi : settings.wsApi with
    | false =>
      refine iff_of_true ⟨.orderEntry, rfl, ?_⟩ (Or.inl rfl)
      rw [implements]
      cases horderEntry : s.orderEntry with
      | rest stream => simp [ClientRequest.cancelsAll]
      | webSocket socket =>
        rw [horderEntry, hapi] at hentry
        dsimp only at hentry
        split at hentry <;> simp at hentry
    | true =>
      rw [hapi] at hdownload
      cases hstream : s.download with
      | none =>
        rw [hstream] at hdownload
        refine iff_of_false ?_ ?_
        · rintro ⟨target, hroute, -⟩
          simp [getRestTrade, hstream] at hroute
        · rintro (h | h)
          · cases h
          · rw [if_pos ⟨h, rfl⟩] at hdownload
            cases hdownload
      | some stream =>
        rw [hstream] at hdownload
        refine iff_of_true ⟨.restTrade, by simp [getRestTrade, hstream], rfl⟩ (Or.inr ?_)
        intro hmode
        rw [if_neg (fun h => h.1 hmode)] at hdownload
        cases hdownload

end

/-! ### Configurations -/

section
variable {R : LimitRequest} (scanner : Json.Scanner) {settings : Settings} {config : Config}
  {secrets : Secrets} {c : Controller} {a : Account}

theorem settings_of_create (hc : create settings config secrets = some c) :
    c.settings = settings := by
  unfold create at hc
  dsimp only at hc
  split at hc
  · obtain rfl := Option.some.inj hc
    rfl
  · cases hc

/-- EXACT: for every accepted configuration, in every state that a run reaches, a request for a
    configured account is routed to an object that implements it, exactly unless it is to cancel all
    orders of a portfolio account under `ws_api`. -/
theorem routed_iff (hc : create settings config secrets = some c) (ha : a ∈ c.accounts)
    (q : ClientRequest) (hq : q.account = a.name) (es : List Event) :
    Routed settings q (c.execute (R := R) scanner es c.boot).1.1
    ↔ (q.cancelsAll = true → settings.wsApi = false ∨ a.marginMode ≠ .portfolio) := by
  have hstep : ∀ e, Keeps (fun _ (s : Slice R) =>
      shape (wiring s) = shape (wiring (createSlice (R := R) c.settings a 0)))
      (reaction scanner c.settings a.name e) := fun e _ s hs =>
    (frame_reaction scanner c.settings a.name e s).trans hs
  obtain ⟨s, hs, hshape⟩ := of_execute (R := R) scanner c ha hstep
    (fun streamId => by rw [shape_createSlice, shape_createSlice]) es
  rw [settings_of_create hc, shape_createSlice] at hshape
  rw [← routes_iff hshape q, Routed, hq, hs]
  constructor
  · rintro ⟨s', target, hs', hroute, himplements⟩
    obtain rfl := Option.some.inj hs'
    exact ⟨target, hroute, himplements⟩
  · rintro ⟨target, hroute, himplements⟩
    exact ⟨s, target, rfl, hroute, himplements⟩

/-- Any secret will do. -/
def anySecret : Secrets where
  ed25519 _ := true
  mac _ := true

/-- A configuration with one account, `A1`. -/
def oneAccount (marginMode : MarginMode) : Config where
  accounts := [("A1", { marginMode, login := "login", secret := "secret" })]

/-- Under `ws_api` a request to cancel all orders of a portfolio account is not routed. -/
theorem portfolio_not_routed :
    create { wsApi := true } (oneAccount .portfolio) anySecret = some (single true .portfolio) ∧
    ¬ Routed { wsApi := true } (.cancelAllOrders { account := "A1" } "1")
      ((single true .portfolio).execute .standard []
        ((single true .portfolio).boot (R := .simple))).1.1 := by
  refine ⟨rfl, ?_⟩
  rintro ⟨s, target, hs, hroute, -⟩
  have hdownload : (((single true .portfolio).boot (R := .simple)).1 "A1").map
      (fun s => s.download.isSome) = some false := by decide
  have hs' : ((single true .portfolio).boot (R := .simple)).1 "A1" = some s := hs
  rw [hs', Option.map_some] at hdownload
  have hnone : s.download = none := by simpa using hdownload
  simp [route, getRestTrade, hnone] at hroute

/-- Its orders are. -/
theorem portfolio_order_routed :
    Routed { wsApi := true }
      (.createOrder { account := "A1", orderId := 1, symbol := "BTCUSDT" } 0 (.ok ""))
      ((single true .portfolio).execute .standard []
        ((single true .portfolio).boot (R := .simple))).1.1 :=
  (routed_iff .standard
    (rfl : create { wsApi := true } (oneAccount .portfolio) anySecret = some (single true .portfolio))
    (List.mem_singleton_self (⟨"A1", .portfolio⟩ : Account)) _ rfl []).mpr fun h => by cases h

end

end Controller
end BinanceFutures
