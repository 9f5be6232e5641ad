import BinanceFutures.Gateway.Routing

/-! # Cancel all orders

    A request to cancel all orders becomes one request to the exchange for each symbol that the serving
    stream remembers. Orders make symbols known to the stream that places them, downloads to the stream
    that downloads.

        ws_api off:   OrderEntryClassic, OrderEntryPortfolio   place, download, cancel all
        ws_api on:    WebSocket                                place
                      RestTrade                                download, cancel all

    So under `ws_api` a symbol whose orders have been placed, and not downloaded, is left out. -/

namespace BinanceFutures
open Machine

namespace RestStream

section
variable {R : LimitRequest}

/-- Of the symbols of a list, those that the filter selects are cancelled. -/
theorem mem_cancelSymbols (m : CancelAllOrders) (requestId symbol : String) :
    ∀ (symbols : List String) (w : World R),
      (∃ n, .request n (.allOpenOrders symbol requestId) ∈
        (seqAll (symbols.map (cancelSymbol m requestId)) w).2)
      ↔ symbol ∈ symbols ∧ m.selects symbol = true
  | [], w => by simp [seqAll]
  | symbol' :: symbols, w => by
      have hhead : (∃ n, .request n (.allOpenOrders symbol requestId) ∈
          (cancelSymbol m requestId symbol' w).2) ↔ symbol = symbol' ∧ m.selects symbol' = true := by
        unfold cancelSymbol
        split
        next hsel => simp [send, seq, hsel]
        next hsel => simp [hsel]
      simp only [List.map_cons, seqAll, seq_snd, List.mem_append, exists_or]
      rw [hhead, mem_cancelSymbols m requestId symbol symbols, List.mem_cons, or_and_right]
      refine or_congr ⟨?_, ?_⟩ Iff.rfl
      · rintro ⟨rfl, hsel⟩
        exact ⟨rfl, hsel⟩
      · rintro ⟨rfl, hsel⟩
        exact ⟨rfl, hsel⟩

/-- A stream cancels the symbols that it remembers. -/
theorem mem_openOrdersCancelAll (m : CancelAllOrders) (requestId symbol : String) (w : World R) :
    (∃ n, .request n (.allOpenOrders symbol requestId) ∈ (openOrdersCancelAll m requestId w).2)
    ↔ symbol ∈ w.stream.openOrdersSymbols ∧ m.selects symbol = true :=
  mem_cancelSymbols m requestId symbol _ w

end

end RestStream

namespace Controller
open Machine.Family

/-- What the order entry puts out, if it is a REST stream. -/
def Output.ofRest : Output → Option RestStream.Output
  | .rest o => some o
  | _ => none

/-- What the download puts out. -/
def Output.ofDownload : Output → Option RestStream.Output
  | .download o => some o
  | _ => none

theorem mem_ofRest {out : List Output} {o : RestStream.Output} :
    o ∈ out.filterMap Output.ofRest ↔ .rest o ∈ out := by
  rw [List.mem_filterMap]
  constructor
  · rintro ⟨o', ho', heq⟩
    cases o' with
    | rest o' => rwa [← Option.some.inj heq]
    | _ => cases heq
  · exact fun ho => ⟨_, ho, rfl⟩

theorem mem_ofDownload {out : List Output} {o : RestStream.Output} :
    o ∈ out.filterMap Output.ofDownload ↔ .download o ∈ out := by
  rw [List.mem_filterMap]
  constructor
  · rintro ⟨o', ho', heq⟩
    cases o' with
    | download o' => rwa [← Option.some.inj heq]
    | _ => cases heq
  · exact fun ho => ⟨_, ho, rfl⟩

section
variable {R : LimitRequest} (scanner : Json.Scanner) (settings : Settings)

/-! ### What is remembered -/

/-- The symbols that the order entry would cancel, if it is a REST stream. -/
def restSymbols : OrderEntry → List String
  | .webSocket _ => []
  | .rest stream => stream.openOrdersSymbols

/-- The symbols that the download would cancel. -/
def downloadSymbols : Option RestStream → List String
  | none => []
  | some stream => stream.openOrdersSymbols

/-- The symbols are those that the outputs have had to do with. -/
def Remembered (symbols : List String) (out : List RestStream.Output) : Prop :=
  ∀ symbol, symbol ∈ symbols ↔ ∃ o ∈ out, o.remembers symbol = true

theorem remembered_append {symbols symbols' : List String} {out os : List RestStream.Output}
    (h : Remembered symbols out)
    (h' : ∀ symbol, symbol ∈ symbols' ↔ symbol ∈ symbols ∨ ∃ o ∈ os, o.remembers symbol = true) :
    Remembered symbols' (out ++ os) := by
  intro symbol
  rw [h', h]
  constructor
  · rintro (⟨o, ho, hsymbol⟩ | ⟨o, ho, hsymbol⟩)
    · exact ⟨o, List.mem_append_left _ ho, hsymbol⟩
    · exact ⟨o, List.mem_append_right _ ho, hsymbol⟩
  · rintro ⟨o, ho, hsymbol⟩
    rcases List.mem_append.mp ho with hold | hnew
    · exact Or.inl ⟨o, hold, hsymbol⟩
    · exact Or.inr ⟨o, hnew, hsymbol⟩

/-- Both streams remember the symbols that they have had to do with. -/
structure Remembers (out : List Output) (s : Slice R) : Prop where
  rest : Remembered (restSymbols (wiring s).2.1) (out.filterMap Output.ofRest)
  download : Remembered (downloadSymbols (wiring s).2.2) (out.filterMap Output.ofDownload)

/-- A step that neither stream has a part in. -/
theorem remembers_aside {out os : List Output} {s s' : Slice R} (h : Remembers out s)
    (hwiring : wiring s' = wiring s) (hrest : os.filterMap Output.ofRest = [])
    (hdownload : os.filterMap Output.ofDownload = []) : Remembers (out ++ os) s' := by
  refine ⟨?_, ?_⟩
  · rw [hwiring, List.filterMap_append, hrest, List.append_nil]
    exact h.rest
  · rw [hwiring, List.filterMap_append, hdownload, List.append_nil]
    exact h.download

/-! ### What the turns put out -/

theorem outputs_createDropCopyHelper (variant : Variant) (listenKey : String) (s : Slice R) :
    (createDropCopyHelper settings variant listenKey s).2.filterMap Output.ofRest = [] ∧
      (createDropCopyHelper settings variant listenKey s).2.filterMap Output.ofDownload = [] := by
  unfold createDropCopyHelper
  split
  · exact ⟨rfl, rfl⟩
  · exact ⟨rfl, rfl⟩

theorem ofRest_handleRest (kind : RestStream.Kind) (o : RestStream.Output) (s : Slice R) :
    (handleRest settings kind o s).2.filterMap Output.ofRest = (some o).toList := by
  cases o with
  | listenKeyUpdate listenKey =>
    rw [handleRest, seq_snd, List.filterMap_append, (outputs_createDropCopyHelper settings _ _ _).1]
    rfl
  | _ => rfl

theorem ofDownload_handleRest (kind : RestStream.Kind) (o : RestStream.Output) (s : Slice R) :
    (handleRest settings kind o s).2.filterMap Output.ofDownload
      = (none : Option RestStream.Output).toList := by
  cases o with
  | listenKeyUpdate listenKey =>
    rw [handleRest, seq_snd, List.filterMap_append, (outputs_createDropCopyHelper settings _ _ _).2]
    rfl
  | _ => rfl

theorem outputs_handleWebSocket (o : WebSocket.Output) (s : Slice R) :
    (handleWebSocket settings o s).2.filterMap Output.ofRest
        = (none : Option RestStream.Output).toList ∧
      (handleWebSocket settings o s).2.filterMap Output.ofDownload
        = (none : Option RestStream.Output).toList := by
  cases o with
  | listenKeyUpdate listenKey =>
    obtain ⟨hrest, hdownload⟩ := outputs_createDropCopyHelper settings .classic listenKey s
    rw [handleWebSocket, seq_snd, List.filterMap_append, List.filterMap_append]
    refine ⟨?_, ?_⟩
    · rw [show (emit [Output.webSocket (.listenKeyUpdate listenKey)] s).1 = s from rfl, hrest]
      rfl
    · rw [show (emit [Output.webSocket (.listenKeyUpdate listenKey)] s).1 = s from rfl, hdownload]
      rfl
  | _ => exact ⟨rfl, rfl⟩

/-- What a REST order entry puts out is the order entry's. -/
theorem outputs_onRest (e : RestStream.Event) {s : Slice R} {stream : RestStream}
    (h : s.orderEntry = .rest stream) :
    (onRest settings e s).2.filterMap Output.ofRest
        = (RestStream.step settings e ⟨stream, s.request⟩).2 ∧
      (onRest settings e s).2.filterMap Output.ofDownload = [] := by
  unfold onRest
  rw [h]
  refine ⟨?_, ?_⟩
  · refine (filterMap_seqAll (ofRest_handleRest settings stream.kind) _ _).trans ?_
    exact List.filterMap_some
  · refine (filterMap_seqAll (ofDownload_handleRest settings stream.kind) _ _).trans ?_
    exact List.filterMap_eq_nil_iff.mpr fun _ _ => rfl

theorem outputs_onWebSocket (e : WebSocket.Event) (s : Slice R) :
    (onWebSocket scanner settings e s).2.filterMap Output.ofRest = [] ∧
      (onWebSocket scanner settings e s).2.filterMap Output.ofDownload = [] := by
  unfold onWebSocket
  split
  · exact ⟨rfl, rfl⟩
  · refine ⟨?_, ?_⟩
    · refine (filterMap_seqAll (fun o s => (outputs_handleWebSocket settings o s).1) _ _).trans ?_
      exact List.filterMap_eq_nil_iff.mpr fun _ _ => rfl
    · refine (filterMap_seqAll (fun o s => (outputs_handleWebSocket settings o s).2) _ _).trans ?_
      exact List.filterMap_eq_nil_iff.mpr fun _ _ => rfl

theorem outputs_onDropCopy (e : DropCopy.Event) (s : Slice R) :
    (onDropCopy settings e s).2.filterMap Output.ofRest = [] ∧
      (onDropCopy settings e s).2.filterMap Output.ofDownload = [] := by
  have hhandle : ∀ (o : DropCopy.Output) (s : Slice R),
      (handleDropCopy o s).2.filterMap Output.ofRest = (none : Option RestStream.Output).toList ∧
        (handleDropCopy o s).2.filterMap Output.ofDownload
          = (none : Option RestStream.Output).toList := by
    intro o s
    cases o <;> exact ⟨rfl, rfl⟩
  unfold onDropCopy
  split
  · exact ⟨rfl, rfl⟩
  · refine ⟨?_, ?_⟩
    · refine (filterMap_seqAll (fun o s => (hhandle o s).1) _ _).trans ?_
      exact List.filterMap_eq_nil_iff.mpr fun _ _ => rfl
    · refine (filterMap_seqAll (fun o s => (hhandle o s).2) _ _).trans ?_
      exact List.filterMap_eq_nil_iff.mpr fun _ _ => rfl

/-- What the download puts out is the download's. -/
theorem outputs_onDownload (e : RestStream.Event) {s : Slice R} {stream : RestStream}
    (h : s.download = some stream) :
    (onDownload settings e s).2.filterMap Output.ofRest = [] ∧
      (onDownload settings e s).2.filterMap Output.ofDownload
        = (RestStream.step settings e ⟨stream, s.request⟩).2 := by
  unfold onDownload
  rw [h]
  refine ⟨?_, ?_⟩
  · rw [List.filterMap_map]
    exact List.filterMap_eq_nil_iff.mpr fun _ _ => rfl
  · rw [List.filterMap_map]
    exact List.filterMap_some

/-- Whatever happens to the account, both streams remember what they have had to do with. -/
theorem remembers_reaction (account : String) (e : Event) :
    Keeps Remembers (reaction (R := R) scanner settings account e) := by
  refine Rules.reaction ⟨fun e out s h => ?_, fun e out s h => ?_, fun e out s h => ?_,
    fun e out s h => ?_, fun e out s h => remembers_aside h rfl rfl rfl,
    fun out s h => remembers_aside h rfl rfl rfl, fun out s h => remembers_aside h rfl rfl rfl⟩
    account e
  · cases hentry : s.orderEntry with
    | webSocket socket =>
      rw [onRest_of_webSocket settings e hentry]
      exact remembers_aside h rfl rfl rfl
    | rest stream =>
      obtain ⟨hrest, hdownload⟩ := outputs_onRest settings e hentry
      have heffect := RestStream.effect_step settings e ⟨stream, s.request⟩
      refine ⟨?_, ?_⟩
      · rw [wiring_onRest settings e hentry, List.filterMap_append, hrest]
        refine remembered_append h.rest fun symbol => ?_
        rw [wiring, hentry]
        exact heffect.symbols_iff symbol
      · rw [wiring_onRest settings e hentry, List.filterMap_append, hdownload, List.append_nil]
        exact h.download
  · obtain ⟨hrest, hdownload⟩ := outputs_onWebSocket scanner settings e s
    cases hentry : s.orderEntry with
    | rest stream =>
      rw [onWebSocket_of_rest scanner settings e hentry]
      exact remembers_aside h rfl rfl rfl
    | webSocket socket =>
      have hnone := h.rest
      rw [wiring, hentry] at hnone
      refine ⟨?_, ?_⟩
      · rw [wiring_onWebSocket scanner settings e hentry, List.filterMap_append, hrest,
          List.append_nil]
        exact hnone
      · rw [wiring_onWebSocket scanner settings e hentry, List.filterMap_append, hdownload,
          List.append_nil]
        exact h.download
  · obtain ⟨hrest, hdownload⟩ := outputs_onDropCopy settings e s
    exact remembers_aside h (frame_onDropCopy settings e s) hrest hdownload
  · cases hdownload : s.download with
    | none =>
      rw [onDownload_of_none settings e hdownload]
      exact remembers_aside h rfl rfl rfl
    | some stream =>
      obtain ⟨hrest, hout⟩ := outputs_onDownload settings e hdownload
      have heffect := RestStream.effect_step settings e ⟨stream, s.request⟩
      refine ⟨?_, ?_⟩
      · rw [wiring_onDownload settings e hdownload, List.filterMap_append, hrest, List.append_nil]
        exact h.rest
      · rw [wiring_onDownload settings e hdownload, List.filterMap_append, hout]
        refine remembered_append h.download fun symbol => ?_
        rw [wiring, hdownload]
        exact heffect.symbols_iff symbol

theorem remembers_createSlice (a : Account) (streamId : UInt16) :
    Remembers [] (createSlice (R := R) settings a streamId) := by
  obtain ⟨name, marginMode⟩ := a
  have hrest : restSymbols (wiring (createSlice (R := R) settings ⟨name, marginMode⟩ streamId)).2.1
      = [] := by
    cases hapi : settings.wsApi <;> cases marginMode <;>
      simp [wiring, createSlice, createOrderEntry, restSymbols, RestStream.create, hapi]
  have hdownload : downloadSymbols
      (wiring (createSlice (R := R) settings ⟨name, marginMode⟩ streamId)).2.2 = [] := by
    cases hapi : settings.wsApi <;> cases marginMode <;>
      simp [wiring, createSlice, createDownload, downloadSymbols, RestStream.create, hapi]
  refine ⟨fun symbol => ?_, fun symbol => ?_⟩
  · rw [hrest]
    simp
  · rw [hdownload]
    simp

end

/-! ### Requests to cancel all orders -/

/-- An order has been placed on the symbol. -/
def Output.places (symbol : String) : Output → Bool
  | .rest (.request _ (.orderPlace symbol' _ _ _ _)) => symbol' = symbol
  | .webSocket (.sendText _ (.orderPlace symbol' _ _ _)) => symbol' = symbol
  | _ => false

/-- A download has seen an open order on the symbol. -/
def Output.sees (symbol : String) : Output → Bool
  | .rest (.openOrder symbol' _) | .download (.openOrder symbol' _) => symbol' = symbol
  | _ => false

/-- The account may have live orders on the symbol. -/
def Live (account symbol : String) (out : List (String × Output)) : Prop :=
  ∃ o, (account, o) ∈ out ∧ (o.places symbol || o.sees symbol) = true

/-- The stream that serves requests to cancel all orders has placed an order on the symbol itself, or has
    itself seen an open order with a client order id. -/
def Known (settings : Settings) (account symbol : String) (out : List (String × Output)) : Prop :=
  ∃ o : RestStream.Output, o.remembers symbol = true ∧
    (account, if settings.wsApi then Output.download o else Output.rest o) ∈ out

/-- All orders on the symbol are cancelled at the exchange. -/
def Cancelled (account symbol requestId : String) (out : List (String × Output)) : Prop :=
  ∃ n, (account, .rest (.request n (.allOpenOrders symbol requestId))) ∈ out ∨
    (account, .download (.request n (.allOpenOrders symbol requestId))) ∈ out

section
variable {R : LimitRequest} (scanner : Json.Scanner)

/-- A REST order entry takes its turn alone. -/
theorem onOrderEntry_of_rest (settings : Settings) (rest : RestStream.Event)
    (webSocket : WebSocket.Event) {s : Slice R} {stream : RestStream}
    (h : s.orderEntry = .rest stream) :
    onOrderEntry scanner settings rest webSocket s = onRest settings rest s := by
  have hentry := congrArg (·.2.1) (wiring_onRest settings rest h)
  unfold onOrderEntry seq
  rw [onWebSocket_of_rest scanner settings webSocket hentry, List.append_nil]

/-- The account's streams cancel what the serving stream remembers. -/
theorem cancelled_onRequest {settings : Settings} {out : List Output} {s : Slice R}
    (h : Remembers out s) (hentry : settings.wsApi = false → ∃ stream, s.orderEntry = .rest stream)
    (m : CancelAllOrders) (requestId symbol : String) :
    (∃ n, .rest (.request n (.allOpenOrders symbol requestId)) ∈
          (onRequest scanner settings (.cancelAllOrders m requestId) s).2 ∨
        .download (.request n (.allOpenOrders symbol requestId)) ∈
          (onRequest scanner settings (.cancelAllOrders m requestId) s).2)
    ↔ (∃ o : RestStream.Output, o.remembers symbol = true ∧
        (if settings.wsApi then Output.download o else Output.rest o) ∈ out) ∧
      m.selects symbol = true := by
  simp only [← mem_ofRest, ← mem_ofDownload]
  cases hapi : settings.wsApi with
  | false =>
    obtain ⟨stream, hstream⟩ := hentry hapi
    obtain ⟨hrest, hdownload⟩ := outputs_onRest settings (.cancelAllOrders m requestId) hstream
    have hroute : route settings (.cancelAllOrders m requestId) s = .ok .orderEntry := by
      simp [route, hapi]
    have hsymbols := h.rest symbol
    rw [wiring, hstream, restSymbols] at hsymbols
    simp only [onRequest, hroute]
    rw [onOrderEntry_of_rest scanner settings _ _ hstream, ClientRequest.rest, hrest, hdownload]
    simp only [List.not_mem_nil, or_false, Bool.false_eq_true, if_false, ← mem_ofRest]
    rw [RestStream.step, RestStream.mem_openOrdersCancelAll, hsymbols]
    simp only [and_comm]
  | true =>
    have hroute : route settings (.cancelAllOrders m requestId) s = getRestTrade s := by
      simp [route, hapi]
    have hsymbols := h.download symbol
    simp only [onRequest, hroute, getRestTrade, if_true, ← mem_ofDownload]
    cases hstream : s.download with
    | none =>
      rw [wiring, hstream, downloadSymbols] at hsymbols
      refine iff_of_false ?_ ?_
      · rintro ⟨n, hmem | hmem⟩
        · cases hmem
        · cases hmem
      · rintro ⟨⟨o, hsymbol, ho⟩, -⟩
        exact List.not_mem_nil (hsymbols.mpr ⟨o, ho, hsymbol⟩)
    | some stream =>
      rw [wiring, hstream, downloadSymbols] at hsymbols
      obtain ⟨hrest, hdownload⟩ := outputs_onDownload settings (.cancelAllOrders m requestId) hstream
      dsimp only
      rw [ClientRequest.rest, hrest, hdownload]
      simp only [List.not_mem_nil, false_or]
      rw [RestStream.step, RestStream.mem_openOrdersCancelAll, hsymbols]
      simp only [and_comm]

end

section
variable {R : LimitRequest} (scanner : Json.Scanner) (c : Controller) {a : Account}

/-- Every symbol that the request selects, and on which the account may have live orders, is cancelled
    when the request is processed. -/
def CancelsAll (m : CancelAllOrders) (requestId : String)
    (ran : (State R × Bool) × List (String × Output)) : Prop :=
  ∀ symbol, m.selects symbol = true → Live m.account symbol ran.2 →
    Cancelled m.account symbol requestId
      (c.step scanner (.request (.cancelAllOrders m requestId)) ran.1.1).2

/-- After every run, a request cancels the symbols that it selects and the serving stream knows. -/
theorem cancelled_iff (ha : a ∈ c.accounts) (m : CancelAllOrders) (hm : m.account = a.name)
    (requestId symbol : String) (es : List Event) :
    Cancelled a.name symbol requestId (c.step scanner (.request (.cancelAllOrders m requestId))
      (c.execute (R := R) scanner es c.boot).1.1).2
    ↔ Known c.settings a.name symbol (c.execute (R := R) scanner es c.boot).2 ∧
      m.selects symbol = true := by
  have hstep : ∀ e, Keeps (fun out (s : Slice R) => Remembers out s ∧
      shape (wiring s) = shape (wiring (createSlice (R := R) c.settings a 0)))
      (reaction scanner c.settings a.name e) := fun e out s hs =>
    ⟨remembers_reaction scanner c.settings a.name e out s hs.1,
      (frame_reaction scanner c.settings a.name e s).trans hs.2⟩
  obtain ⟨s, hs, hremembers, hshape⟩ := of_execute (R := R) scanner c ha hstep
    (fun streamId => ⟨remembers_createSlice c.settings a streamId,
      by rw [shape_createSlice, shape_createSlice]⟩) es
  have hentry : c.settings.wsApi = false → ∃ stream, s.orderEntry = .rest stream := by
    intro hapi
    rw [shape_createSlice, shape, wiring, Prod.mk.injEq, Prod.mk.injEq] at hshape
    obtain ⟨-, hkind, -⟩ := hshape
    cases horder : s.orderEntry with
    | rest stream => exact ⟨stream, rfl⟩
    | webSocket socket =>
      rw [horder, hapi] at hkind
      dsimp only at hkind
      split at hkind <;> simp at hkind
  obtain ⟨-, hout⟩ :=
    seen_step (R := R) scanner c ha (.request (.cancelAllOrders m requestId)) _ s hs
  have hq : (ClientRequest.cancelAllOrders m requestId).account = a.name := hm
  rw [reaction, if_pos hq] at hout
  have hcancelled := cancelled_onRequest scanner hremembers hentry m requestId symbol
  simp only [← hout, mem_output] at hcancelled
  exact hcancelled

/-- EXACT: whatever has happened, a request to cancel all orders cancels every symbol that it selects and
    on which the account may have live orders, exactly if the serving stream knows all of them. -/
theorem cancelsAll_iff (ha : a ∈ c.accounts) (m : CancelAllOrders) (hm : m.account = a.name)
    (requestId : String) (es : List Event) :
    CancelsAll scanner c m requestId (c.execute (R := R) scanner es c.boot)
    ↔ ∀ symbol, m.selects symbol = true →
        Live a.name symbol (c.execute (R := R) scanner es c.boot).2 →
        Known c.settings a.name symbol (c.execute (R := R) scanner es c.boot).2 := by
  unfold CancelsAll
  rw [hm]
  constructor
  · intro h symbol hselects hlive
    exact ((cancelled_iff scanner c ha m hm requestId symbol es).mp (h symbol hselects hlive)).1
  · intro h symbol hselects hlive
    exact (cancelled_iff scanner c ha m hm requestId symbol es).mpr ⟨h symbol hselects hlive, hselects⟩

end

/-- An order is placed over the socket. -/
def placed : List Event := [
  .webSocket "A1" (.ready [.done]),
  .request (.createOrder { account := "A1", orderId := 1, symbol := "BTCUSDT" } 0 (.ok ""))]

/-- Under `ws_api` its symbol is left out. -/
theorem placed_not_cancelled :
    ¬ CancelsAll .standard (single true .cross) { account := "A1" } "1"
      ((single true .cross).execute .standard placed ((single true .cross).boot (R := .simple))) := by
  intro h
  have hlive : Live "A1" "BTCUSDT" ((single true .cross).execute .standard placed
      ((single true .cross).boot (R := .simple))).2 :=
    ⟨.webSocket (.sendText 0 (.orderPlace "BTCUSDT" 0 1 1)), by decide, rfl⟩
  obtain ⟨n, hn⟩ := h "BTCUSDT" rfl hlive
  have hnone : (((single true .cross).step .standard
      (.request (.cancelAllOrders { account := "A1" } "1"))
      ((single true .cross).execute .standard placed
        ((single true .cross).boot (R := .simple))).1.1).2) = [] := by decide
  rw [hnone] at hn
  rcases hn with hn | hn
  · cases hn
  · cases hn

/-- An order is placed over HTTP. -/
def posted : List Event := [
  .rest "A1" (.connected [.done]),
  .request (.createOrder { account := "A1", orderId := 1, symbol := "BTCUSDT" } 0 (.ok ""))]

/-- Without `ws_api` it is not. -/
theorem posted_cancelled :
    CancelsAll .standard (single false .cross) { account := "A1" } "1"
      ((single false .cross).execute .standard posted
        ((single false .cross).boot (R := .simple))) := by
  refine (cancelsAll_iff .standard (single false .cross) (a := ⟨"A1", .cross⟩)
    (List.mem_singleton_self _) _ rfl _ _).mpr ?_
  have hout : ((single false .cross).execute .standard posted
      ((single false .cross).boot (R := .simple))).2 = [
        ("A1", .rest .downloadBegin), ("A1", .rest (.streamStatus .ready "")),
        ("A1", .rest (.request 0 (.orderPlace "BTCUSDT" "" 0 1 1)))] := by decide
  rw [hout]
  rintro symbol - ⟨o, ho, hlive⟩
  refine ⟨.request 0 (.orderPlace "BTCUSDT" "" 0 1 1), ?_, by simp [single]⟩
  simp only [List.mem_cons, Prod.mk.injEq, true_and, List.not_mem_nil, or_false] at ho
  rcases ho with rfl | rfl | rfl
  · cases hlive
  · cases hlive
  · simpa [Output.places, Output.sees, RestStream.Output.remembers] using hlive

end Controller
end BinanceFutures
