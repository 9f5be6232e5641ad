import BinanceFutures.Gateway.RestStream
import BinanceFutures.Schemes.Latch

/-! # What a REST stream remembers

    Three things outlive the requests of a REST stream: its listen key, when the key is to be refreshed,
    and the symbols for which it would cancel all orders. Most of what the stream does concerns none of
    them; `Rules` says what an invariant of the three needs, and `Rules.step` that every event keeps it.

        listen key acknowledged ─▶ remembered; published only as the first
        order placed, open order downloaded ─▶ symbol remembered, for ever

    `Effect` says what an action does to the listen key and the symbols, and `effect_step` what an event
    does. -/

namespace BinanceFutures.RestStream
open Machine

/-- What is put out about listen keys. -/
def Output.latchEvent : Output → Option (Latch.Event String)
  | .listenKeyAck listenKey => some (.seen listenKey)
  | .listenKeyUpdate listenKey => some (.offer listenKey)
  | _ => none

/-- The stream has had to do with the symbol. -/
def Output.remembers (symbol : String) : Output → Bool
  | .request _ (.orderPlace symbol' _ _ _ _) => symbol' = symbol
  | .refused symbol' _ => symbol' = symbol
  | .openOrder symbol' clientOrderId => symbol' = symbol && clientOrderId ≠ ""
  | _ => false

/-- Neither is concerned. -/
def Output.plain : Output → Bool
  | .listenKeyAck _ | .listenKeyUpdate _ | .openOrder .. | .refused .. => false
  | .request _ (.orderPlace ..) => false
  | _ => true

/-- Nor has a refresh been forced in vain. -/
def Output.common : Output → Bool
  | .noListenKeyRefresh => false
  | o => o.plain

theorem plain_of_common {o : Output} (h : o.common = true) : o.plain = true := by
  cases o <;> first | exact h | cases h

theorem latchEvent_plain {o : Output} (h : o.plain = true) : o.latchEvent = none := by
  cases o <;> first | rfl | cases h

theorem remembers_plain {o : Output} (h : o.plain = true) (symbol : String) :
    o.remembers symbol = false := by
  cases o with
  | request n call => cases call <;> first | rfl | cases h
  | _ => first | rfl | cases h

/-- What the acknowledgement puts out: the first listen key is published. -/
def announcement (listenKey : String) : Option String → List (Latch.Event String)
  | none => []
  | some acked =>
    .seen acked :: if listenKey = "" ∧ acked ≠ "" then [.offer acked] else []

section
variable {R : LimitRequest} (settings : Settings)

/-! ### Rules -/

/-- The class, and what outlives the requests. -/
def World.memory (w : World R) : Kind × String × Nanos × List String :=
  (w.stream.kind, w.stream.listenKey, w.stream.listenKeyRefresh, w.stream.openOrdersSymbols)

/-- What an invariant of the memory needs: it survives what does not concern the memory, and what
    remembers symbols. -/
structure Rules (I : List Output → World R → Prop) : Prop where
  frame : ∀ {f : Act R}, Frame World.memory f → Silent (fun o => o.common = false) f → Keeps I f
  openOrder : ∀ item, Keeps I (openOrder settings item)
  orderPlace : ∀ m userId body, Keeps I (orderPlace m userId body)

variable {settings} {I : List Output → World R → Prop} (h : Rules settings I)
include h

theorem Rules.publish {f : World R → List Output} (hcommon : ∀ w, ∀ o ∈ f w, o.common = true) :
    Keeps I fun w => (w, f w) := by
  refine h.frame (fun _ => rfl) fun w o ho (hnot : o.common = false) => ?_
  rw [hcommon w o ho] at hnot
  cases hnot

theorem Rules.emit {o : Output} (hcommon : o.common = true) : Keeps I (emit [o]) :=
  h.publish fun _ o' ho' => by rw [List.mem_singleton.mp ho']; exact hcommon

theorem Rules.modify {f : World R → World R} (hf : ∀ w, (f w).memory = w.memory) :
    Keeps I (modify f) :=
  h.frame hf fun _ _ ho => by cases ho

theorem Rules.setStatus (status : ConnectionStatus) (reason : String) :
    Keeps I (setStatus status reason) :=
  h.frame (fun _ => rfl) fun w o ho hnot => by rw [List.mem_singleton.mp ho] at hnot; cases hnot

theorem Rules.send {call : Call} (hcommon : ∀ n, (Output.request n call).common = true) :
    Keeps I (send call) :=
  h.frame (fun _ => rfl) fun w o ho hnot => by
    rw [List.mem_singleton.mp ho, hcommon] at hnot
    cases hnot

theorem Rules.commit (c : Slot) (call : Call) (now : Nanos) : Keeps I (commit c call now) :=
  h.frame (fun _ => rfl) fun w o ho hnot => by rw [List.mem_singleton.mp ho] at hnot; cases hnot

theorem Rules.visit (visits : List State) : Keeps I (visit visits) := by
  refine keeps_map fun state _ => ?_
  cases state with
  | undefined => exact keeps_skip I
  | listenKey => exact keeps_seq (h.setStatus _ _) (h.send fun _ => rfl)
  | done => exact h.setStatus _ _

/-! ### Answers -/

omit h in
theorem keeps_logError (origin : Origin) (status : RequestStatus) (error : Error) (text : String) :
    Keeps I (logError origin status error text) := keeps_skip I

/-- What follows a response keeps what the handlers and what comes after them keep. -/
theorem Rules.reply {α : Type} {kind : Kind} {r : RestResponse α} {onError : OnError R}
    {onSuccess : α → Act R} {after : Act R}
    (herror : ∀ origin status error text, Keeps I (onError origin status error text))
    (hsuccess : ∀ body, Keeps I (onSuccess body)) (hafter : Keeps I after) :
    Keeps I (andThen (processResponse settings kind r onError onSuccess) after) := by
  cases hreply : processResponse settings kind r onError onSuccess with
  | none => exact h.emit rfl
  | some f =>
    exact keeps_seq (keeps_processResponse settings (fun _ => h.emit rfl) herror hsuccess hreply) hafter

theorem Rules.orderAnswered (call : Call) (now : Nanos) : Keeps I (orderAnswered call now) := by
  have hcount : Keeps I (Machine.modify fun w : World R => { w with
      stream.downloadStaleOrdersCounter := w.stream.downloadStaleOrdersCounter - 1 }) :=
    h.modify fun _ => rfl
  refine keeps_of_eq fun w => ?_
  by_cases hzero : w.stream.downloadStaleOrdersCounter - 1 = 0
  · refine ⟨_, ?_, keeps_seq hcount (h.commit .staleOrders call now)⟩
    simp [RestStream.orderAnswered, hzero, seq]
  · refine ⟨_, ?_, hcount⟩
    simp [RestStream.orderAnswered, hzero]

theorem Rules.getTradesAck (kind : Kind) (symbol : String) (r : RestResponse (List Json.Trade))
    (now : Nanos) (d : Dispatcher) : Keeps I (getTradesAck settings kind symbol r now d) := by
  refine h.reply keeps_logError (fun items => ?_) (h.commit _ _ _)
  refine h.frame (fun _ => rfl) fun w o ho hnot => ?_
  obtain ⟨item, _, rfl⟩ := List.mem_map.mp ho
  cases hnot

theorem Rules.orderError (t : Target) (origin : Origin) (status : RequestStatus) (error : Error)
    (text : String) : Keeps I (orderError t origin status error text) :=
  h.emit rfl

theorem Rules.orderAck (kind : Kind) (t : Target) (status : RequestStatus) (ack : Json.Order) :
    Keeps I (orderAck settings kind t status ack) := by
  refine h.frame (fun w => ?_) (fun w o ho => ?_)
  · unfold RestStream.orderAck
    dsimp only
    split <;> rfl
  · unfold RestStream.orderAck at ho
    dsimp only at ho
    split at ho <;> simp only [List.mem_cons, List.not_mem_nil, or_false] at ho
    · rw [ho]
      nofun
    · rcases ho with rfl | rfl <;> nofun

/-- Every answer but a listen key. -/
theorem Rules.acknowledge (kind : Kind) (env : Answers) (d : Dispatcher) (call : Call)
    (r : RestResponse call.Ack) (hcall : call ≠ .listenKey) :
    Keeps I (acknowledge settings kind env d call r) := by
  have hskip : ∀ a : Unit, Keeps I (skip : Act R) := fun _ => keeps_skip I
  cases call with
  | listenKey => exact absurd rfl hcall
  | accountBalance polling =>
    refine h.reply keeps_logError hskip ?_
    cases polling with
    | true => exact keeps_skip I
    | false => exact h.commit _ _ _
  | accountStatus | position => exact h.reply keeps_logError hskip (h.commit _ _ _)
  | openOrders =>
    exact h.reply keeps_logError (fun items => keeps_map fun item _ => h.openOrder item)
      (h.commit _ _ _)
  | order clientOrderId =>
    exact h.reply (fun _ _ _ _ => h.publish fun _ o ho => by rw [List.mem_singleton.mp ho]; rfl)
      (fun _ => h.publish fun _ o ho => by rw [List.mem_singleton.mp ho]; rfl) (h.orderAnswered _ _)
  | userTrades symbol => exact h.getTradesAck kind symbol r env.now d
  | orderPlace symbol body userId orderId version =>
    exact h.reply (h.orderError _) (h.orderAck kind _ _) (keeps_skip I)
  | orderModify body userId orderId version =>
    refine h.reply (h.orderError _) (fun ack => ?_) (keeps_skip I)
    have haccepted : Keeps I (if settings.experimental.disableFastOrderAck then skip
        else RestStream.orderAck settings kind ⟨.modifyOrder, userId, orderId, version⟩
          ack.status.mapRequestStatus ack) := by
      split
      · exact keeps_skip I
      · exact h.orderAck _ _ _ _
    split <;> first | exact haccepted | exact h.orderError _ _ _ _ _
  | orderCancel body userId orderId version =>
    refine h.reply (h.orderError _) (fun ack => ?_) (keeps_skip I)
    split
    · exact h.orderError _ _ _ _ _
    · split
      · exact keeps_skip I
      · exact h.orderAck _ _ _ _
  | allOpenOrders symbol requestId =>
    exact h.reply keeps_logError
      (fun _ => h.publish fun _ o ho => by rw [List.mem_singleton.mp ho]; rfl) (keeps_skip I)
  | countdownCancelAll symbol => exact h.reply keeps_logError hskip (keeps_skip I)

/-- A response without a listen key at most has the download try again. -/
theorem Rules.getListenKeyAck (kind : Kind) (r : RestResponse String) (env : Answers)
    (hr : ∀ listenKey, r ≠ .success (.ok listenKey)) :
    Keeps I (getListenKeyAck settings kind r env) := by
  have hretry : Keeps I (if env.downloading then
      seq (Machine.emit [.downloadRetry .listenKey]) (RestStream.visit env.visits) else skip) := by
    split
    · exact keeps_seq (h.emit rfl) (h.visit _)
    · exact keeps_skip I
  -- the handler of success does not run, so any other in its place is as good
  have hother : RestStream.getListenKeyAck (R := R) settings kind r env =
      andThen (processResponse settings kind r (fun _ _ _ _ => if env.downloading then
        seq (Machine.emit [.downloadRetry .listenKey]) (RestStream.visit env.visits) else skip)
        fun _ => skip) skip := by
    cases r with
    | success body =>
      cases body with
      | ok listenKey => exact absurd rfl (hr listenKey)
      | error e => rfl
    | _ => rfl
  rw [hother]
  exact h.reply (fun _ _ _ _ => hretry) (fun _ => keeps_skip I) (keeps_skip I)

/-! ### Requests -/

theorem Rules.sendEncoded {body : Except Exn String} {call : String → Call}
    (hcommon : ∀ n body, (Output.request n (call body)).common = true) :
    Keeps I (sendEncoded body call) := by
  cases body with
  | ok body => exact h.send fun n => hcommon n body
  | error e => exact h.emit rfl

theorem Rules.orderModify (m : ModifyOrder) (userId : UserId) (body : Except Exn String) :
    Keeps I (orderModify m userId body) := by
  refine keeps_of_eq fun w => ?_
  unfold RestStream.orderModify
  split
  · exact ⟨_, rfl, h.sendEncoded fun _ _ => rfl⟩
  · exact ⟨Machine.emit _, rfl, h.emit rfl⟩

theorem Rules.orderCancel (m : CancelOrder) (userId : UserId) (body : Except Exn String) :
    Keeps I (orderCancel m userId body) := by
  refine keeps_of_eq fun w => ?_
  unfold RestStream.orderCancel
  split
  · exact ⟨_, rfl, h.sendEncoded fun _ _ => rfl⟩
  · exact ⟨Machine.emit _, rfl, h.emit rfl⟩

theorem Rules.orderAction {f : Act R} (hf : Keeps I f) : Keeps I (orderAction f) := by
  refine keeps_of_eq fun w => ?_
  unfold RestStream.orderAction
  split
  · exact ⟨Machine.emit _, rfl, h.emit rfl⟩
  · exact ⟨f, rfl, hf⟩

theorem Rules.openOrdersCancelAll (m : CancelAllOrders) (requestId : String) :
    Keeps I (openOrdersCancelAll m requestId) := by
  refine keeps_of_eq fun w => ⟨seqAll (w.stream.openOrdersSymbols.map (cancelSymbol m requestId)), rfl,
    keeps_map fun symbol _ => keeps_of_eq fun w => ?_⟩
  unfold cancelSymbol
  split
  · exact ⟨_, rfl, keeps_seq (h.send fun _ => rfl) (h.emit rfl)⟩
  · exact ⟨skip, rfl, keeps_skip I⟩

/-! ### Timer -/

theorem Rules.serve (kind : Kind) (d : Dispatcher) (c : Slot) : Keeps I (serve settings kind d c) := by
  cases c with
  | balances | positions | positionsPm | openOrders => exact h.send fun _ => rfl
  | trades =>
    cases kind with
    | restTrade => exact h.modify fun _ => rfl
    | orderEntryClassic | orderEntryPortfolio => exact keeps_map fun symbol _ => h.send fun _ => rfl
  | staleOrders =>
    have hcount : Keeps I (Machine.modify fun w : World R => { w with
        stream.downloadStaleOrdersCounter := w.stream.downloadStaleOrdersCounter + 1 }) :=
      h.modify fun _ => rfl
    have hclear : Keeps I (Machine.modify fun w : World R =>
        { w with request.detailsStaleOrders := [] }) := h.modify fun _ => rfl
    intro out w
    refine keeps_seq (keeps_map fun key _ => keeps_of_eq fun w => ?_) hclear out w
    unfold getOrder
    cases horder : d.findOrderById key.1 key.2 with
    | none => exact ⟨skip, rfl, keeps_skip I⟩
    | some order =>
      have hsend : Keeps I (RestStream.send (R := R) (.order order.clientOrderId)) :=
        h.send fun _ => rfl
      exact ⟨_, rfl, keeps_seq hcount hsend⟩

theorem Rules.checkPending (kind : Kind) (now : Nanos) (gate : Slot → Bool) (d : Dispatcher)
    (c : Slot) : Keeps I (checkPending settings kind now gate d c) := by
  have hslot : Keeps I (Machine.modify fun w : World R => { w with
      request := w.request.checkPending c now (gate c) }) := h.modify fun _ => rfl
  intro out w hI
  have hchecked := hslot out w hI
  rw [modify_apply, List.append_nil] at hchecked
  unfold RestStream.checkPending
  dsimp only
  split
  · have hserved := h.serve kind d c out _ hchecked
    rw [← List.append_assoc]
    exact h.emit rfl _ _ hserved
  · rw [List.append_nil]
    exact hchecked

theorem Rules.checkRequestQueue (kind : Kind) (now : Nanos) (gate : Slot → Bool) (d : Dispatcher) :
    Keeps I (checkRequestQueue settings kind now gate d) :=
  keeps_map fun c _ => h.checkPending kind now gate d c

theorem Rules.refreshBalance (now : Nanos) : Keeps I (refreshBalance settings now) := by
  have hset : Keeps I (Machine.modify fun w : World R => { w with
      stream.balanceRefresh := now + settings.misc.pollBalanceFreq }) := h.modify fun _ => rfl
  have hsend : Keeps I (RestStream.send (R := R) (.accountBalance true)) := h.send fun _ => rfl
  refine keeps_of_eq fun w => ?_
  unfold RestStream.refreshBalance
  split
  · exact ⟨skip, rfl, keeps_skip I⟩
  · split
    · exact ⟨skip, rfl, keeps_skip I⟩
    · exact ⟨_, rfl, keeps_seq hset hsend⟩

theorem Rules.autoCancel (now : Nanos) : Keeps I (autoCancel settings now) := by
  have hset : Keeps I (Machine.modify fun w : World R => { w with
      stream.nextAutoCancel := now + settings.rest.orderCountdown / 4 }) := h.modify fun _ => rfl
  have hcountdown : Keeps I (countdownCancelAll (R := R)) := keeps_of_eq fun w =>
    ⟨seqAll (w.stream.openOrdersSymbols.map fun symbol => RestStream.send (.countdownCancelAll symbol)),
      rfl, keeps_map fun symbol _ => h.send fun _ => rfl⟩
  refine keeps_of_eq fun w => ?_
  unfold RestStream.autoCancel
  split
  · exact ⟨_, rfl, keeps_seq hset hcountdown⟩
  · exact ⟨skip, rfl, keeps_skip I⟩

/-- A timer keeps what refreshing the listen key keeps. -/
theorem Rules.timer {now : Nanos} (hrefresh : Keeps I (refreshListenKey settings now))
    (gate : Slot → Bool) (d : Dispatcher) (kind : Kind) :
    Keeps I (timer settings now gate d kind) := by
  have hqueue : ∀ kind, Keeps I (RestStream.checkRequestQueue settings kind now gate d) := fun kind =>
    h.checkRequestQueue kind now gate d
  cases kind with
  | orderEntryClassic =>
    exact keeps_seq hrefresh (keeps_seq (h.autoCancel now) (keeps_seq (hqueue _) (keeps_skip I)))
  | orderEntryPortfolio =>
    exact keeps_seq hrefresh (keeps_seq (h.refreshBalance now) (keeps_seq (hqueue _) (keeps_skip I)))
  | restTrade => exact hqueue _

/-! ### Events -/

theorem Rules.connected (visits : List State) (kind : Kind) : Keeps I (connected visits kind) := by
  cases kind with
  | restTrade => exact h.setStatus _ _
  | orderEntryClassic | orderEntryPortfolio => exact keeps_seq (h.emit rfl) (h.visit _)

theorem Rules.disconnected (kind : Kind) : Keeps I (disconnected kind) := by
  cases kind with
  | restTrade => exact h.setStatus _ _
  | orderEntryClassic | orderEntryPortfolio => exact keeps_seq (h.setStatus _ _) (h.emit rfl)

omit h in
/-- An event keeps the invariant, or leads to the one after the listen key that it acknowledges. -/
theorem Rules.step {I : Option String → List Output → World R → Prop}
    (h : ∀ key, Rules settings (I key)) {e : Event}
    (hrefresh : ∀ now refresh gate d, e = .timer now refresh gate d →
      Keeps (I none) (refreshListenKey settings now))
    (hforce : ∀ now, e = .forceListenKeyRefresh now → Keeps (I none) (forceListenKeyRefresh now))
    (hack : ∀ n listenKey env d, e = .answer n .listenKey (.success (.ok listenKey)) env d →
      Triple (I none) (listenKeyAck settings env.now listenKey) (I (some listenKey)))
    {out : List Output} {w : World R} (hI : I none out w) :
    I (w.stream.acknowledged e) (out ++ (step settings e w).2) (step settings e w).1 := by
  have hnone := h none
  cases e with
  | start | stop => exact hnone.emit rfl out w hI
  | timer now refresh gate d =>
    refine keeps_guarded _ (fun out w _ hI => ?_) out w hI
    exact hnone.timer (hrefresh now refresh gate d rfl) gate d w.stream.kind out w hI
  | connected visits => exact hnone.connected visits w.stream.kind out w hI
  | disconnected => exact hnone.disconnected w.stream.kind out w hI
  | latency => exact keeps_skip _ out w hI
  | createOrder m userId body => exact hnone.orderAction (hnone.orderPlace m userId body) out w hI
  | modifyOrder m userId body => exact hnone.orderAction (hnone.orderModify m userId body) out w hI
  | cancelOrder m userId body => exact hnone.orderAction (hnone.orderCancel m userId body) out w hI
  | cancelAllOrders m requestId => exact hnone.openOrdersCancelAll m requestId out w hI
  | forceListenKeyRefresh now => exact hforce now rfl out w hI
  | answer n call r env d =>
    have hsettled : I none out { w with stream.calls := w.stream.calls.settle n } := by
      have hmodify := hnone.modify (f := fun w : World R =>
        { w with stream.calls := w.stream.calls.settle n }) (fun _ => rfl) out w hI
      rwa [modify_apply, List.append_nil] at hmodify
    simp only [RestStream.step, answer]
    split
    next hmem =>
      by_cases hcall : call = .listenKey
      · subst hcall
        have hother : (∀ listenKey, r ≠ .success (.ok listenKey)) →
            I none (out ++ (RestStream.acknowledge settings w.stream.kind env d .listenKey r
                { w with stream.calls := w.stream.calls.settle n }).2)
              (RestStream.acknowledge settings w.stream.kind env d .listenKey r
                { w with stream.calls := w.stream.calls.settle n }).1 := fun hr =>
          hnone.getListenKeyAck w.stream.kind r env hr out _ hsettled
        match r with
        | .success (.ok listenKey) =>
          have hkey : acknowledged w.stream (.answer n .listenKey (.success (.ok listenKey)) env d)
              = some listenKey := if_pos hmem
          have hsome := h (some listenKey)
          have hvisit : Keeps (I (some listenKey)) (seqAll [Machine.emit [.downloadCheckRelaxed .listenKey],
              RestStream.visit env.visits]) :=
            keeps_seq (hsome.emit rfl) (keeps_seq (hsome.visit _) (keeps_skip _))
          rw [hkey]
          exact triple_seq (triple_seq (hack n listenKey env d rfl) hvisit) (keeps_skip _) _ _ hsettled
        | .success (.error e) => exact hother (by simp)
        | .unexpected e => exact hother (by simp)
        | .redirection => exact hother (by simp)
        | .clientError status text retryAfter body => exact hother (by simp)
        | .serverError text => exact hother (by simp)
        | .raised e => exact hother (by simp)
      · have hkey : acknowledged w.stream (.answer n call r env d) = none := by
          cases call <;> first | rfl | exact absurd rfl hcall
        rw [hkey]
        exact hnone.acknowledge w.stream.kind env d call r hcall out _ hsettled
    next hmem =>
      have hkey : acknowledged w.stream (.answer n call r env d) = none := by
        unfold acknowledged
        split
        · next heq =>
          cases heq
          exact if_neg hmem
        · rfl
      rw [hkey, List.append_nil]
      exact hI

end

/-! ### What an event does -/

section
variable {R : LimitRequest} (settings : Settings)

/-- What has been put out since the world was `w₀`, and what the world is now, if a listen key was
    acknowledged in between, or none was. -/
structure Effect (key : Option String) (w₀ : World R) (out : List Output) (w : World R) : Prop where
  kind_eq : w.stream.kind = w₀.stream.kind
  listenKey_eq : w.stream.listenKey = key.getD w₀.stream.listenKey
  trace_eq : out.filterMap Output.latchEvent = announcement w₀.stream.listenKey key
  symbols_iff : ∀ symbol, symbol ∈ w.stream.openOrdersSymbols ↔
    symbol ∈ w₀.stream.openOrdersSymbols ∨ ∃ o ∈ out, o.remembers symbol = true

/-- An action that acknowledges no listen key. -/
def Plain (f : Act R) : Prop := ∀ key w₀, Keeps (Effect key w₀) f

theorem effect_refl (w : World R) : Effect none w [] w :=
  ⟨rfl, rfl, rfl, fun symbol => by simp⟩

/-- What is put out next may remember symbols, if the stream does, too. -/
theorem effect_append {key : Option String} {w₀ w w' : World R} {out os : List Output}
    (h : Effect key w₀ out w) (hkind : w'.stream.kind = w.stream.kind)
    (hkey : w'.stream.listenKey = w.stream.listenKey)
    (htrace : ∀ o ∈ os, o.latchEvent = none)
    (hsymbols : ∀ symbol, symbol ∈ w'.stream.openOrdersSymbols ↔
      symbol ∈ w.stream.openOrdersSymbols ∨ ∃ o ∈ os, o.remembers symbol = true) :
    Effect key w₀ (out ++ os) w' := by
  refine ⟨hkind.trans h.kind_eq, hkey.trans h.listenKey_eq, ?_, fun symbol => ?_⟩
  · rw [List.filterMap_append, List.filterMap_eq_nil_iff.mpr htrace, List.append_nil]
    exact h.trace_eq
  · rw [hsymbols, h.symbols_iff, or_assoc]
    refine or_congr Iff.rfl ⟨?_, ?_⟩
    · rintro (⟨o, ho, hsymbol⟩ | ⟨o, ho, hsymbol⟩)
      · exact ⟨o, List.mem_append_left _ ho, hsymbol⟩
      · exact ⟨o, List.mem_append_right _ ho, hsymbol⟩
    · rintro ⟨o, ho, hsymbol⟩
      rcases List.mem_append.mp ho with hold | hnew
      · exact Or.inl ⟨o, hold, hsymbol⟩
      · exact Or.inr ⟨o, hnew, hsymbol⟩

/-- An action that remembers nothing. -/
theorem plain_of_frame {f : Act R}
    (hframe : ∀ w, (f w).1.stream.kind = w.stream.kind ∧
      (f w).1.stream.listenKey = w.stream.listenKey ∧
      (f w).1.stream.openOrdersSymbols = w.stream.openOrdersSymbols)
    (hplain : ∀ w, ∀ o ∈ (f w).2, o.plain = true) : Plain f := by
  intro key w₀ out w h
  obtain ⟨hkind, hkey, hsymbols⟩ := hframe w
  refine effect_append h hkind hkey (fun o ho => latchEvent_plain (hplain w o ho)) fun symbol => ?_
  rw [hsymbols]
  refine (or_iff_left ?_).symm
  rintro ⟨o, ho, hsymbol⟩
  rw [remembers_plain (hplain w o ho)] at hsymbol
  cases hsymbol

/-- An open order is remembered by its symbol, unless it has no client order id. -/
theorem plain_openOrder (item : Json.Order) : Plain (R := R) (openOrder settings item) := by
  intro key w₀ out w h
  unfold openOrder
  split
  next hid =>
    refine effect_append h rfl rfl (by simp [Output.latchEvent]) fun symbol => ?_
    simp [Output.remembers, hid]
  next hid =>
    refine effect_append h rfl rfl (by simp [Output.latchEvent]) fun symbol => ?_
    rw [mem_emplace]
    simp [Output.remembers, hid, @eq_comm _ symbol]

/-- The symbol of an order is remembered before the order is encoded. -/
theorem plain_orderPlace (m : CreateOrder) (userId : UserId) (body : Except Exn String) :
    Plain (R := R) (orderPlace m userId body) := by
  intro key w₀ out w h
  unfold orderPlace
  split
  · cases body with
    | ok body =>
      refine effect_append h rfl rfl (by simp [send, Output.latchEvent]) fun symbol => ?_
      simp only [send]
      rw [mem_emplace]
      simp [Output.remembers, @eq_comm _ symbol]
    | error e =>
      refine effect_append h rfl rfl (by simp [Output.latchEvent]) fun symbol => ?_
      rw [mem_emplace]
      simp [Output.remembers, @eq_comm _ symbol]
  · exact effect_append h rfl rfl (by simp [Output.latchEvent]) fun symbol => by simp [Output.remembers]

theorem plain_refreshListenKey (now : Nanos) : Plain (R := R) (refreshListenKey settings now) := by
  refine plain_of_frame (fun w => ?_) (fun w o ho => ?_)
  · unfold refreshListenKey
    split <;> exact ⟨rfl, rfl, rfl⟩
  · unfold refreshListenKey at ho
    split at ho
    · cases ho
    · rw [List.mem_singleton.mp ho]
      rfl

theorem plain_forceListenKeyRefresh (now : Nanos) :
    Plain (R := R) (forceListenKeyRefresh now) := by
  refine plain_of_frame (fun w => ?_) (fun w o ho => ?_)
  · unfold forceListenKeyRefresh
    split <;> exact ⟨rfl, rfl, rfl⟩
  · unfold forceListenKeyRefresh at ho
    split at ho
    · cases ho
    · rw [List.mem_singleton.mp ho]
      rfl

/-- The acknowledgement of a listen key is the only thing that acknowledges one. -/
theorem effect_listenKeyAck (now : Nanos) (listenKey : String) (w₀ : World R) :
    Triple (Effect none w₀) (listenKeyAck settings now listenKey) (Effect (some listenKey) w₀) := by
  intro out w h
  refine ⟨h.kind_eq, rfl, ?_, fun symbol => ?_⟩
  · have hkey : w.stream.listenKey = w₀.stream.listenKey := h.listenKey_eq
    rw [List.filterMap_append, h.trace_eq, listenKeyAck, hkey, announcement, announcement,
      List.nil_append]
    by_cases hinitial : w₀.stream.listenKey = ""
    · by_cases hempty : listenKey = "" <;>
        simp [hinitial, hempty, Output.latchEvent]
    · simp [hinitial, Output.latchEvent]
  · rw [listenKeyAck, h.symbols_iff]
    refine or_congr Iff.rfl ⟨?_, ?_⟩
    · rintro ⟨o, ho, hsymbol⟩
      exact ⟨o, List.mem_append_left _ ho, hsymbol⟩
    · rintro ⟨o, ho, hsymbol⟩
      rcases List.mem_append.mp ho with hold | hnew
      · exact ⟨o, hold, hsymbol⟩
      · dsimp only at hnew
        split at hnew <;> simp only [List.mem_cons, List.not_mem_nil, or_false] at hnew
        · rcases hnew with rfl | rfl <;> cases hsymbol
        · rw [hnew] at hsymbol
          cases hsymbol

theorem rules_effect (key : Option String) (w₀ : World R) : Rules settings (Effect key w₀) where
  frame hmemory hcommon := by
    refine plain_of_frame (fun w => ?_) (fun w o ho => ?_) key w₀
    · have hsame := hmemory w
      simp only [World.memory, Prod.mk.injEq] at hsame
      exact ⟨hsame.1, hsame.2.1, hsame.2.2.2⟩
    · exact plain_of_common (by simpa using hcommon w o ho)
  openOrder item := plain_openOrder settings item key w₀
  orderPlace m userId body := plain_orderPlace m userId body key w₀

/-- What an event does to what a stream remembers. -/
theorem effect_step (e : Event) (w : World R) :
    Effect (acknowledged w.stream e) w (step settings e w).2 (step settings e w).1 :=
  Rules.step (fun key => rules_effect settings key w)
    (fun now _ _ _ _ => plain_refreshListenKey settings now none w)
    (fun now _ => plain_forceListenKeyRefresh now none w)
    (fun _ listenKey env _ _ => effect_listenKeyAck settings env.now listenKey w) (effect_refl w)

end

end BinanceFutures.RestStream
