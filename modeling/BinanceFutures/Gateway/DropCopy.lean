import BinanceFutures.Gateway.Request
import BinanceFutures.Gateway.UserStream
import BinanceFutures.Schemes.Machine
import Mathlib.Algebra.Ring.Nat

/-! # Drop copy

    `DropCopyClassic` and `DropCopyPortfolio`: the user stream of an account. Once its WebSocket is
    ready a drop copy downloads, state after state, by opening a slot of the account's `Request` and
    checking on the timer whether the order-entry stream has committed it.

        GET_BALANCES ─▶ GET_POSITIONS ─▶ (GET_POSITIONS_PM) ─▶ GET_OPEN_ORDERS ─▶ GET_STALE_ORDERS
                     ─▶ GET_TRADES ─▶ DONE

    The connection and `core::Download2` belong to the client library. An event carries what they and
    the dispatcher answer while it is handled; in particular `visits` are the states for which the
    download runs its callback when it is begun or checked. -/

namespace BinanceFutures
open Machine

/-- The two classes. -/
inductive Variant where | classic | portfolio
  deriving DecidableEq

namespace DropCopy

/-- `State`, the portfolio's enumeration; the classic one has no `getPositionsPm`. -/
inductive State where
  | undefined | getBalances | getPositions | getPositionsPm | getOpenOrders | getStaleOrders
  | getTrades | done
  deriving DecidableEq

/-- `magic_enum::enum_name` -/
def State.name : State → String
  | .undefined => "UNDEFINED"
  | .getBalances => "GET_BALANCES"
  | .getPositions => "GET_POSITIONS"
  | .getPositionsPm => "GET_POSITIONS_PM"
  | .getOpenOrders => "GET_OPEN_ORDERS"
  | .getStaleOrders => "GET_STALE_ORDERS"
  | .getTrades => "GET_TRADES"
  | .done => "DONE"

/-- The slot whose response a state waits for. -/
def State.slot : State → Option Slot
  | .undefined => none
  | .getBalances => some .balances
  | .getPositions => some .positions
  | .getPositionsPm => some .positionsPm
  | .getOpenOrders => some .openOrders
  | .getStaleOrders => some .staleOrders
  | .getTrades => some .trades
  | .done => none

end DropCopy

/-- The members of a drop copy, and of its `core::Download2`: the state the download is in, and whether
    the callback has asked it to wait there. -/
structure DropCopy where
  variant : Variant
  account : String
  listenKey : String
  connectionStatus : ConnectionStatus := .undefined
  downloadState : DropCopy.State := .undefined
  waiting : Bool := false
  stop : Bool := false
  balanceRefresh : Nanos := 0
  nextCheckStaleOrders : Nanos := 0

namespace DropCopy

/-- A drop copy and the account's slots, which it shares with the order-entry stream. -/
structure World (R : LimitRequest) where
  dropCopy : DropCopy
  request : Request R

inductive Output where
  | fatal
  | connectionStart | connectionStop | connectionClose
  | streamStatus (status : ConnectionStatus) (reason : String)
  | downloadBegin
  | downloadCheck (state : State)
  | downloadReset
  | published (m : Published)
  | remove (account : String)
  deriving DecidableEq

inductive Event where
  | start
  | stop
  | timer (now : Nanos) (refresh : Bool) (d : Dispatcher) (visits : List State)
  | connected
  | disconnected
  | ready (now : Nanos) (visits : List State)
  | close
  | latency
  /-- A text message, or `none` if the parser throws. -/
  | text (d : Dispatcher) (m : Option Json.UserStreamEvent)
  | binary

section
variable {R : LimitRequest} (settings : Settings)

/-- `operator()(Trace<ConnectionStatus>)` -/
def setStatus (status : ConnectionStatus) (reason : String) : Action (World R) Output := fun w =>
  ({ w with dropCopy.connectionStatus := status }, [.streamStatus status reason])

/-- The callback of the download returns 1 after it has opened the slot. -/
def openSlot (state : State) (c : Slot) (now : Nanos) : Action (World R) Output :=
  seq (setStatus .downloading state.name) (modify fun w =>
    { w with dropCopy.waiting := true, request := w.request.request c now })

/-- The callback returns 0. -/
def pass : Action (World R) Output := modify fun w => { w with dropCopy.waiting := false }

/-- The body of `download`, one branch a state. -/
def downloadBody (now : Nanos) : State → Action (World R) Output
  | .undefined => pass
  | .getBalances => openSlot .getBalances .balances now
  | .getPositions => openSlot .getPositions .positions now
  | .getPositionsPm => fun w =>
    if w.dropCopy.variant = .portfolio then openSlot .getPositionsPm .positionsPm now w else pass w
  | .getOpenOrders => openSlot .getOpenOrders .openOrders now
  | .getStaleOrders => fun w =>
    if w.request.detailsStaleOrders.isEmpty then pass w
    else openSlot .getStaleOrders .staleOrders now w
  | .getTrades => fun w =>
    if settings.download.tradesLookback ≠ 0 ∧ ¬ settings.download.symbols.isEmpty then
      openSlot .getTrades .trades now w
    else pass w
  | .done => seq (setStatus .ready "") pass

/-- `download` -/
def download (now : Nanos) (state : State) : Action (World R) Output :=
  seq (modify fun w => { w with dropCopy.downloadState := state }) (downloadBody settings now state)

/-- The callbacks of one call of the download. -/
def visit (now : Nanos) (visits : List State) : Action (World R) Output :=
  seqAll (visits.map (download settings now))

/-- Insert into the set; says whether something was new. -/
def insertDetails (details : List (UserId × OrderId)) (orders : List Order) : List (UserId × OrderId) :=
  orders.foldl (fun ds o => if (o.userId, o.orderId) ∈ ds then ds else ds ++ [(o.userId, o.orderId)])
    details

/-- `check_stale_orders()` -/
def checkStaleOrders (d : Dispatcher) : Action (World R) Output := modify fun w =>
  { w with request.detailsStaleOrders :=
      insertDetails w.request.detailsStaleOrders (d.getAllStaleOrders w.dropCopy.account) }

/-- `check_stale_orders(trace_info)` -/
def checkStaleOrdersPeriodic (now : Nanos) (d : Dispatcher) : Action (World R) Output := fun w =>
  if w.dropCopy.nextCheckStaleOrders < now then
    let w₁ := { w with dropCopy.nextCheckStaleOrders :=
      now + settings.experimental.checkStaleOrderFreq }
    let w₂ := (checkStaleOrders d w₁).1
    if w₁.request.detailsStaleOrders.length < w₂.request.detailsStaleOrders.length then
      ({ w₂ with request := w₂.request.request .staleOrders now }, [])
    else (w₂, [])
  else (w, [])

/-- `check_request_queue` -/
def checkRequestQueue (now : Nanos) (d : Dispatcher) (visits : List State) :
    Action (World R) Output := fun w =>
  match w.dropCopy.downloadState.slot with
  | none => (w, [])
  | some c =>
    if w.request.hasResponse c then
      seqAll [
        -- note! *before* updating download
        guarded (fun w => w.dropCopy.downloadState = .getOpenOrders) (checkStaleOrders d),
        emit [.downloadCheck w.dropCopy.downloadState],
        visit settings now visits] w
    else (w, [])

/-- `DropCopyClassic::refresh_balance` -/
def refreshBalance (now : Nanos) : Action (World R) Output := fun w =>
  if settings.misc.pollBalanceFreq = 0 then (w, [])
  else if now < w.dropCopy.balanceRefresh then (w, [])
  else ({ w with
    dropCopy.balanceRefresh := now + settings.misc.pollBalanceFreq,
    request := w.request.request .balances now }, [])

def isReady (w : World R) : Bool := w.dropCopy.connectionStatus = .ready

/-- `DropCopyClassic::operator()(Event<Timer>)` -/
def timerClassic (now : Nanos) (d : Dispatcher) (visits : List State) : Action (World R) Output :=
  seqAll [
    checkRequestQueue settings now d visits,
    guarded isReady (seqAll [refreshBalance settings now, checkStaleOrdersPeriodic settings now d])]

/-- `DropCopyPortfolio::operator()(Event<Timer>)` -/
def timerPortfolio (now : Nanos) (d : Dispatcher) (visits : List State) :
    Action (World R) Output :=
  guarded isReady (seqAll [
    checkRequestQueue settings now d visits,
    checkStaleOrdersPeriodic settings now d])

def timer (now : Nanos) (d : Dispatcher) (visits : List State) : Action (World R) Output := fun w =>
  match w.dropCopy.variant with
  | .classic => timerClassic settings now d visits w
  | .portfolio => timerPortfolio settings now d visits w

/-- `operator()(Disconnected)` -/
def disconnected : Action (World R) Output :=
  seqAll [
    setStatus .disconnected "",
    fun w => ({ w with dropCopy.downloadState := .undefined, dropCopy.waiting := false },
      [.downloadReset]),
    guarded (fun w => w.dropCopy.stop) fun w => (w, [.remove w.dropCopy.account])]

/-- `operator()(ListenKeyExpired)` -/
def listenKeyExpired : Action (World R) Output := fun w =>
  ({ w with dropCopy.stop := true }, [.connectionClose])

/-- The handlers of the user stream that publish. -/
def userStream (variant : Variant) (account : String) (d : Dispatcher) :
    Json.UserStreamEvent → List Published
  | .listenKeyExpired => []
  | .orderTradeUpdate m => match variant with
    | .classic => DropCopyClassic.orderTradeUpdate settings account d m
    | .portfolio => DropCopyPortfolio.orderTradeUpdate settings account d m
  | .tradeLite m => match variant with
    | .classic => DropCopyClassic.tradeLite settings account d m
    | .portfolio => DropCopyPortfolio.tradeLite settings account d m
  | .executionReport2 m => match variant with
    | .classic => DropCopyClassic.executionReport2 d m
    | .portfolio => DropCopyPortfolio.executionReport2 settings account d m
  | .other => []

def step : Event → Action (World R) Output
  | .start => emit [.connectionStart]
  | .stop => emit [.connectionStop]
  | .timer now refresh d visits => guarded (fun _ => refresh) (timer settings now d visits)
  | .connected => skip
  | .disconnected => disconnected
  | .ready now visits => seq (emit [.downloadBegin]) (visit settings now visits)
  | .close => skip
  | .latency => skip
  | .text _ none => emit [.fatal]
  | .text _ (some .listenKeyExpired) => listenKeyExpired
  | .text d (some m) => fun w =>
    (w, (userStream settings w.dropCopy.variant w.dropCopy.account d m).map .published)
  | .binary => emit [.fatal]

/-- A turn of the drop copy, or of the order-entry stream that serves the slots it shares. -/
inductive Turn where
  | own (e : Event)
  | served (c : Slot) (gate : Bool) (now : Nanos)
  | committed (c : Slot) (now : Nanos)
  /-- The stale orders have been asked about. -/
  | asked

def turn : Turn → Action (World R) Output
  | .own e => step settings e
  | .served c gate now => modify fun w => { w with request := w.request.checkPending c now gate }
  | .committed c now => modify fun w => { w with request := w.request.commit c now }
  | .asked => modify fun w => { w with request.detailsStaleOrders := [] }

/-- A drop copy as the controller creates it. -/
def create (variant : Variant) (account listenKey : String) (request : Request R) : World R :=
  { dropCopy := { variant, account, listenKey }, request }

end

/-! ### What every turn keeps -/

def Output.reports (k : FillKey) : Output → Bool
  | .published m => m.reports k
  | _ => false

@[simp] theorem reports_streamStatus (k : FillKey) (status : ConnectionStatus) (reason : String) :
    (Output.streamStatus status reason).reports k = false := rfl

@[simp] theorem reports_downloadReset (k : FillKey) : Output.downloadReset.reports k = false := rfl

@[simp] theorem reports_remove (k : FillKey) (account : String) :
    (Output.remove account).reports k = false := rfl

@[simp] theorem reports_published (k : FillKey) (m : Published) :
    (Output.published m).reports k = m.reports k := rfl

/-- A drop copy of the class and the account that is only downloading while it waits, and has put out
    `n` trade updates about the fill. -/
structure Sound {R : LimitRequest} (variant : Variant) (account : String) (k : FillKey) (n : ℕ)
    (out : List Output) (w : World R) : Prop where
  variant_eq : w.dropCopy.variant = variant
  account_eq : w.dropCopy.account = account
  downloading : w.dropCopy.waiting = true → w.dropCopy.connectionStatus = .downloading
  count_eq : out.countP (·.reports k) = n

section
variable {R : LimitRequest} (settings : Settings) {variant : Variant} {account : String}
  {k : FillKey} {n : ℕ}

/-- An action that leaves the drop copy alone, or changes no more than its timers. -/
theorem keeps_of_frame {f : Action (World R) Output}
    (h : ∀ w, (f w).1.dropCopy.variant = w.dropCopy.variant ∧
      (f w).1.dropCopy.account = w.dropCopy.account ∧
      (f w).1.dropCopy.waiting = w.dropCopy.waiting ∧
      (f w).1.dropCopy.connectionStatus = w.dropCopy.connectionStatus ∧
      (f w).2.countP (·.reports k) = 0) : Keeps (Sound variant account k n) f := by
  intro out w hw
  obtain ⟨h₁, h₂, h₃, h₄, h₅⟩ := h w
  exact ⟨h₁.trans hw.variant_eq, h₂.trans hw.account_eq, by rw [h₃, h₄]; exact hw.downloading,
    by rw [List.countP_append, hw.count_eq, h₅, Nat.add_zero]⟩

theorem keeps_openSlot (state : State) (c : Slot) (now : Nanos) :
    Keeps (Sound variant account k n) (openSlot (R := R) state c now) := by
  intro out w hw
  exact ⟨hw.variant_eq, hw.account_eq, fun _ => rfl,
    by simp [openSlot, setStatus, hw.count_eq]⟩

theorem keeps_pass : Keeps (Sound variant account k n) (pass (R := R)) := by
  intro out w hw
  exact ⟨hw.variant_eq, hw.account_eq, fun h => by simp [pass] at h,
    by simp [pass, hw.count_eq]⟩

theorem keeps_done : Keeps (Sound variant account k n) (seq (setStatus .ready "") (pass (R := R))) := by
  intro out w hw
  exact ⟨hw.variant_eq, hw.account_eq, fun h => by simp [pass] at h,
    by simp [pass, setStatus, hw.count_eq]⟩

theorem keeps_download (now : Nanos) (state : State) :
    Keeps (Sound variant account k n) (download (R := R) settings now state) := by
  refine triple_seq (keeps_of_frame fun w => ⟨rfl, rfl, rfl, rfl, rfl⟩) ?_
  cases state with
  | undefined => exact keeps_pass
  | getBalances => exact keeps_openSlot _ _ _
  | getPositions => exact keeps_openSlot _ _ _
  | getOpenOrders => exact keeps_openSlot _ _ _
  | done => exact keeps_done
  | getPositionsPm =>
    intro out w hw
    simp only [downloadBody]
    split
    · exact keeps_openSlot _ _ _ out w hw
    · exact keeps_pass out w hw
  | getStaleOrders =>
    intro out w hw
    simp only [downloadBody]
    split
    · exact keeps_pass out w hw
    · exact keeps_openSlot _ _ _ out w hw
  | getTrades =>
    intro out w hw
    simp only [downloadBody]
    split
    · exact keeps_openSlot _ _ _ out w hw
    · exact keeps_pass out w hw

theorem keeps_visit (now : Nanos) (visits : List State) :
    Keeps (Sound variant account k n) (visit (R := R) settings now visits) := by
  refine keeps_map fun state _ => ?_
  exact keeps_download settings now state

theorem keeps_checkRequestQueue (now : Nanos) (d : Dispatcher) (visits : List State) :
    Keeps (Sound variant account k n) (checkRequestQueue (R := R) settings now d visits) := by
  intro out w hw
  unfold checkRequestQueue
  split
  · simpa using hw
  · split
    · refine keeps_seqAll (fun f hf => ?_) out w hw
      simp only [List.mem_cons, List.not_mem_nil, or_false] at hf
      rcases hf with rfl | rfl | rfl
      · exact keeps_guarded _ fun out w _ => keeps_of_frame (fun w => ⟨rfl, rfl, rfl, rfl, rfl⟩) out w
      · exact keeps_of_frame fun w => ⟨rfl, rfl, rfl, rfl, rfl⟩
      · exact keeps_visit settings now visits
    · simpa using hw

theorem keeps_refreshBalance (now : Nanos) :
    Keeps (Sound variant account k n) (refreshBalance (R := R) settings now) := by
  refine keeps_of_frame fun w => ?_
  unfold refreshBalance
  split
  · exact ⟨rfl, rfl, rfl, rfl, rfl⟩
  · split <;> exact ⟨rfl, rfl, rfl, rfl, rfl⟩

theorem keeps_checkStaleOrdersPeriodic (now : Nanos) (d : Dispatcher) :
    Keeps (Sound variant account k n) (checkStaleOrdersPeriodic (R := R) settings now d) := by
  refine keeps_of_frame fun w => ?_
  unfold checkStaleOrdersPeriodic
  split
  · dsimp only
    split <;> exact ⟨rfl, rfl, rfl, rfl, rfl⟩
  · exact ⟨rfl, rfl, rfl, rfl, rfl⟩

theorem keeps_timer (now : Nanos) (d : Dispatcher) (visits : List State) :
    Keeps (Sound variant account k n) (timer (R := R) settings now d visits) := by
  have hqueue : Keeps (Sound variant account k n) (checkRequestQueue (R := R) settings now d visits) :=
    keeps_checkRequestQueue settings now d visits
  have hstale : Keeps (Sound variant account k n)
      (checkStaleOrdersPeriodic (R := R) settings now d) :=
    keeps_checkStaleOrdersPeriodic settings now d
  intro out w hw
  unfold timer
  split
  · refine triple_seq hqueue (triple_seq (keeps_guarded _ fun out w _ => ?_) (keeps_skip _)) out w hw
    exact triple_seq (keeps_refreshBalance settings now) (triple_seq hstale (keeps_skip _)) out w
  · refine keeps_guarded _ (fun out w _ => ?_) out w hw
    exact triple_seq hqueue (triple_seq hstale (keeps_skip _)) out w

theorem disconnected_eq (w : World R) : disconnected w =
    ({ w with
        dropCopy.connectionStatus := .disconnected
        dropCopy.downloadState := .undefined
        dropCopy.waiting := false },
      [.streamStatus .disconnected "", .downloadReset] ++
        if w.dropCopy.stop then [.remove w.dropCopy.account] else []) := by
  cases hstop : w.dropCopy.stop <;> simp [disconnected, seqAll, seq, setStatus, guarded, hstop, skip]

theorem keeps_disconnected : Keeps (Sound variant account k n) (disconnected (R := R)) := by
  intro out w hw
  rw [disconnected_eq]
  refine ⟨hw.variant_eq, hw.account_eq, by simp, ?_⟩
  cases w.dropCopy.stop <;> simp [hw.count_eq]

/-- The trade updates about the fill that an event makes a drop copy of the class publish. -/
def contribution (variant : Variant) (account : String) (k : FillKey) : Event → ℕ
  | .text d (some m) => (userStream settings variant account d m).countP (·.reports k)
  | _ => 0

theorem step_sound (e : Event) : Triple (Sound variant account k n) (step (R := R) settings e)
    (Sound variant account k (n + contribution settings variant account k e)) := by
  have hframe : ∀ o : Output, o.reports k = false →
      Keeps (Sound (R := R) variant account k n) (emit [o]) := fun o ho =>
    keeps_of_frame fun w => ⟨rfl, rfl, rfl, rfl, by simp [ho]⟩
  cases e with
  | start => exact hframe _ rfl
  | stop => exact hframe _ rfl
  | timer now refresh d visits =>
    exact keeps_guarded _ fun out w _ => keeps_timer settings now d visits out w
  | connected => exact keeps_skip _
  | disconnected => exact keeps_disconnected
  | ready now visits => exact triple_seq (hframe _ rfl) (keeps_visit settings now visits)
  | close => exact keeps_skip _
  | latency => exact keeps_skip _
  | binary => exact hframe _ rfl
  | text d m =>
    intro out w hw
    have hpublish : ∀ ps : List Published,
        (ps.map Output.published).countP (·.reports k) = ps.countP (·.reports k) := by
      intro ps
      rw [List.countP_map]
      rfl
    match m with
    | none => exact hframe _ rfl out w hw
    | some .listenKeyExpired =>
      exact keeps_of_frame (fun w => ⟨rfl, rfl, rfl, rfl, rfl⟩) out w hw
    | some (.orderTradeUpdate m) | some (.tradeLite m) | some (.executionReport2 m) | some .other =>
      refine ⟨hw.variant_eq, hw.account_eq, hw.downloading, ?_⟩
      rw [List.countP_append, hw.count_eq]
      simp only [step, hpublish, hw.variant_eq, hw.account_eq, contribution]

def Turn.contribution (variant : Variant) (account : String) (k : FillKey) : Turn → ℕ
  | .own e => DropCopy.contribution settings variant account k e
  | _ => 0

theorem turn_sound (e : Turn) : Triple (Sound variant account k n) (turn (R := R) settings e)
    (Sound variant account k (n + e.contribution settings variant account k)) := by
  cases e with
  | own e => exact step_sound settings e
  | served c gate now => exact keeps_of_frame fun w => ⟨rfl, rfl, rfl, rfl, rfl⟩
  | committed c now => exact keeps_of_frame fun w => ⟨rfl, rfl, rfl, rfl, rfl⟩
  | asked => exact keeps_of_frame fun w => ⟨rfl, rfl, rfl, rfl, rfl⟩

/-- A run puts out, about a fill, what its turns contribute. -/
theorem run_sound (es : List Turn) : ∀ {n : ℕ},
    Triple (Sound variant account k n) (run (turn (R := R) settings) es)
      (Sound variant account k (n + (es.map (·.contribution settings variant account k)).sum)) := by
  induction es with
  | nil => exact keeps_skip _
  | cons e es ih =>
    intro n
    rw [List.map_cons, List.sum_cons, ← Nat.add_assoc]
    exact triple_seq (turn_sound settings e) ih

theorem sound_create (variant : Variant) (account listenKey : String) (request : Request R)
    (k : FillKey) :
    Sound variant account k 0 [] (create variant account listenKey request) :=
  ⟨rfl, rfl, fun h => by simp [create] at h, rfl⟩

/-! ### What lasts -/

def World.listenKey (w : World R) : String := w.dropCopy.listenKey

/-- The listen key, and whether it has expired. -/
def World.lasting (w : World R) : String × Bool := (w.dropCopy.listenKey, w.dropCopy.stop)

/-- The exchange says that the listen key has expired. -/
def Event.expires : Event → Bool
  | .text _ (some .listenKeyExpired) => true
  | _ => false

theorem frame_visit (now : Nanos) (visits : List State) :
    Frame World.lasting (visit (R := R) settings now visits) := by
  refine frame_map fun state _ => ?_
  intro w
  cases state with
  | undefined | getBalances | getPositions | getOpenOrders | done => rfl
  | getPositionsPm | getStaleOrders | getTrades =>
    simp only [download, seq_fst, downloadBody]
    split <;> rfl

theorem frame_timer (now : Nanos) (d : Dispatcher) (visits : List State) :
    Frame World.lasting (timer (R := R) settings now d visits) := by
  have hqueue : Frame World.lasting
      (checkRequestQueue (R := R) settings now d visits) := by
    intro w
    unfold checkRequestQueue
    split
    · rfl
    · split
      · refine frame_seqAll (fun f hf => ?_) w
        simp only [List.mem_cons, List.not_mem_nil, or_false] at hf
        rcases hf with rfl | rfl | rfl
        · exact frame_guarded _ fun w => rfl
        · exact fun w => rfl
        · exact frame_visit settings now visits
      · rfl
  have hbalance : Frame World.lasting (refreshBalance (R := R) settings now) := by
    intro w
    unfold refreshBalance
    split
    · rfl
    · split <;> rfl
  have hstale : Frame World.lasting
      (checkStaleOrdersPeriodic (R := R) settings now d) := by
    intro w
    unfold checkStaleOrdersPeriodic
    split
    · dsimp only
      split <;> rfl
    · rfl
  intro w
  unfold timer
  split
  · refine frame_seq hqueue (frame_seq (frame_guarded _ ?_) fun _ => rfl) w
    exact frame_seq hbalance (frame_seq hstale fun _ => rfl)
  · exact frame_guarded _ (frame_seq hqueue (frame_seq hstale fun _ => rfl)) w

/-- A drop copy keeps its listen key, and remembers that it has expired. -/
theorem lasting_step (e : Event) (w : World R) : (step settings e w).1.lasting
    = (w.dropCopy.listenKey, w.dropCopy.stop || e.expires) := by
  have hframe : ∀ {f : Action (World R) Output}, Frame World.lasting f →
      (f w).1.lasting = (w.dropCopy.listenKey, w.dropCopy.stop || false) := by
    intro f hf
    rw [hf w, Bool.or_false]
    rfl
  cases e with
  | timer now refresh d visits => exact hframe (frame_guarded _ (frame_timer settings now d visits))
  | disconnected =>
    rw [step, disconnected_eq]
    simp [World.lasting, Event.expires]
  | ready now visits => exact hframe (frame_seq (fun _ => rfl) (frame_visit settings now visits))
  | text d m =>
    cases m with
    | none => exact hframe fun _ => rfl
    | some m =>
      cases m with
      | listenKeyExpired => simp [step, listenKeyExpired, World.lasting, Event.expires]
      | orderTradeUpdate m | tradeLite m | executionReport2 m | other => exact hframe fun _ => rfl
  | start | stop | connected | close | latency | binary => exact hframe fun _ => rfl

/-- A drop copy keeps the listen key that it was created with. -/
theorem frame_step (e : Event) : Frame World.listenKey (step (R := R) settings e) :=
  fun w => congrArg Prod.fst (lasting_step settings e w)

/-- A drop copy asks to be removed. -/
def Output.isRemove : Output → Bool
  | .remove _ => true
  | _ => false

/-- The callbacks of the download set the status, and put out nothing else. -/
theorem silent_visit (now : Nanos) (visits : List State) :
    Silent (fun o => ∀ status reason, o ≠ .streamStatus status reason)
      (visit (R := R) settings now visits) := by
  refine silent_map fun state _ => ?_
  have hstatus : ∀ status reason, Silent (fun o => ∀ status reason, o ≠ .streamStatus status reason)
      (setStatus (R := R) status reason) :=
    fun status reason w o ho h => h status reason (List.mem_singleton.mp ho)
  have hslot : ∀ state c, Silent (fun o => ∀ status reason, o ≠ .streamStatus status reason)
      (openSlot (R := R) state c now) :=
    fun state c => silent_seq (hstatus _ _) fun w o ho => by cases ho
  refine silent_seq (fun w o ho => by cases ho) ?_
  cases state with
  | undefined => exact fun w o ho => by cases ho
  | getBalances | getPositions | getOpenOrders => exact hslot _ _
  | done => exact silent_seq (hstatus _ _) fun w o ho => by cases ho
  | getPositionsPm | getStaleOrders | getTrades =>
    intro w o ho
    simp only [downloadBody] at ho
    split at ho
    · first | exact hslot _ _ w o ho | cases ho
    · first | exact hslot _ _ w o ho | cases ho

theorem visit_removes_nothing (now : Nanos) (visits : List State) :
    Silent (·.isRemove = true) (visit (R := R) settings now visits) := by
  refine silent_mono (fun o ho status reason => ?_) (silent_visit settings now visits)
  rintro rfl
  cases ho

/-- The drop copy goes on from a state only on the response of the state's slot. -/
theorem hasResponse_of_check {now : Nanos} {d : Dispatcher} {visits : List State} {state : State}
    {c : Slot} (hslot : state.slot = some c) {w : World R}
    (h : Output.downloadCheck state ∈ (checkRequestQueue settings now d visits w).2) :
    w.request.hasResponse c = true := by
  unfold checkRequestQueue at h
  split at h
  · cases h
  next c' hc' =>
    split at h
    next hresponse =>
      rcases List.mem_append.mp h with hstale | hrest
      · unfold guarded at hstale
        split at hstale <;> cases hstale
      · rcases List.mem_append.mp hrest with hcheck | hvisit
        · obtain rfl := Output.downloadCheck.inj (List.mem_singleton.mp hcheck)
          rw [hc'] at hslot
          rw [← Option.some.inj hslot]
          exact hresponse
        · refine absurd (fun status reason => ?_) (silent_seq (silent_visit settings now visits)
            (fun w o ho => by cases ho) _ _ hvisit)
          nofun
    · cases h

theorem silent_timer (now : Nanos) (d : Dispatcher) (visits : List State) :
    Silent (·.isRemove = true) (timer (R := R) settings now d visits) := by
  have hnone : ∀ {f : Action (World R) Output}, (∀ w, (f w).2 = []) → Silent (·.isRemove = true) f := by
    intro f hf w o ho
    rw [hf] at ho
    cases ho
  have hqueue : Silent (·.isRemove = true) (checkRequestQueue (R := R) settings now d visits) := by
    intro w
    unfold checkRequestQueue
    split
    · exact fun o ho => by cases ho
    · split
      · refine silent_seq (silent_guarded _ (hnone fun _ => rfl)) (silent_seq (fun w o ho => ?_)
          (silent_seq (visit_removes_nothing settings now visits) (silent_skip _))) w
        rw [List.mem_singleton.mp ho]
        simp [Output.isRemove]
      · exact fun o ho => by cases ho
  have hbalance : Silent (·.isRemove = true) (refreshBalance (R := R) settings now) := by
    refine hnone fun w => ?_
    unfold refreshBalance
    split
    · rfl
    · split <;> rfl
  have hstale : Silent (·.isRemove = true) (checkStaleOrdersPeriodic (R := R) settings now d) := by
    refine hnone fun w => ?_
    unfold checkStaleOrdersPeriodic
    split
    · dsimp only
      split <;> rfl
    · rfl
  intro w
  unfold timer
  split
  · exact silent_seq hqueue (silent_seq (silent_guarded _ (silent_seq hbalance
      (silent_seq hstale (silent_skip _)))) (silent_skip _)) w
  · exact silent_guarded _ (silent_seq hqueue (silent_seq hstale (silent_skip _))) w

/-- A drop copy asks to be removed when it is disconnected and its listen key has expired, and only
    then. -/
theorem removes_step (e : Event) (w : World R) : (∃ o ∈ (step settings e w).2, o.isRemove = true)
    ↔ e = .disconnected ∧ w.dropCopy.stop = true := by
  have hnever : ∀ {f : Action (World R) Output}, Silent (·.isRemove = true) f → e ≠ .disconnected →
      ((∃ o ∈ (f w).2, o.isRemove = true) ↔ e = .disconnected ∧ w.dropCopy.stop = true) := by
    intro f hf he
    refine iff_of_false ?_ (fun h => he h.1)
    rintro ⟨o, ho, hremove⟩
    exact hf w o ho hremove
  have hquiet : ∀ {f : Action (World R) Output}, (∀ w, ∀ o ∈ (f w).2, o.isRemove = false) →
      Silent (·.isRemove = true) f := by
    intro f hf w o ho
    simp [hf w o ho]
  cases e with
  | timer now refresh d visits =>
    exact hnever (silent_guarded _ (silent_timer settings now d visits)) (by simp)
  | disconnected =>
    rw [step, disconnected_eq]
    cases w.dropCopy.stop <;> simp [Output.isRemove]
  | ready now visits =>
    exact hnever (silent_seq (hquiet (by simp [Output.isRemove])) (visit_removes_nothing settings now visits))
      (by simp)
  | text d m =>
    refine hnever (hquiet fun w o ho => ?_) (by simp)
    cases m with
    | none =>
      rw [List.mem_singleton.mp ho]
      rfl
    | some m =>
      cases m with
      | listenKeyExpired =>
        rw [List.mem_singleton.mp ho]
        rfl
      | orderTradeUpdate m | tradeLite m | executionReport2 m | other =>
        obtain ⟨p, _, rfl⟩ := List.mem_map.mp ho
        rfl
  | start | stop | binary => exact hnever (hquiet (by simp [step, Output.isRemove])) (by simp)
  | connected | close | latency => exact hnever (silent_skip _) (by simp)

end

end DropCopy
end BinanceFutures
