import BinanceFutures.Gateway.DropCopy
import Mathlib.Algebra.Order.Group.MinMax
import Mathlib.Algebra.Order.Ring.Rat
import Mathlib.Data.List.Forall2

/-! # Balances and positions

    What an account holds is downloaded when a stream comes up, and updated by the user stream. Six
    handlers make positions of what they are sent, and four make funds.

        OrderEntryClassic    ── AccountStatusAck ─┐
        OrderEntryPortfolio  ── AccountStatusAck ─┤
                             ── PositionList ─────┼─▶ PositionUpdate  long = max(0, x), short = max(0, -x)
        WebSocket            ── AccountStatus ────┤
        DropCopy             ── AccountUpdate ────┘

    All of them read the position's amount but one, which reads its notional value. The funds of a
    classic account are downloaded by REST or over the socket, which do not read the same of an item. -/

namespace BinanceFutures

/-! ### Messages -/

namespace Json

inductive MarginType where | undefinedInternal | unknownInternal | isolated | cross
  deriving DecidableEq

/-- `Position`, in an `AccountStatusAck` and in a `PositionList`. -/
structure Position where
  symbol : String
  isolated : Bool := false
  positionAmt : Double := nan
  notional : Double := nan
  updateTime : Nanos := 0

/-- `AccountStatusAck`, also the result of `account.status`. -/
structure AccountStatusAck where
  updateTime : Nanos := 0
  positions : List Position := []

/-- `AccountBalanceAckItem`, also in the result of `account.balance`. -/
structure AccountBalanceAckItem where
  asset : String
  balance : Double := nan
  crossWalletBalance : Double := nan
  crossUnPnl : Double := nan
  availableBalance : Double := nan
  updateTime : Nanos := 0
  totalWalletBalance : Double := nan
  umUnrealizedPnl : Double := nan
  cmUnrealizedPnl : Double := nan

structure WSAPIAccountStatus where
  status : ℤ
  result : AccountStatusAck := {}

structure WSAPIAccountBalance where
  status : ℤ
  result : List AccountBalanceAckItem := []

structure AccountUpdateDataBalance where
  asset : String
  walletBalance : Double := nan
  crossWalletBalance : Double := nan

structure AccountUpdateDataPosition where
  symbol : String
  positionAmount : Double := nan
  marginType : MarginType := .undefinedInternal

structure AccountUpdate where
  eventTime : Nanos := 0
  transactionTime : Nanos := 0
  balances : List AccountUpdateDataBalance := []
  positions : List AccountUpdateDataPosition := []

/-- `get_unrealized_pnl` -/
def getUnrealizedPnl (umUnrealizedPnl cmUnrealizedPnl : Double) : Double :=
  if umUnrealizedPnl = nan ∧ cmUnrealizedPnl = nan then nan
  else some (umUnrealizedPnl.getD 0 + cmUnrealizedPnl.getD 0)

end Json

/-! ### Published -/

structure FundsUpdate where
  account : String
  currency : String
  marginMode : MarginMode := .undefined
  balance : Double
  hold : Double := nan
  unrealizedPnl : Double := nan
  updateType : UpdateType
  exchangeTimeUtc : Nanos
  sendingTimeUtc : Nanos := 0
  deriving DecidableEq

structure PositionUpdate where
  account : String
  exchange : String
  symbol : String
  marginMode : MarginMode
  longQuantity : Double
  shortQuantity : Double
  updateType : UpdateType
  exchangeTimeUtc : Nanos
  sendingTimeUtc : Nanos := 0
  deriving DecidableEq

namespace Holdings
open Json

/-- `std::max(0.0, x)`, which is zero for NaN. -/
def maxZero (x : Double) : Double := some (max 0 (x.getD 0))

def negate (x : Double) : Double := x.map fun a => -a

/-- What is published, in its order. -/
inductive Holding where
  | funds (m : FundsUpdate)
  | position (m : PositionUpdate)
  deriving DecidableEq

/-- The gateway's settings, the account, and the symbols that `dispatcher.discard_symbol` discards. -/
structure Context where
  settings : Settings
  account : String
  discardSymbol : String → Bool

variable (context : Context)

/-- The update that all handlers of positions publish, each for what it reads as the quantity. -/
def positionUpdate (symbol : String) (marginMode : MarginMode) (quantity : Double)
    (updateType : UpdateType) (exchangeTimeUtc sendingTimeUtc : Nanos) : PositionUpdate where
  account := context.account
  exchange := context.settings.exchange
  symbol := symbol
  marginMode := marginMode
  longQuantity := maxZero quantity
  shortQuantity := maxZero (negate quantity)
  updateType := updateType
  exchangeTimeUtc := exchangeTimeUtc
  sendingTimeUtc := sendingTimeUtc

/-- The loop over positions. -/
def positions {α : Type} (symbol : α → String) (update : α → PositionUpdate) (items : List α) :
    List Holding :=
  (items.filter fun item => !context.discardSymbol (symbol item)).map fun item => .position (update item)

end Holdings

/-! ### Handlers -/

namespace OrderEntryClassic
open Json Holdings
variable (context : Context)

/-- `operator()(AccountStatusAck)` -/
def accountStatusAck (m : AccountStatusAck) : List Holding :=
  positions context Position.symbol (fun item => positionUpdate context item.symbol
    (if item.isolated then .isolated else .cross) item.positionAmt .snapshot m.updateTime 0) m.positions

/-- `operator()(AccountBalanceAck)` -/
def accountBalanceAck (data : List AccountBalanceAckItem) : List Holding :=
  data.flatMap fun item =>
    .funds {
      account := context.account, currency := item.asset, balance := item.balance,
      hold := Double.sub item.balance item.availableBalance,
      unrealizedPnl := getUnrealizedPnl item.umUnrealizedPnl item.cmUnrealizedPnl,
      updateType := .snapshot, exchangeTimeUtc := item.updateTime } ::
    if item.crossWalletBalance = nan then []
    else [.funds {
      account := context.account, currency := item.asset, marginMode := .cross,
      balance := item.crossWalletBalance, unrealizedPnl := item.crossUnPnl,
      updateType := .snapshot, exchangeTimeUtc := item.updateTime }]

end OrderEntryClassic

namespace OrderEntryPortfolio
open Json Holdings
variable (context : Context)

/-- `operator()(AccountStatusAck)`: here the quantity is the notional value. -/
def accountStatusAck (m : AccountStatusAck) : List Holding :=
  positions context Position.symbol (fun item => positionUpdate context item.symbol
    (if item.isolated then .isolated else .portfolio) item.notional .snapshot m.updateTime 0) m.positions

/-- `operator()(PositionList)` -/
def positionList (data : List Position) : List Holding :=
  positions context Position.symbol (fun item => positionUpdate context item.symbol .portfolio
    item.positionAmt .snapshot item.updateTime 0) data

/-- `operator()(AccountBalanceAck)` -/
def accountBalanceAck (data : List AccountBalanceAckItem) : List Holding :=
  data.map fun item => .funds {
    account := context.account, currency := item.asset, marginMode := .portfolio,
    balance := item.totalWalletBalance, hold := Double.sub item.balance item.availableBalance,
    unrealizedPnl := getUnrealizedPnl item.umUnrealizedPnl item.cmUnrealizedPnl,
    updateType := .snapshot, exchangeTimeUtc := item.updateTime }

end OrderEntryPortfolio

namespace WebSocket
open Json Holdings
variable (context : Context)

/-- `operator()(WSAPIAccountStatus)` -/
def accountStatus (m : WSAPIAccountStatus) : List Holding :=
  if m.status = 200 then
    positions context Position.symbol (fun item => positionUpdate context item.symbol
      (if item.isolated then .isolated else .cross) item.positionAmt .snapshot m.result.updateTime 0)
      m.result.positions
  else []

/-- `operator()(WSAPIAccountBalance)` -/
def accountBalance (m : WSAPIAccountBalance) : List Holding :=
  if m.status = 200 then
    m.result.map fun item => .funds {
      account := context.account, currency := item.asset, balance := item.availableBalance,
      unrealizedPnl := getUnrealizedPnl item.umUnrealizedPnl item.cmUnrealizedPnl,
      updateType := .snapshot, exchangeTimeUtc := item.updateTime, sendingTimeUtc := item.updateTime }
  else []

end WebSocket

namespace DropCopy
open Json Holdings
variable (context : Context)

/-- The loop over the balances of an `ACCOUNT_UPDATE`. -/
def balances (marginMode : MarginMode) (m : AccountUpdate) : List Holding :=
  m.balances.flatMap fun item =>
    .funds {
      account := context.account, currency := item.asset, marginMode, balance := item.walletBalance,
      updateType := .incremental, exchangeTimeUtc := m.transactionTime,
      sendingTimeUtc := m.eventTime } ::
    if item.crossWalletBalance = nan then []
    else [.funds {
      account := context.account, currency := item.asset, marginMode := .cross,
      balance := item.crossWalletBalance, updateType := .incremental,
      exchangeTimeUtc := m.transactionTime, sendingTimeUtc := m.eventTime }]

/-- The switch on the margin type. -/
def marginModeOf : MarginType → MarginMode
  | .undefinedInternal => .undefined
  | .unknownInternal => .undefined
  | .isolated => .isolated
  | .cross => .cross

/-- The loop over the positions of an `ACCOUNT_UPDATE`. -/
def accountPositions (marginMode : MarginType → MarginMode) (m : AccountUpdate) : List Holding :=
  positions context AccountUpdateDataPosition.symbol (fun item => positionUpdate context item.symbol
    (marginMode item.marginType) item.positionAmount .incremental m.transactionTime m.eventTime)
    m.positions

/-- `operator()(AccountUpdate)` of the two classes; `testAltFundsUpdate` is the flag
    `test_alt_funds_update`. -/
def accountUpdate (testAltFundsUpdate : Bool) (m : AccountUpdate) : Variant → List Holding
  | .classic => balances context .undefined m ++ accountPositions context marginModeOf m
  | .portfolio =>
    (if testAltFundsUpdate then [] else balances context .portfolio m) ++
      accountPositions context (fun _ => .portfolio) m

end DropCopy

/-! ### Positions -/

namespace Holdings
open Json

/-- The position updates among what is published. -/
def positionsOf (hs : List Holding) : List PositionUpdate :=
  hs.filterMap fun
    | .funds _ => none
    | .position m => some m

/-- The update is that of a position with the amount: its quantities are not negative, one of them is
    zero, and they differ by the amount, where a missing amount is zero. -/
def Settles (amount : Double) (m : PositionUpdate) : Prop :=
  ∃ long short : ℚ, m.longQuantity = some long ∧ m.shortQuantity = some short ∧ 0 ≤ long ∧ 0 ≤ short ∧
    (long = 0 ∨ short = 0) ∧ long - short = amount.getD 0

theorem getD_negate (x : Double) : (negate x).getD 0 = -x.getD 0 := by
  cases x with
  | none => simp [negate]
  | some a => rfl

theorem max_zero_or (a : ℚ) : max 0 a = 0 ∨ max 0 (-a) = 0 := by
  rcases le_total a 0 with h | h
  · exact .inl (max_eq_left h)
  · exact .inr (max_eq_left (neg_nonpos.mpr h))

theorem max_zero_sub (a : ℚ) : max 0 a - max 0 (-a) = a := by
  rw [max_comm 0 a, max_comm 0 (-a)]
  exact max_zero_sub_eq_self a

variable {context : Context}

/-- An update is that of the amount if the quantity it was made of is. -/
theorem settles_positionUpdate {symbol : String} {marginMode : MarginMode} {quantity amount : Double}
    {updateType : UpdateType} {exchangeTimeUtc sendingTimeUtc : Nanos} :
    Settles amount (positionUpdate context symbol marginMode quantity updateType exchangeTimeUtc
      sendingTimeUtc) ↔ quantity.getD 0 = amount.getD 0 := by
  have hdiff : max 0 (quantity.getD 0) - max 0 ((negate quantity).getD 0) = quantity.getD 0 := by
    rw [getD_negate]
    exact max_zero_sub _
  constructor
  · rintro ⟨long, short, hlong, hshort, -, -, -, hamount⟩
    rw [← hamount, ← Option.some.inj hlong, ← Option.some.inj hshort]
    exact hdiff.symm
  · intro hquantity
    refine ⟨_, _, rfl, rfl, le_max_left _ _, le_max_left _ _, ?_, hdiff.trans hquantity⟩
    rw [getD_negate]
    exact max_zero_or _

theorem positionsOf_positions {α : Type} (symbol : α → String) (update : α → PositionUpdate)
    (items : List α) : positionsOf (positions context symbol update items)
      = (items.filter fun item => !context.discardSymbol (symbol item)).map update := by
  simp [positionsOf, positions, List.filterMap_map]

theorem positionsOf_balances (marginMode : MarginMode) (m : AccountUpdate) :
    positionsOf (DropCopy.balances context marginMode m) = [] := by
  rw [positionsOf, List.filterMap_eq_nil_iff]
  intro holding hmem
  obtain ⟨item, -, hmem⟩ := List.mem_flatMap.mp hmem
  rcases List.mem_cons.mp hmem with rfl | hmem
  · rfl
  · split at hmem
    · cases hmem
    · rw [List.mem_singleton.mp hmem]

/-- The positions of an `ACCOUNT_UPDATE` are those of its loop over positions, in both classes. -/
theorem positionsOf_accountUpdate (testAltFundsUpdate : Bool) (m : AccountUpdate) (variant : Variant) :
    ∃ marginMode, positionsOf (DropCopy.accountUpdate context testAltFundsUpdate m variant)
      = positionsOf (DropCopy.accountPositions context marginMode m) := by
  cases variant with
  | classic =>
    refine ⟨DropCopy.marginModeOf, ?_⟩
    rw [DropCopy.accountUpdate, positionsOf, List.filterMap_append]
    exact congrArg (· ++ _) (positionsOf_balances .undefined m)
  | portfolio =>
    refine ⟨fun _ => .portfolio, ?_⟩
    rw [DropCopy.accountUpdate, positionsOf, List.filterMap_append]
    cases testAltFundsUpdate with
    | true => rfl
    | false => exact congrArg (· ++ _) (positionsOf_balances .portfolio m)

/-- The items of a message, as a client would have them: their symbols and their amounts. -/
def Settled (context : Context) (received : List (String × Double)) (hs : List Holding) : Prop :=
  List.Forall₂ (fun item m => m.symbol = item.1 ∧ Settles item.2 m)
    (received.filter fun item => !context.discardSymbol item.1) (positionsOf hs)

/-- A loop over positions settles them if what it reads of each is its amount. -/
theorem settles_iff {α : Type} {symbol : α → String} {amount quantity : α → Double}
    {update : α → PositionUpdate} (items : List α) (hsymbol : ∀ item, (update item).symbol = symbol item)
    (hsettles : ∀ item, Settles (amount item) (update item) ↔
      (quantity item).getD 0 = (amount item).getD 0)
    {hs : List Holding} (hpositions : positionsOf hs = positionsOf (positions context symbol update items)) :
    Settled context (items.map fun item => (symbol item, amount item)) hs ↔
      ∀ item ∈ items, context.discardSymbol (symbol item) = false →
        (quantity item).getD 0 = (amount item).getD 0 := by
  rw [Settled, hpositions, positionsOf_positions, List.filter_map, List.forall₂_map_left_iff,
    List.forall₂_map_right_iff]
  simp only [Function.comp_def, List.forall₂_same]
  simp [hsymbol, hsettles]

/-- What positions are received from. -/
inductive Source where
  | classicStatus (m : AccountStatusAck)
  | portfolioStatus (m : AccountStatusAck)
  | portfolioPositions (data : List Position)
  | socketStatus (m : WSAPIAccountStatus)
  | userStream (variant : Variant) (testAltFundsUpdate : Bool) (m : AccountUpdate)

namespace Source

/-- What the handler of the message publishes. -/
def published (context : Context) : Source → List Holding
  | classicStatus m => OrderEntryClassic.accountStatusAck context m
  | portfolioStatus m => OrderEntryPortfolio.accountStatusAck context m
  | portfolioPositions data => OrderEntryPortfolio.positionList context data
  | socketStatus m => WebSocket.accountStatus context m
  | userStream variant testAltFundsUpdate m => DropCopy.accountUpdate context testAltFundsUpdate m variant

def ofPositions (items : List Position) : List (String × Double) :=
  items.map fun item => (item.symbol, item.positionAmt)

/-- The positions of the message. -/
def received : Source → List (String × Double)
  | classicStatus m => ofPositions m.positions
  | portfolioStatus m => ofPositions m.positions
  | portfolioPositions data => ofPositions data
  | socketStatus m => if m.status = 200 then ofPositions m.result.positions else []
  | userStream _ _ m => m.positions.map fun item => (item.symbol, item.positionAmount)

/-- Where the notional value is read, it is the amount; what is missing of the two counts as zero. -/
def Consistent (context : Context) : Source → Prop
  | portfolioStatus m => ∀ item ∈ m.positions, context.discardSymbol item.symbol = false →
      item.notional.getD 0 = item.positionAmt.getD 0
  | _ => True

end Source

/-- A handler that reads the amounts settles all positions. -/
theorem settled_of_amounts {α : Type} {symbol : α → String} {amount : α → Double}
    {marginMode : α → MarginMode} {updateType : UpdateType} {exchangeTimeUtc : α → Nanos}
    {sendingTimeUtc : Nanos} (items : List α) {hs : List Holding}
    (hpositions : positionsOf hs = positionsOf (positions context symbol (fun item =>
      positionUpdate context (symbol item) (marginMode item) (amount item) updateType
        (exchangeTimeUtc item) sendingTimeUtc) items)) :
    Settled context (items.map fun item => (symbol item, amount item)) hs := by
  refine (settles_iff items (fun _ => rfl) (fun item => settles_positionUpdate) hpositions).mpr ?_
  intro item _ _
  rfl

/-- BUG: every position that is received is published as its amount, on every path but one: the download
    of a portfolio account publishes the notional value, which has to be the amount by chance. -/
theorem settled_exact (context : Context) (source : Source) :
    Settled context source.received (source.published context) ↔ source.Consistent context := by
  cases source with
  | classicStatus m => exact iff_of_true (settled_of_amounts m.positions rfl) trivial
  | portfolioStatus m => exact settles_iff m.positions (fun _ => rfl) (fun _ => settles_positionUpdate) rfl
  | portfolioPositions data => exact iff_of_true (settled_of_amounts data rfl) trivial
  | socketStatus m =>
    refine iff_of_true ?_ trivial
    by_cases hstatus : m.status = 200
    · simp only [Source.received, Source.published, WebSocket.accountStatus, if_pos hstatus]
      exact settled_of_amounts m.result.positions rfl
    · simp only [Source.received, Source.published, WebSocket.accountStatus, if_neg hstatus]
      exact List.Forall₂.nil
  | userStream variant testAltFundsUpdate m =>
    refine iff_of_true ?_ trivial
    obtain ⟨marginMode, hpositions⟩ := positionsOf_accountUpdate testAltFundsUpdate m variant
    exact settled_of_amounts m.positions hpositions

/-- An account that trades everything. -/
def everything : Context where
  settings := {}
  account := "A1"
  discardSymbol _ := false

/-- Two contracts of a portfolio account, worth 100000, are published as 100000 contracts. -/
theorem not_settled_notional :
    positionsOf (OrderEntryPortfolio.accountStatusAck everything
        ⟨0, [{ symbol := "BTCUSDT", positionAmt := some 2, notional := some 100000 }]⟩)
        = [positionUpdate everything "BTCUSDT" .portfolio (some 100000) .snapshot 0 0] ∧
      ¬ Settled everything [("BTCUSDT", some 2)] (OrderEntryPortfolio.accountStatusAck everything
        ⟨0, [{ symbol := "BTCUSDT", positionAmt := some 2, notional := some 100000 }]⟩) := by
  refine ⟨rfl, fun h => ?_⟩
  obtain ⟨⟨-, hsettles⟩, -⟩ := List.forall₂_cons.mp h
  have hquantity := settles_positionUpdate.mp hsettles
  exact absurd hquantity (by decide)

/-! ### Funds -/

/-- The funds updates among what is published. -/
def fundsOf (hs : List Holding) : List FundsUpdate :=
  hs.filterMap fun
    | .funds m => some m
    | .position _ => none

/-- What a client sees of its funds. -/
structure Funds where
  currency : String
  marginMode : MarginMode
  balance : Double
  hold : Double
  unrealizedPnl : Double
  deriving DecidableEq

def seen (hs : List Holding) : List Funds :=
  (fundsOf hs).map fun m => ⟨m.currency, m.marginMode, m.balance, m.hold, m.unrealizedPnl⟩

/-- What is seen of one item by REST. -/
def restFunds (item : AccountBalanceAckItem) : List Funds :=
  ⟨item.asset, .undefined, item.balance, Double.sub item.balance item.availableBalance,
    getUnrealizedPnl item.umUnrealizedPnl item.cmUnrealizedPnl⟩ ::
  if item.crossWalletBalance = nan then []
  else [⟨item.asset, .cross, item.crossWalletBalance, nan, item.crossUnPnl⟩]

/-- What is seen of one item over the socket. -/
def socketFunds (item : AccountBalanceAckItem) : Funds :=
  ⟨item.asset, .undefined, item.availableBalance, nan,
    getUnrealizedPnl item.umUnrealizedPnl item.cmUnrealizedPnl⟩

theorem seen_accountBalanceAck (items : List AccountBalanceAckItem) :
    seen (OrderEntryClassic.accountBalanceAck context items) = items.flatMap restFunds := by
  induction items with
  | nil => rfl
  | cons item items ih =>
    have happend : OrderEntryClassic.accountBalanceAck context (item :: items)
        = OrderEntryClassic.accountBalanceAck context [item]
          ++ OrderEntryClassic.accountBalanceAck context items := by
      simp [OrderEntryClassic.accountBalanceAck]
    have hitem : seen (OrderEntryClassic.accountBalanceAck context [item]) = restFunds item := by
      by_cases hcross : item.crossWalletBalance = nan <;>
        simp [seen, fundsOf, OrderEntryClassic.accountBalanceAck, restFunds, hcross]
    rw [happend, seen, fundsOf, List.filterMap_append, List.map_append, List.flatMap_cons, ← ih, ← hitem]
    rfl

theorem seen_accountBalance (items : List AccountBalanceAckItem) :
    seen (WebSocket.accountBalance context ⟨200, items⟩) = items.map socketFunds := by
  simp [seen, fundsOf, WebSocket.accountBalance, List.filterMap_map, Function.comp_def, socketFunds]

/-- The item says nothing about the balance, what is available of it and the cross wallet. -/
def Blank (item : AccountBalanceAckItem) : Prop :=
  item.balance = nan ∧ item.availableBalance = nan ∧ item.crossWalletBalance = nan

/-- The first entry is the same on both sides where both balances are missing. -/
theorem head_eq_iff (item : AccountBalanceAckItem) :
    (⟨item.asset, .undefined, item.balance, Double.sub item.balance item.availableBalance,
        getUnrealizedPnl item.umUnrealizedPnl item.cmUnrealizedPnl⟩ : Funds) = socketFunds item
      ↔ item.balance = nan ∧ item.availableBalance = nan := by
  cases hbalance : item.balance with
  | none => cases havailable : item.availableBalance <;> simp [socketFunds, havailable, Double.sub, nan]
  | some b => cases havailable : item.availableBalance <;> simp [socketFunds, havailable, Double.sub, nan]

theorem flatMap_eq_map_iff (items : List AccountBalanceAckItem) :
    items.flatMap restFunds = items.map socketFunds ↔ ∀ item ∈ items, Blank item := by
  induction items with
  | nil => simp
  | cons item items ih =>
    rw [List.flatMap_cons, List.map_cons, List.forall_mem_cons, ← ih]
    by_cases hcross : item.crossWalletBalance = nan
    · rw [restFunds, if_pos hcross, List.cons_append, List.nil_append, List.cons_eq_cons, head_eq_iff]
      simp [Blank, hcross]
    · -- no entry of the socket is of the cross wallet
      refine iff_of_false (fun heq => ?_) fun h => hcross h.1.2.2
      rw [restFunds, if_neg hcross, List.cons_append, List.cons_eq_cons] at heq
      have hmem : (⟨item.asset, .cross, item.crossWalletBalance, nan, item.crossUnPnl⟩ : Funds)
          ∈ items.map socketFunds := by
        rw [← heq.2]
        exact List.mem_cons_self
      obtain ⟨item', -, hitem'⟩ := List.mem_map.mp hmem
      cases congrArg Funds.marginMode hitem'

/-- BUG: a classic account's funds are the same by REST and over the socket only where there is nothing
    to be seen. REST publishes the balance and what is held of it, and the cross wallet, the socket
    what is available. -/
theorem seen_eq_iff (context : Context) (items : List AccountBalanceAckItem) :
    seen (OrderEntryClassic.accountBalanceAck context items)
        = seen (WebSocket.accountBalance context ⟨200, items⟩)
      ↔ ∀ item ∈ items, Blank item := by
  rw [seen_accountBalanceAck, seen_accountBalance, flatMap_eq_map_iff]

/-- A wallet of 100, of which 60 are available. -/
def wallet : List AccountBalanceAckItem := [{
  asset := "USDT", balance := some 100, availableBalance := some 60, crossWalletBalance := some 100,
  crossUnPnl := some 0 }]

/-- By REST the client sees 100, of which 40 are held, and the cross wallet; over the socket it sees 60. -/
theorem not_seen_wallet :
    seen (OrderEntryClassic.accountBalanceAck everything wallet)
        = [⟨"USDT", .undefined, some 100, some 40, nan⟩, ⟨"USDT", .cross, some 100, nan, some 0⟩] ∧
      seen (WebSocket.accountBalance everything ⟨200, wallet⟩)
        = [⟨"USDT", .undefined, some 60, nan, nan⟩] ∧
      seen (OrderEntryClassic.accountBalanceAck everything wallet)
        ≠ seen (WebSocket.accountBalance everything ⟨200, wallet⟩) := by
  rw [seen_accountBalanceAck, seen_accountBalance]
  decide +kernel

end Holdings

end BinanceFutures
