import Mathlib.Data.Rat.Defs

/-! # Words shared by every module

    Time, numbers, HTTP status codes, and the enumerations of the client library that the gateway
    publishes. -/

namespace BinanceFutures

/-- `std::chrono::nanoseconds`, a time since the epoch or a duration. -/
abbrev Nanos := ℕ

def seconds (n : ℕ) : Nanos := n * 1000000000

def milliseconds (n : ℕ) : Nanos := n * 1000000

/-- `double`: a number, or `none` for NaN. -/
abbrev Double := Option ℚ

def nan : Double := none

def Double.sub (x y : Double) : Double := x.bind fun a => y.map fun b => a - b

/-- `emplace` of an `unordered_set` -/
def emplace (symbols : List String) (symbol : String) : List String :=
  if symbol ∈ symbols then symbols else symbols ++ [symbol]

theorem mem_emplace {symbols : List String} {symbol s : String} :
    s ∈ emplace symbols symbol ↔ s ∈ symbols ∨ s = symbol := by
  unfold emplace
  split
  next hmem =>
    constructor
    · exact Or.inl
    · rintro (hs | rfl)
      · exact hs
      · exact hmem
  next => rw [List.mem_append, List.mem_singleton]

/-- `std::tolower`, of the characters of a string -/
def toLower (s : String) : String := String.ofList (s.toList.map Char.toLower)

theorem char_toLower (c : Char) : c.toLower.toLower = c.toLower := by
  unfold Char.toLower
  split
  next hupper =>
    split
    next hlower =>
      exfalso
      revert hupper hlower
      simp only [ge_iff_le, UInt32.le_iff_toNat_le, UInt32.toNat_add]
      simp
      omega
    next => rfl
  next => rfl

@[simp] theorem toLower_toLower (s : String) : toLower (toLower s) = toLower s := by
  have hmap : (s.toList.map Char.toLower).map Char.toLower = s.toList.map Char.toLower := by
    rw [List.map_map]
    exact List.map_congr_left fun c _ => char_toLower c
  rw [toLower, toLower, String.toList_ofList, hmap]

/-! ### `web::http::Status` -/

def ok : ℕ := 200
def forbidden : ℕ := 403
def iAmATeapot : ℕ := 418
def tooManyRequests : ℕ := 429

/-! ### Enumerations of the client library -/

inductive MarginMode where | undefined | isolated | cross | portfolio
  deriving DecidableEq

inductive ConnectionStatus where | undefined | disconnected | loginSent | downloading | ready
  deriving DecidableEq

inductive Origin where | undefined | gateway | exchange
  deriving DecidableEq

inductive RequestType where | undefined | createOrder | modifyOrder | cancelOrder
  deriving DecidableEq

inductive RequestStatus where | undefined | forwarded | accepted | rejected | error
  deriving DecidableEq

inductive Side where | undefined | buy | sell
  deriving DecidableEq

inductive OrderType where | undefined | market | limit
  deriving DecidableEq

inductive TimeInForce where
  | undefined | gfd | gtc | opg | ioc | fok | gtx | gtd | atTheClose | goodThroughCrossing | atCrossing
  | goodForTime | gfa | gfm
  deriving DecidableEq

/-- The members of `roq::ExecutionInstruction` that the gateway tests. -/
inductive ExecutionInstruction where | participateDoNotInitiate | doNotIncrease
  deriving DecidableEq

inductive OrderStatus where | undefined | working | completed | canceled | expired | rejected
  deriving DecidableEq

inductive Liquidity where | undefined | maker | taker
  deriving DecidableEq

inductive UpdateType where | undefined | snapshot | incremental
  deriving DecidableEq

/-- The members of `roq::Error` that the gateway sets. -/
inductive Error where
  | undefined | unknown | requestRateLimitReached | tooLateToModifyOrCancel | modifyHasNoEffect
  | unknownExternalOrderId | networkError | invalidRequestArgs
  deriving DecidableEq

/-- What a request handler may throw at its caller. -/
inductive Exn where
  | runtimeError (what : String)
  | notSupported (what : String)
  | notReady (what : String)
  | rejected (error : Error) (what : String)
  deriving DecidableEq

end BinanceFutures
