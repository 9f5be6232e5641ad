import BinanceFutures.Basics
import BinanceFutures.Schemes.Machine
import BinanceFutures.Schemes.Tray

/-! # Rate limits

    Every REST connection reports the rate limits that the exchange puts into the headers of a response.
    They are collected from header to header, in one vector that the connections share.

        MessageBegin ── clear ─▶ MessageHeader ── append ─▶ … ─▶ MessageEnd ── publish, clear ─▶

    The WebSocket API has its rate limits in the response itself; it uses the same vector, from the clear
    to the clear in one call. -/

namespace BinanceFutures
open Machine

inductive RateLimitType where
  | undefined | orderAction | createOrder | request | requestWeight | createAndModifyOrder
  | modifyOrder | cancelOrder
  deriving DecidableEq

structure RateLimit where
  type : RateLimitType
  period : Nanos
  endTimeUtc : Nanos := 0
  limit : UInt32
  value : UInt32
  deriving DecidableEq

structure RateLimitsUpdate where
  streamId : UInt16
  account : String
  origin : Origin
  rateLimits : List RateLimit
  deriving DecidableEq

namespace Json

inductive RateLimitType where
  | undefinedInternal | unknownInternal | requestWeight | orders | rawRequests
  deriving DecidableEq

inductive Interval where | undefinedInternal | unknownInternal | minute | second | day
  deriving DecidableEq

structure WSAPIRateLimitsItem where
  rateLimitType : RateLimitType
  interval : Interval
  intervalNum : UInt32
  limit : UInt32
  count : UInt32

/-- `protocol::json::RateLimit`, of the exchange info. -/
structure RateLimit where
  rateLimitType : RateLimitType
  interval : Interval
  intervalNum : Int32
  limit : Int32

end Json

namespace RateLimits

/-- `Shared::limits` -/
structure Limits where
  requestWeight1m : UInt32 := 0
  createOrder10s : UInt32 := 0
  createOrder1m : UInt32 := 0

/-- The members of `Shared` that the handlers use. -/
structure Shared where
  rateLimits : List RateLimit := []
  limits : Limits := {}

/-- The classes with a connection that reports rate limits. -/
inductive Client where
  | rest | orderEntryClassic | orderEntryPortfolio | restTrade | webSocket
  deriving DecidableEq

structure Connection where
  client : Client
  streamId : UInt16
  account : String
  deriving DecidableEq

inductive Event where
  | messageBegin (c : Connection)
  | messageHeader (c : Connection) (name value : String)
  | messageEnd (c : Connection)
  /-- A response of the WebSocket API. -/
  | updateRateLimits (c : Connection) (items : List Json.WSAPIRateLimitsItem)
  /-- The rate limits of an exchange info. -/
  | exchangeInfo (items : List Json.RateLimit)

/-- `X_MBX_USED_WEIGHT_1M` -/
def usedWeight1m : String := "x-mbx-used-weight-1m"

/-- `X_MBX_ORDER_COUNT_1M` -/
def orderCount1m : String := "x-mbx-order-count-1m"

section
variable (charconv : String → Option UInt32)

/-- The rate limit of a header, if it is the one, whatever its case, and its value is a number. -/
def fromHeader (header : String) (type : RateLimitType) (limit : UInt32) (name value : String) :
    List RateLimit :=
  if toLower name = header then
    match charconv value with
    | some value => [{ type, period := seconds 60, limit, value }]
    | none => []
  else []

/-- `Rest::operator()(MessageHeader)` -/
def restHeader (limits : Limits) (name value : String) : List RateLimit :=
  fromHeader charconv usedWeight1m .requestWeight limits.requestWeight1m name value

/-- `operator()(MessageHeader)` of `OrderEntryClassic`, `OrderEntryPortfolio` and `RestTrade` -/
def orderEntryHeader (limits : Limits) (name value : String) : List RateLimit :=
  fromHeader charconv usedWeight1m .requestWeight limits.requestWeight1m name value
    ++ fromHeader charconv orderCount1m .createOrder limits.createOrder1m name value

/-- The rate limits that a connection reads from a header. -/
def parseHeader (limits : Limits) (name value : String) : Client → List RateLimit
  | .rest => restHeader charconv limits name value
  | .orderEntryClassic | .orderEntryPortfolio | .restTrade =>
    orderEntryHeader charconv limits name value
  | .webSocket => []

def rateLimitType : Json.RateLimitType → RateLimitType
  | .undefinedInternal | .unknownInternal => .undefined
  | .orders => .createOrder
  | .requestWeight => .requestWeight
  | .rawRequests => .request

def period (interval : Json.Interval) (intervalNum : UInt32) : Nanos :=
  match interval with
  | .undefinedInternal | .unknownInternal => 0
  | .second => intervalNum.toNat * seconds 1
  | .minute => intervalNum.toNat * seconds 60
  | .day => intervalNum.toNat * seconds 86400

/-- The rate limits of a response of the WebSocket API. -/
def parseItems (items : List Json.WSAPIRateLimitsItem) : List RateLimit :=
  items.filterMap fun item =>
    if rateLimitType item.rateLimitType = .undefined then none
    else some {
      type := rateLimitType item.rateLimitType
      period := period item.interval item.intervalNum
      limit := item.limit
      value := item.count }

/-- `Rest::operator()(ExchangeInfoAck)`, the rate limits. -/
def readLimit (limits : Limits) (item : Json.RateLimit) : Limits :=
  let limits :=
    if item.rateLimitType = .requestWeight ∧ item.interval = .minute ∧ item.intervalNum = 1 then
      { limits with requestWeight1m := item.limit.toUInt32 }
    else limits
  let limits :=
    if item.rateLimitType = .orders ∧ item.interval = .second ∧ item.intervalNum = 10 then
      { limits with createOrder10s := item.limit.toUInt32 }
    else limits
  if item.rateLimitType = .orders ∧ item.interval = .minute ∧ item.intervalNum = 1 then
    { limits with createOrder1m := item.limit.toUInt32 }
  else limits

/-- `Rest` has no account. -/
def Connection.accountName (c : Connection) : String := if c.client = .rest then "" else c.account

def rateLimitsUpdate (c : Connection) (rateLimits : List RateLimit) : RateLimitsUpdate where
  streamId := c.streamId
  account := c.accountName
  origin := .exchange
  rateLimits := rateLimits

abbrev Act := Action Shared RateLimitsUpdate

def clear : Act := modify fun shared => { shared with rateLimits := [] }

def append (rateLimits : List RateLimit) : Act :=
  modify fun shared => { shared with rateLimits := shared.rateLimits ++ rateLimits }

def publish (c : Connection) : Act := fun shared =>
  (shared, if shared.rateLimits = [] then [] else [rateLimitsUpdate c shared.rateLimits])

def messageBegin : Act := clear

def messageHeader (c : Connection) (name value : String) : Act := fun shared =>
  append (parseHeader charconv shared.limits name value c.client) shared

def messageEnd (c : Connection) : Act := fun shared =>
  if shared.rateLimits = [] then (shared, []) else seq (publish c) clear shared

/-- `update_rate_limits` -/
def updateRateLimits (c : Connection) (items : List Json.WSAPIRateLimitsItem) : Act :=
  seqAll [clear, append (parseItems items), publish c, clear]

def step : Event → Act
  | .messageBegin _ => messageBegin
  | .messageHeader c name value => messageHeader charconv c name value
  | .messageEnd c => messageEnd c
  | .updateRateLimits c items => updateRateLimits c items
  | .exchangeInfo items => modify fun shared =>
    { shared with limits := items.foldl readLimit shared.limits }

/-! ### Own responses -/

/-- The limits after an event. -/
def nextLimits (limits : Limits) : Event → Limits
  | .exchangeInfo items => items.foldl readLimit limits
  | _ => limits

/-- What an event does with the vector: it may clear it, or put rate limits into it. -/
def entry (limits : Limits) : Event → Option (Tray.Entry Connection RateLimit)
  | .messageBegin c | .messageEnd c | .updateRateLimits c _ => some { client := c, clears := true }
  | .messageHeader c name value =>
    some { client := c, items := parseHeader charconv limits name value c.client }
  | .exchangeInfo _ => none

/-- The entries of a run. -/
def entries : Limits → List Event → List (Tray.Entry Connection RateLimit)
  | _, [] => []
  | limits, e :: es => (entry charconv limits e).toList ++ entries (nextLimits limits e) es

/-- The rate limits of the connection's own response: what it has parsed since its own last begin or
    end, or what the response itself carries. -/
def response (pre : List Event) : Event → List RateLimit
  | .updateRateLimits _ items => parseItems items
  | .messageEnd c => Tray.tray (Tray.own c (entries charconv {} pre))
  | _ => []

/-- Every update that is published consists of the rate limits of the response that it ends. -/
def Isolated (es : List Event) : Prop :=
  ∀ pre e post, es = pre ++ e :: post → ∀ m ∈ (step charconv e (run (step charconv) pre {}).1).2,
    m.rateLimits = response charconv pre e

/-- Where a response ends, there is nothing to publish; or what is there is its own, and nobody has
    cleared the vector since its first rate limit. -/
def Undisturbed (es : List Event) : Prop :=
  ∀ pre c post, es = pre ++ .messageEnd c :: post → Tray.Undisturbed c (entries charconv {} pre)

/-- Every update that is published consists of the rate limits of the response that it ends, and it is the
    response's own connection that has parsed each of them. -/
structure Attributed (es : List Event) : Prop where
  isolated : Isolated charconv es
  origins : ∀ pre c post, es = pre ++ .messageEnd c :: post →
    ∀ m ∈ (step charconv (.messageEnd c) (run (step charconv) pre {}).1).2,
      m.rateLimits = (Tray.signed (entries charconv {} pre)).map Prod.snd ∧
      Tray.signed (entries charconv {} pre) = Tray.signed (Tray.own c (entries charconv {} pre))

theorem entries_append : ∀ {es fs : List Event} {limits : Limits},
    entries charconv limits (es ++ fs)
      = entries charconv limits es ++ entries charconv (es.foldl nextLimits limits) fs
  | [], _, _ => rfl
  | e :: es, fs, limits => by
    rw [List.cons_append, entries, entries, entries_append, List.append_assoc]
    rfl

/-- A step does with the vector what its entry does with a tray. -/
theorem step_vector (e : Event) (shared : Shared) :
    (step charconv e shared).1.limits = nextLimits shared.limits e ∧
    (step charconv e shared).1.rateLimits
      = match entry charconv shared.limits e with
        | none => shared.rateLimits
        | some entry => if entry.clears then [] else shared.rateLimits ++ entry.items := by
  cases e with
  | messageBegin c | messageHeader c name value | updateRateLimits c items | exchangeInfo items =>
    exact ⟨rfl, rfl⟩
  | messageEnd c =>
    dsimp only [step, messageEnd]
    split
    next hempty => exact ⟨rfl, hempty⟩
    next => exact ⟨rfl, rfl⟩

/-- The vector is what lies on the tray. -/
theorem run_vector (es : List Event) :
    (run (step charconv) es {}).1.limits = es.foldl nextLimits {} ∧
    (run (step charconv) es {}).1.rateLimits = Tray.tray (entries charconv {} es) := by
  induction es using List.reverseRecOn with
  | nil => exact ⟨rfl, rfl⟩
  | append_singleton es e ih =>
    obtain ⟨hlimits, hvector⟩ := ih
    obtain ⟨hlimits', hvector'⟩ := step_vector charconv e (run (step charconv) es {}).1
    rw [run_concat_fst, hlimits', hvector', hlimits, hvector, List.foldl_append, entries_append,
      entries, entries, List.append_nil]
    refine ⟨rfl, ?_⟩
    cases entry charconv (es.foldl nextLimits {}) e with
    | none => simp
    | some entry =>
      dsimp only
      split
      next hclears => rw [Option.toList_some, Tray.tray_clears _ hclears]
      next hkeeps => rw [Option.toList_some, Tray.tray_puts _ (by simpa using hkeeps)]

/-- A response of the WebSocket API is published as it is, whatever is in the vector. -/
theorem updateRateLimits_publishes (c : Connection) (items : List Json.WSAPIRateLimitsItem)
    (shared : Shared) : ∀ m ∈ (updateRateLimits c items shared).2, m.rateLimits = parseItems items := by
  intro m hm
  simp only [updateRateLimits, seqAll, seq_snd, clear, append, publish, modify_apply,
    skip_apply, List.nil_append, List.append_nil] at hm
  split at hm
  · cases hm
  · rw [List.mem_singleton.mp hm]
    rfl

/-- What the end of a response publishes. -/
theorem messageEnd_publishes (c : Connection) (shared : Shared) :
    (messageEnd c shared).2
      = if shared.rateLimits = [] then [] else [rateLimitsUpdate c shared.rateLimits] := by
  by_cases hempty : shared.rateLimits = []
  · simp [messageEnd, hempty]
  · simp [messageEnd, publish, clear, hempty]

/-- The rate limits and their connections are those of the vector. -/
theorem vector_signed (pre : List Event) :
    (run (step charconv) pre {}).1.rateLimits = (Tray.signed (entries charconv {} pre)).map Prod.snd := by
  rw [(run_vector charconv pre).2, Tray.map_signed]

/-- What a connection publishes at the end of a response is its own where that is so by its origin. -/
theorem isolated_of_signed {es : List Event}
    (h : ∀ pre c post, es = pre ++ .messageEnd c :: post → Tray.signed (entries charconv {} pre) = [] ∨
      Tray.signed (entries charconv {} pre) = Tray.signed (Tray.own c (entries charconv {} pre))) :
    Isolated charconv es := by
  intro pre e post hes m hm
  cases e with
  | messageBegin | messageHeader | exchangeInfo => cases hm
  | updateRateLimits c items => exact updateRateLimits_publishes c items _ m hm
  | messageEnd c =>
    rw [step, messageEnd_publishes, vector_signed] at hm
    rcases h pre c post hes with hnothing | hown
    · simp [hnothing] at hm
    · rw [hown, Tray.map_signed] at hm
      split at hm
      · cases hm
      · rw [List.mem_singleton.mp hm]
        rfl

/-- EXACT: over every run the updates that are published consist of the rate limits of their own response,
    in numbers and by origin, if and only if no response is disturbed by another connection. -/
theorem attributed_iff {es : List Event} : Attributed charconv es ↔ Undisturbed charconv es := by
  constructor
  · intro h pre c post hes
    rw [Tray.undisturbed_iff]
    by_cases hvector : (run (step charconv) pre {}).1.rateLimits = []
    · rw [vector_signed, List.map_eq_nil_iff] at hvector
      exact Or.inl hvector
    · have hmem : rateLimitsUpdate c (run (step charconv) pre {}).1.rateLimits
          ∈ (step charconv (.messageEnd c) (run (step charconv) pre {}).1).2 := by
        rw [step, messageEnd_publishes, if_neg hvector]
        exact List.mem_singleton_self _
      exact Or.inr (h.origins pre c post hes _ hmem).2
  · intro h
    have hsigned := fun pre c post hes => Tray.undisturbed_iff.mp (h pre c post hes)
    refine ⟨isolated_of_signed charconv hsigned, fun pre c post hes m hm => ?_⟩
    rw [step, messageEnd_publishes] at hm
    split at hm
    · cases hm
    next hsome =>
      rw [List.mem_singleton.mp hm]
      refine ⟨vector_signed charconv pre, (hsigned pre c post hes).resolve_left fun hnothing => hsome ?_⟩
      rw [vector_signed, hnothing, List.map_nil]

end

/-- A number of one digit. -/
def digit (value : String) : Option UInt32 :=
  match value with
  | "5" => some 5
  | "7" => some 7
  | _ => none

def rest : Connection := ⟨.rest, 1, ""⟩

def orderEntry : Connection := ⟨.orderEntryClassic, 2, "A1"⟩

/-- Two responses, one inside the other, that do not get into each other's way. -/
def nested : List Event :=
  [.messageBegin rest, .messageBegin orderEntry,
    .messageHeader orderEntry "X-MBX-USED-WEIGHT-1M" "7", .messageEnd orderEntry,
    .messageHeader rest "X-MBX-USED-WEIGHT-1M" "5", .messageEnd rest]

theorem nested_attributed : Attributed digit nested := by
  refine (attributed_iff digit).mpr fun pre c post hsplit => ?_
  have hown : ∀ (own since : List (Tray.Entry Connection RateLimit)), own = since →
      ∀ before, own = before ++ since → ∀ e ∈ before, e.items = [] := by
    rintro own since rfl before hbefore e he
    rw [List.self_eq_append_left.mp hbefore] at he
    cases he
  have hend : nested[pre.length]? = some (.messageEnd c) := by simp [hsplit]
  have hpre : pre = nested.take pre.length := by simp [hsplit]
  generalize pre.length = n at hend hpre
  subst hpre
  match n, hend with
  | 3, hend =>
    obtain rfl : orderEntry = c := by simpa [nested] using hend
    exact Or.inr ⟨by decide, hown _ _ rfl⟩
  | 5, hend =>
    obtain rfl : rest = c := by simpa [nested] using hend
    exact Or.inr ⟨by decide, hown _ _ rfl⟩
  | 0, hend | 1, hend | 2, hend | 4, hend => simp [nested] at hend
  | n + 6, hend => simp [nested] at hend

/-- Two responses whose headers arrive in turns. -/
def mixed : List Event :=
  [.messageBegin rest, .messageBegin orderEntry, .messageHeader rest "X-MBX-USED-WEIGHT-1M" "5",
    .messageHeader orderEntry "X-MBX-USED-WEIGHT-1M" "7", .messageEnd orderEntry]

/-- The rate limit of one is published as that of the other. -/
theorem mixed_not_isolated : ¬ ∀ es, Isolated digit es := by
  intro h
  have hupdate := h mixed (mixed.take 4) (.messageEnd orderEntry) [] rfl
    (rateLimitsUpdate orderEntry [⟨.requestWeight, seconds 60, 0, 0, 5⟩,
      ⟨.requestWeight, seconds 60, 0, 0, 7⟩]) (by decide)
  revert hupdate
  decide

end RateLimits
end BinanceFutures
