import BinanceFutures.Schemes.Scan
import Mathlib.Algebra.Order.Ring.Int
import Mathlib.Data.List.Perm.Basic

/-! # Parsers of the streams

    A stream delivers JSON objects. `MarketStreamParser` goes through the fields of a message, twice if it
    has to, until one of them says what the message is; `UserStreamParser` looks for the type of the
    event only. What they find is handed to one handler.

        {"result":null, "id":3}        {"e":"bookTicker", "u":…, "s":…}
              │           └─▶ id = 3     └─▶ handler (BookTicker)
              └─▶ id < 0, next
              ─ again ─▶ handler (Result, 3)

    The process ends where something is logged as fatal. The build is a release build: there a key that
    is not known is passed over. The types of the messages are generated and take the messages they
    are made for. -/

namespace BinanceFutures.Json

/-- How a parser ends. -/
inductive Ending where
  | returned (value : Bool)
  | thrown
  | fatal
  deriving DecidableEq

/-- The calls of handlers, and how it ended. -/
structure Outcome (κ : Type) where
  calls : List κ := []
  ending : Ending
  deriving DecidableEq

/-- `EventType` -/
inductive EventType where
  | undefinedInternal | unknownInternal | trade | aggTrade | _24hrMiniTicker | bookTicker | depthUpdate
  | markPriceUpdate | kline | assetIndexUpdate | orderTradeUpdate | accountUpdate | marginCall
  | strategyUpdate | gridUpdate | accountConfigUpdate | listenKeyExpired | tradeLite | balanceUpdate
  | executionReport | liabilityChange | outboundAccountPosition | positionHistoryUpdate | algoUpdate
  | forceOrder
  deriving DecidableEq

/-- The texts of the enumeration. -/
def EventType.names : List (String × EventType) :=
  [("trade", .trade), ("aggTrade", .aggTrade), ("24hrMiniTicker", ._24hrMiniTicker),
    ("bookTicker", .bookTicker), ("depthUpdate", .depthUpdate), ("markPriceUpdate", .markPriceUpdate),
    ("kline", .kline), ("assetIndexUpdate", .assetIndexUpdate),
    ("ORDER_TRADE_UPDATE", .orderTradeUpdate), ("ACCOUNT_UPDATE", .accountUpdate),
    ("MARGIN_CALL", .marginCall), ("STRATEGY_UPDATE", .strategyUpdate), ("GRID_UPDATE", .gridUpdate),
    ("ACCOUNT_CONFIG_UPDATE", .accountConfigUpdate), ("listenKeyExpired", .listenKeyExpired),
    ("TRADE_LITE", .tradeLite), ("balanceUpdate", .balanceUpdate),
    ("executionReport", .executionReport), ("liabilityChange", .liabilityChange),
    ("outboundAccountPosition", .outboundAccountPosition),
    ("POSITION_HISTORY_UPDATE", .positionHistoryUpdate), ("ALGO_UPDATE", .algoUpdate),
    ("forceOrder", .forceOrder)]

/-- `Field`: the keys that the market stream's parser knows. -/
inductive StreamField where
  | undefinedInternal | unknownInternal | id | error | result | stream | data | eventType
  | orderBookUpdateId
  deriving DecidableEq

/-- The keys of the enumeration. -/
def StreamField.names : List (String × StreamField) :=
  [("id", .id), ("error", .error), ("result", .result), ("stream", .stream), ("data", .data),
    ("e", .eventType), ("u", .orderBookUpdateId)]

/-- `core::json::Object`: the fields of a message, in their order. -/
abbrev Object (ν : Type) := List (String × ν)

/-- What is generated or belongs to the client library: the enumerations, and what a value is read as,
    `none` where that throws. The text of a value that is an object itself is shorter than the message
    that the value stands in. -/
structure Reader (ν : Type) where
  field : String → StreamField
  eventType : ν → Option EventType
  int64 : ν → Option Int64
  text : ν → Option String
  object : String → Option (Object ν)
  size : Object ν → ℕ
  field_names : ∀ p ∈ StreamField.names, field p.1 = p.2
  object_size : ∀ {message : Object ν} {key : String} {value : ν} {text' : String} {fields : Object ν},
    (key, value) ∈ message → text value = some text' → object text' = some fields →
      size fields < size message

/-- A value of a flat message. -/
inductive FlatValue where
  | null
  | text (value : String)
  | integer (value : Int64)
  deriving DecidableEq

/-- Flat messages: a text is never an object. -/
def Reader.flat : Reader FlatValue where
  field key := ((StreamField.names.lookup key).getD .unknownInternal)
  eventType
    | .null => some .undefinedInternal
    | .text value => some ((EventType.names.lookup value).getD .unknownInternal)
    | .integer _ => none
  int64
    | .integer value => some value
    | _ => none
  text
    | .null => some ""
    | .text value => some value
    | .integer _ => none
  object _ := none
  size := List.length
  field_names := by decide
  object_size _ _ h := by cases h

namespace MarketStreamParser

/-- The handlers, and the id that a response's handler is given. -/
inductive Handler where
  | error (id : Int32)
  | result (id : Int32)
  | trade2 | aggTrade | miniTicker | bookTicker | depthUpdate | markPriceUpdate | kline
  | assetIndexUpdate | forceOrder
  deriving DecidableEq

/-- What the handler's object is parsed from: one value, or the whole message. -/
inductive Source (ν : Type) where
  | value (value : ν)
  | message (message : Object ν)
  deriving DecidableEq

structure Call (ν : Type) where
  handler : Handler
  source : Source ν
  deriving DecidableEq

variable {ν : Type} (reader : Reader ν) (allowUnknownEventTypes : Bool)

/-- The outcome of a message after which `dispatch` returns true. -/
def called (handler : Handler) (source : Source ν) : Outcome (Call ν) where
  calls := [⟨handler, source⟩]
  ending := .returned true

/-- The switch on the event's type. -/
def visitEvent (message : Object ν) (id : Int64) : EventType → Except (Outcome (Call ν)) Int64
  | .undefinedInternal => .ok id
  | .unknownInternal =>
    .error { ending := if allowUnknownEventTypes then .returned false else .fatal }
  | .trade => .error (called .trade2 (.message message))
  | .aggTrade => .error (called .aggTrade (.message message))
  | ._24hrMiniTicker => .error (called .miniTicker (.message message))
  | .bookTicker => .error (called .bookTicker (.message message))
  | .depthUpdate => .error (called .depthUpdate (.message message))
  | .markPriceUpdate => .error (called .markPriceUpdate (.message message))
  | .kline => .error (called .kline (.message message))
  | .assetIndexUpdate => .error (called .assetIndexUpdate (.message message))
  | .orderTradeUpdate => .error { ending := .fatal }
  | .accountUpdate => .error { ending := .fatal }
  | .marginCall => .error { ending := .fatal }
  | .gridUpdate => .error { ending := .fatal }
  | .strategyUpdate => .error { ending := .fatal }
  | .accountConfigUpdate => .error { ending := .fatal }
  | .listenKeyExpired => .error { ending := .returned true }
  | .tradeLite => .error { ending := .fatal }
  | .balanceUpdate => .error { ending := .fatal }
  | .executionReport => .error { ending := .fatal }
  | .liabilityChange => .error { ending := .fatal }
  | .outboundAccountPosition => .error { ending := .fatal }
  | .positionHistoryUpdate => .error { ending := .fatal }
  | .algoUpdate => .error { ending := .fatal }
  | .forceOrder => .error (called .forceOrder (.message message))

/-- What the outer call makes of the recursive one: its answer is not looked at. -/
def unwrapped (outcome : Outcome (Call ν)) : Outcome (Call ν) :=
  { outcome with
    ending := match outcome.ending with
      | .returned _ => .returned true
      | .thrown => .thrown
      | .fatal => .fatal }

/-- One field of the message: the id afterwards, or the outcome with which `dispatch` returns. -/
def visit (inner : Object ν → Outcome (Call ν)) (message : Object ν) (id : Int64) (field : String × ν) :
    Except (Outcome (Call ν)) Int64 :=
  match reader.field field.1 with
  | .undefinedInternal => .error { ending := .fatal }
  | .unknownInternal => .ok id
  | .id =>
    match reader.int64 field.2 with
    | none => .error { ending := .thrown }
    | some id => .ok id
  | .error => if 0 ≤ id then .error (called (.error id.toInt32) (.value field.2)) else .ok id
  | .result => if 0 ≤ id then .error (called (.result id.toInt32) (.value field.2)) else .ok id
  | .stream => .ok id
  | .data =>
    match (reader.text field.2).bind reader.object with
    | none => .error { ending := .thrown }
    | some fields => .error (unwrapped (inner fields))
  | .eventType =>
    match reader.eventType field.2 with
    | none => .error { ending := .thrown }
    | some type => visitEvent allowUnknownEventTypes message id type
  | .orderBookUpdateId => .ok id

/-- One pass over the message. -/
def pass (inner : Object ν → Outcome (Call ν)) (message : Object ν) (id : Int64) :
    Except (Outcome (Call ν)) Int64 :=
  message.foldlM (visit reader allowUnknownEventTypes inner message) id

/-- The two passes: a message that neither of them makes out is fatal. -/
def passes (inner : Object ν → Outcome (Call ν)) (message : Object ν) : Outcome (Call ν) :=
  match pass reader allowUnknownEventTypes inner message (-1) >>=
      pass reader allowUnknownEventTypes inner message with
  | .error outcome => outcome
  | .ok _ => { ending := .fatal }

/-- `dispatch`, with a bound on how deep messages are nested. -/
def dispatchWithin : ℕ → Object ν → Outcome (Call ν)
  | 0, _ => { ending := .fatal }
  | depth + 1, message => passes reader allowUnknownEventTypes (dispatchWithin depth) message

/-- `dispatch`: no message is nested deeper than it is long. -/
def dispatch (message : Object ν) : Outcome (Call ν) :=
  dispatchWithin reader allowUnknownEventTypes (reader.size message + 1) message

/-! ### The bound -/

variable {reader} {allowUnknownEventTypes : Bool}

/-- A pass depends on the outcomes of the messages inside of its own only. -/
theorem pass_congr {inner inner' : Object ν → Outcome (Call ν)} {message : Object ν}
    (h : ∀ fields, reader.size fields < reader.size message → inner fields = inner' fields) (id : Int64) :
    pass reader allowUnknownEventTypes inner message id
      = pass reader allowUnknownEventTypes inner' message id := by
  refine Scan.foldlM_congr (fun id field hfield => ?_) id
  unfold visit
  cases hkey : reader.field field.1 with
  | data =>
    cases htext : reader.text field.2 with
    | none => rfl
    | some text =>
      cases hobject : reader.object text with
      | none => simp [hobject]
      | some fields =>
        have hsize := reader.object_size hfield htext hobject
        simp [hobject, h fields hsize]
  | _ => rfl

/-- A bound that is larger than the message makes no difference. -/
theorem dispatchWithin_eq {depth depth' : ℕ} {message : Object ν} (h : reader.size message < depth)
    (h' : reader.size message < depth') :
    dispatchWithin reader allowUnknownEventTypes depth message
      = dispatchWithin reader allowUnknownEventTypes depth' message := by
  induction depth generalizing depth' message with
  | zero => cases h
  | succ depth ih =>
    cases depth' with
    | zero => cases h'
    | succ depth' =>
      have hinner : ∀ fields, reader.size fields < reader.size message →
          dispatchWithin reader allowUnknownEventTypes depth fields
            = dispatchWithin reader allowUnknownEventTypes depth' fields :=
        fun fields hfields => ih (by omega) (by omega)
      have hpass : pass reader allowUnknownEventTypes _ message
          = pass reader allowUnknownEventTypes _ message := funext (pass_congr hinner)
      simp only [dispatchWithin, passes, hpass]

/-- The recursion of `dispatch`. -/
theorem dispatch_eq (message : Object ν) :
    dispatch reader allowUnknownEventTypes message
      = passes reader allowUnknownEventTypes (dispatch reader allowUnknownEventTypes) message := by
  have hpass : pass reader allowUnknownEventTypes
        (dispatchWithin reader allowUnknownEventTypes (reader.size message)) message
      = pass reader allowUnknownEventTypes (dispatch reader allowUnknownEventTypes) message :=
    funext (pass_congr fun fields hfields => dispatchWithin_eq hfields (Nat.lt_succ_self _))
  simp only [dispatch, dispatchWithin, passes, hpass]

/-- Where the two passes are sure to return an outcome, it is that of the message. -/
theorem dispatch_eq_of_post {message : Object ν} {outcome : Outcome (Call ν)} {I : Int64 → Prop}
    (hfirst : Scan.Post I (· = outcome) (pass reader allowUnknownEventTypes
      (dispatch reader allowUnknownEventTypes) message (-1)))
    (hsecond : ∀ id, I id → Scan.Post (fun _ => False) (· = outcome) (pass reader allowUnknownEventTypes
      (dispatch reader allowUnknownEventTypes) message id)) :
    dispatch reader allowUnknownEventTypes message = outcome := by
  have hboth := hfirst.bind hsecond
  rw [dispatch_eq, passes]
  split
  next outcome' heq =>
    rw [heq] at hboth
    exact hboth
  next id heq =>
    rw [heq] at hboth
    exact hboth.elim

/-! ### What the stream delivers -/

/-- The body of a response. -/
inductive Body where | error | result
  deriving DecidableEq

def Body.key : Body → String
  | .error => "error"
  | .result => "result"

/-- The handler of the body, with an id. -/
def Body.handler : Body → Int32 → Handler
  | .error => .error
  | .result => .result

/-- The handler of a market event, where the parser forwards it. -/
def forwarded : EventType → Option Handler
  | .trade => some .trade2
  | .aggTrade => some .aggTrade
  | ._24hrMiniTicker => some .miniTicker
  | .bookTicker => some .bookTicker
  | .depthUpdate => some .depthUpdate
  | .markPriceUpdate => some .markPriceUpdate
  | .kline => some .kline
  | .assetIndexUpdate => some .assetIndexUpdate
  | .forceOrder => some .forceOrder
  | _ => none

/-- A response to a request of the gateway; `others` are fields that the parser does not know or look
    at. -/
structure Response (reader : Reader ν) where
  idValue : ν
  id : Int64
  body : Body
  value : ν
  others : Object ν
  reads : reader.int64 idValue = some id
  nonneg : 0 ≤ id
  unknown : ∀ x ∈ others, reader.field x.1 ∈ [.unknownInternal, .stream, .orderBookUpdateId]

/-- A market event. It has neither id nor data. -/
structure Event (reader : Reader ν) where
  value : ν
  type : EventType
  handler : Handler
  others : Object ν
  reads : reader.eventType value = some type
  handled : forwarded type = some handler
  unknown : ∀ x ∈ others,
    reader.field x.1 ∈ [.unknownInternal, .stream, .orderBookUpdateId, .error, .result]

namespace Response

def fields (response : Response reader) : Object ν :=
  ("id", response.idValue) :: (response.body.key, response.value) :: response.others

/-- The outcome of the response: its id has been narrowed to 32 bits. -/
def outcome (response : Response reader) : Outcome (Call ν) :=
  called (response.body.handler response.id.toInt32) (.value response.value)

end Response

def Event.fields (event : Event reader) : Object ν := ("e", event.value) :: event.others

variable {inner : Object ν → Outcome (Call ν)} {message : Object ν}

theorem visit_id {value : ν} {id : Int64} (hid : reader.int64 value = some id) (s : Int64) :
    visit reader allowUnknownEventTypes inner message s ("id", value) = .ok id := by
  simp [visit, reader.field_names ("id", .id) (by decide), hid]

/-- A body is handed on once there is an id. -/
theorem visit_body (body : Body) (value : ν) (s : Int64) :
    visit reader allowUnknownEventTypes inner message s (body.key, value)
      = if 0 ≤ s then .error (called (body.handler s.toInt32) (.value value)) else .ok s := by
  cases body with
  | error => simp [visit, Body.key, Body.handler, reader.field_names ("error", .error) (by decide)]
  | result => simp [visit, Body.key, Body.handler, reader.field_names ("result", .result) (by decide)]

/-- What the parser does not look at changes nothing. -/
theorem visit_unknown {x : String × ν}
    (hx : reader.field x.1 ∈ [.unknownInternal, .stream, .orderBookUpdateId]) (s : Int64) :
    visit reader allowUnknownEventTypes inner message s x = .ok s := by
  simp only [List.mem_cons, List.not_mem_nil, or_false] at hx
  rcases hx with hx | hx | hx <;> simp [visit, hx]

/-- The type of a market event is handed on to its handler. -/
theorem visit_forwarded {value : ν} {type : EventType} {handler : Handler}
    (htype : reader.eventType value = some type) (hhandler : forwarded type = some handler) (s : Int64) :
    visit reader allowUnknownEventTypes inner message s ("e", value)
      = .error (called handler (.message message)) := by
  simp only [visit, reader.field_names ("e", .eventType) (by decide), htype]
  cases type <;> simp only [forwarded, reduceCtorEq, Option.some_inj] at hhandler <;>
    (subst hhandler; rfl)

namespace Response

variable {response : Response reader}

/-- A field of a response leaves the id alone, sets it or hands on the body with it. -/
theorem visit_mem {x : String × ν} (hx : x ∈ response.fields) {s : Int64}
    (hs : s = -1 ∨ s = response.id) :
    Scan.Post (fun s' => s' = s ∨ s' = response.id) (· = response.outcome)
      (visit reader allowUnknownEventTypes inner message s x) := by
  rcases List.mem_cons.mp hx with rfl | hx
  · rw [visit_id response.reads]
    exact .inr rfl
  rcases List.mem_cons.mp hx with rfl | hx
  · rw [visit_body]
    split
    next hnonneg =>
      -- the id is there already
      have hid : s = response.id := hs.resolve_left fun heq => by
        subst heq
        exact absurd hnonneg (by decide)
      rw [hid]
      exact rfl
    next => exact .inl rfl
  · rw [visit_unknown (response.unknown x hx)]
    exact .inl rfl

/-- A response is handed on, in whatever order its fields stand. -/
theorem dispatch_eq (hmessage : message.Perm response.fields) :
    dispatch reader allowUnknownEventTypes message = response.outcome := by
  have hmem : ∀ x ∈ message, x ∈ response.fields := fun x hx => hmessage.mem_iff.mp hx
  have hid : ("id", response.idValue) ∈ message := hmessage.mem_iff.mpr (by simp [fields])
  have hbody : (response.body.key, response.value) ∈ message :=
    hmessage.mem_iff.mpr (by simp [fields])
  -- the id is known after the second pass at the latest
  have hkeeps : ∀ x ∈ message, ∀ s, s = response.id →
      Scan.Post (· = response.id) (· = response.outcome) (visit reader allowUnknownEventTypes
        (dispatch reader allowUnknownEventTypes) message s x) := by
    intro x hx s hs
    exact (visit_mem (hmem x hx) (.inr hs)).imp fun s' hs' => hs'.elim (·.trans hs) fun h => h
  refine dispatch_eq_of_post (I := (· = response.id)) ?_ fun id hid => ?_
  · refine Scan.post_foldlM_of_mem (I := fun s => s = -1 ∨ s = response.id) hid (fun s _ => ?_)
      (fun x hx s hs => ?_) hkeeps (.inl rfl)
    · rw [visit_id response.reads]
      exact rfl
    · refine (visit_mem (hmem x hx) hs).imp fun s' hs' => ?_
      rcases hs' with rfl | rfl
      · exact hs
      · exact .inr rfl
  · refine Scan.post_foldlM_of_mem (I := (· = response.id)) hbody (fun s hs => ?_) hkeeps
      (fun _ _ _ h => h.elim) hid
    rw [visit_body, hs, if_pos response.nonneg]
    exact rfl

end Response

/-- An event is handed on, in whatever order its fields stand. -/
theorem Event.dispatch_eq {event : Event reader} (hmessage : message.Perm event.fields) :
    dispatch reader allowUnknownEventTypes message = called event.handler (.message message) := by
  have htype : ("e", event.value) ∈ message := hmessage.mem_iff.mpr (by simp [fields])
  have hvisit : ∀ s, visit reader allowUnknownEventTypes (dispatch reader allowUnknownEventTypes) message
      s ("e", event.value) = .error (called event.handler (.message message)) :=
    visit_forwarded event.reads event.handled
  -- without an id a result or an error is passed over
  have hkeeps : ∀ x ∈ message, ∀ s : Int64, s = -1 → Scan.Post (· = -1)
      (· = called event.handler (.message message))
      (visit reader allowUnknownEventTypes (dispatch reader allowUnknownEventTypes) message s x) := by
    rintro x hx s rfl
    rcases List.mem_cons.mp (hmessage.mem_iff.mp hx) with rfl | hx'
    · rw [hvisit]
      exact rfl
    · have hfield := event.unknown x hx'
      simp only [List.mem_cons, List.not_mem_nil, or_false] at hfield
      rcases hfield with hfield | hfield | hfield | hfield | hfield <;> simp [visit, hfield]
  refine dispatch_eq_of_post (I := (· = -1)) (Scan.post_foldlM hkeeps rfl) fun id hid => ?_
  refine Scan.post_foldlM_of_mem htype (fun s _ => ?_) hkeeps (fun _ _ _ h => h.elim) hid
  rw [hvisit]
  exact rfl

/-! ### Delivery -/

/-- The two shapes of a message. -/
inductive Shape (reader : Reader ν) where
  | response (response : Response reader)
  | event (event : Event reader)

namespace Shape

def fields : Shape reader → Object ν
  | .response r => r.fields
  | .event e => e.fields

/-- One handler is called and `dispatch` returns true: the handler of the response's body, with the
    response's id, or that of the event's type. -/
def Delivered (message : Object ν) (outcome : Outcome (Call ν)) : Shape reader → Prop
  | .response r => ∃ id : Int32, id.toInt = r.id.toInt ∧
      outcome = called (r.body.handler id) (.value r.value)
  | .event e => outcome = called e.handler (.message message)

/-- The handlers of two outcomes, their ids and the answers of `dispatch` are the same. -/
def Alike (outcome outcome' : Outcome (Call ν)) : Prop :=
  outcome.calls.map Call.handler = outcome'.calls.map Call.handler ∧ outcome.ending = outcome'.ending

/-- The id of a response fits into the 32 bits of the handlers' parameter. -/
def InRange : Shape reader → Prop
  | .response r => r.id.toInt < 2 ^ 31
  | .event _ => True

end Shape

/-- An id survives the way to the handler where it fits. -/
theorem toInt32_eq_iff {id : Int64} (hnonneg : 0 ≤ id) : id.toInt32.toInt = id.toInt ↔ id.toInt < 2 ^ 31 := by
  have hpos : 0 ≤ id.toInt := by simpa [Int64.le_iff_toInt_le] using hnonneg
  constructor
  · intro heq
    have hlt := id.toInt32.toInt_lt
    omega
  · intro hlt
    rw [Int64.toInt_toInt32]
    exact Int.bmod_eq_of_le (by omega) (by omega)

/-- A response comes with its id where the id fits. -/
theorem Response.delivers_iff {response : Response reader} (hmessage : message.Perm response.fields) :
    (Shape.response response).Delivered message (dispatch reader allowUnknownEventTypes message)
      ↔ response.id.toInt < 2 ^ 31 := by
  rw [dispatch_eq hmessage, ← toInt32_eq_iff response.nonneg]
  constructor
  · rintro ⟨id, hid, houtcome⟩
    have hhandler : response.body.handler response.id.toInt32 = response.body.handler id := by
      simpa [outcome, called] using houtcome
    have heq : response.id.toInt32 = id := by
      cases hbody : response.body with
      | error => simpa [hbody, Body.handler] using hhandler
      | result => simpa [hbody, Body.handler] using hhandler
    rw [heq, hid]
  · intro hid
    exact ⟨response.id.toInt32, hid, rfl⟩

/-- The order of the fields makes no difference. -/
theorem alike_of_perm {shape : Shape reader} {message' : Object ν} (hmessage : message.Perm shape.fields)
    (hmessage' : message'.Perm shape.fields) :
    Shape.Alike (dispatch reader allowUnknownEventTypes message)
      (dispatch reader allowUnknownEventTypes message') := by
  cases shape with
  | response response =>
    rw [Response.dispatch_eq hmessage, Response.dispatch_eq hmessage']
    exact ⟨rfl, rfl⟩
  | event event =>
    rw [Event.dispatch_eq hmessage, Event.dispatch_eq hmessage']
    exact ⟨rfl, rfl⟩

/-- BUG: a message of the stream is handed to its handler, in whatever order its fields stand, but the
    id of a response gets there only below 2³¹: it is read as 64 bits and passed on as 32. -/
theorem delivered_iff (shape : Shape reader) (hmessage : message.Perm shape.fields) :
    (shape.Delivered message (dispatch reader allowUnknownEventTypes message) ∧
      ∀ message', message'.Perm shape.fields →
        Shape.Alike (dispatch reader allowUnknownEventTypes message)
          (dispatch reader allowUnknownEventTypes message'))
      ↔ shape.InRange := by
  have halike : ∀ message', message'.Perm shape.fields →
      Shape.Alike (dispatch reader allowUnknownEventTypes message)
        (dispatch reader allowUnknownEventTypes message') :=
    fun message' hmessage' => alike_of_perm hmessage hmessage'
  rw [and_iff_left halike]
  cases shape with
  | response response => exact Response.delivers_iff hmessage
  | event event => exact iff_of_true (Event.dispatch_eq hmessage) trivial

/-- A quote. -/
def quote : Event Reader.flat where
  value := .text "bookTicker"
  type := .bookTicker
  handler := .bookTicker
  others := [("u", .integer 400900217), ("s", .text "BTCUSDT")]
  reads := rfl
  handled := rfl
  unknown := by decide

/-- The answer to the first request of the 2148th stream. -/
def subscribed : Response Reader.flat where
  idValue := .integer 2148000001
  id := 2148000001
  body := .result
  value := .null
  others := []
  reads := rfl
  nonneg := by decide
  unknown := by decide

/-- The answer to the first request of the first stream. -/
def confirmed : Response Reader.flat where
  idValue := .integer 1000001
  id := 1000001
  body := .result
  value := .null
  others := []
  reads := rfl
  nonneg := by decide
  unknown := by decide

/-- A quote is delivered though its type does not come first, and so is an answer though its result
    comes first. -/
theorem delivered_quote_confirmed :
    dispatch Reader.flat true
        [("u", .integer 400900217), ("e", .text "bookTicker"), ("s", .text "BTCUSDT")]
      = called .bookTicker
        (.message [("u", .integer 400900217), ("e", .text "bookTicker"), ("s", .text "BTCUSDT")]) ∧
    ∃ id : Int32, id.toInt = 1000001 ∧
      dispatch Reader.flat true [("result", .null), ("id", .integer 1000001)]
        = called (.result id) (.value .null) :=
  ⟨((delivered_iff (.event quote) (List.Perm.swap _ _ _)).mpr trivial).1,
    ((delivered_iff (.response confirmed) (List.Perm.swap _ _ _)).mpr
      (show confirmed.id.toInt < 2 ^ 31 by decide)).1⟩

/-- The answer's id is negative when it gets to its handler. -/
theorem not_delivered_subscribed :
    dispatch Reader.flat true [("result", .null), ("id", .integer 2148000001)]
        = called (.result (-2146967295)) (.value .null) ∧
      ¬ (Shape.response subscribed).Delivered [("result", .null), ("id", .integer 2148000001)]
        (dispatch Reader.flat true [("result", .null), ("id", .integer 2148000001)]) := by
  have hmessage : List.Perm [("result", .null), ("id", .integer 2148000001)] subscribed.fields :=
    List.Perm.swap _ _ _
  refine ⟨by decide, fun hdelivered => ?_⟩
  exact absurd ((Response.delivers_iff hmessage).mp hdelivered) (by decide)

end MarketStreamParser

/-! ### User stream -/

namespace UserStreamParser

/-- The handlers, each of which is given the whole message. -/
inductive Handler where
  | orderTradeUpdate | accountUpdate | marginCall | strategyUpdate | gridUpdate | accountConfigUpdate
  | listenKeyExpired | tradeLite | balanceUpdate | executionReport2 | liabilityChange
  | outboundAccountPosition
  deriving DecidableEq

def called (handler : Handler) : Outcome Handler where
  calls := [handler]
  ending := .returned true

/-- `try_dispatch` -/
def tryDispatch (allowUnknownEventTypes : Bool) : EventType → Outcome Handler
  | .unknownInternal => { ending := if allowUnknownEventTypes then .returned false else .fatal }
  | .undefinedInternal => { ending := .fatal }
  | .trade => { ending := .fatal }
  | .aggTrade => { ending := .fatal }
  | ._24hrMiniTicker => { ending := .fatal }
  | .bookTicker => { ending := .fatal }
  | .depthUpdate => { ending := .fatal }
  | .markPriceUpdate => { ending := .fatal }
  | .kline => { ending := .fatal }
  | .assetIndexUpdate => { ending := .fatal }
  | .orderTradeUpdate => called .orderTradeUpdate
  | .accountUpdate => called .accountUpdate
  | .marginCall => called .marginCall
  | .strategyUpdate => called .strategyUpdate
  | .gridUpdate => called .gridUpdate
  | .accountConfigUpdate => called .accountConfigUpdate
  | .listenKeyExpired => called .listenKeyExpired
  | .tradeLite => called .tradeLite
  | .balanceUpdate => called .balanceUpdate
  | .executionReport => called .executionReport2
  | .liabilityChange => called .liabilityChange
  | .outboundAccountPosition => called .outboundAccountPosition
  | .positionHistoryUpdate => { ending := .returned true }
  | .algoUpdate => { ending := .returned true }
  | .forceOrder => { ending := .fatal }

variable {ν : Type} (reader : Reader ν) (allowUnknownEventTypes : Bool)

/-- `dispatch`: the first type that is found decides. -/
def dispatch : Object ν → Outcome Handler
  | [] => { ending := .returned false }
  | (key, value) :: fields =>
    if key ≠ "e" then dispatch fields
    else
      match reader.eventType value with
      | none => { ending := .thrown }
      | some type => tryDispatch allowUnknownEventTypes type

end UserStreamParser

end BinanceFutures.Json
