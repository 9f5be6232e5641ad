import BinanceFutures.Protocol.Json
import BinanceFutures.Protocol.WsapiRequest
import Mathlib.Data.List.Nodup

/-! # Parser of WebSocket API messages

    A message is a JSON object. `WSAPIParser` goes through its fields until it meets the id, unpacks the
    request the id stands for, parses the whole message as the type that the request calls for, and
    hands it to the handler of the request.

        {"status":…, "id":"joQeAAwC…", "result":{…}}
            │           │
            └─▶ next    └─▶ decode ─▶ ORDER_MODIFY ─▶ handler -/

namespace BinanceFutures.Json

/-- What the generated types read from `result`; `orders` where it is an array. -/
structure Result where
  listenKey : String := ""
  order : Order := { orderId := 0, symbol := "", status := .undefinedInternal, clientOrderId := "" }
  orders : List Order := []
  deriving DecidableEq

/-- A field of a message. -/
inductive Field where
  | id (value : Id)
  | status (value : ℤ)
  | result (value : Result)
  | error (value : CodeMsg)
  | rateLimits

def Field.key : Field → String
  | .id _ => "id"
  | .status _ => "status"
  | .result _ => "result"
  | .error _ => "error"
  | .rateLimits => "rateLimits"

def keys : List String := ["id", "status", "result", "error", "rateLimits"]

/-- What else is generated or belongs to the client library: `utils::hash::FNV`, which tells the keys
    apart; `core::json::Parser`, which goes on to the next field at least where the helper answers
    false; and the numbers of `OrderStatus::type_t`, none of which is an HTTP status. -/
structure Scanner extends Codec where
  hash : String → ℕ
  stops : Bool → Bool
  statusCode : OrderStatus → ℕ
  hash_inj : ∀ k ∈ keys, ∀ k' ∈ keys, hash k = hash k' → k = k'
  stops_false : stops false = false
  statusCode_ne : ∀ status, statusCode status ≠ ok

/-- The members of the enumeration, in their order. -/
def statuses : List OrderStatus :=
  [.undefinedInternal, .unknownInternal, .new, .partiallyFilled, .filled, .canceled, .expired,
    .newInsurance, .newAdl, .expiredInMatch]

/-- FNV-1a with 32 bits, a parser that stops where the helper answers true, and the numbers that an
    enumeration has by default. -/
def Scanner.standard : Scanner where
  toCodec := .standard
  hash s := s.toList.foldl (fun h c => Nat.xor h c.toNat * 16777619 % 4294967296) 2166136261
  stops returned := returned
  statusCode status := statuses.idxOf status
  hash_inj := by decide
  stops_false := rfl
  statusCode_ne status := by cases status <;> decide

/-- A message as the generated types have it, `WSAPIOrderPlace` and its siblings: a missing field has
    the default. -/
structure WSAPIMessage where
  status : ℤ := 0
  result : Result := {}
  error : CodeMsg := ⟨0, ""⟩

def parse (fields : List Field) : WSAPIMessage where
  status := (fields.findSome? fun | .status value => some value | _ => none).getD 0
  result := (fields.findSome? fun | .result value => some value | _ => none).getD {}
  error := (fields.findSome? fun | .error value => some value | _ => none).getD ⟨0, ""⟩

namespace WSAPIParser

/-- The locals of `dispatch`, and the requests whose handler has been called. -/
structure Locals where
  result : Bool := false
  error : Bool := false
  handled : List WSAPIRequest := []

variable (scanner : Scanner)

/-- The helper: the locals afterwards and what it returns, or `none` where it throws or the process
    ends. -/
def helper (field : Field) (v : Locals) : Option (Locals × Bool) :=
  if scanner.hash field.key = scanner.hash "error" then
    some ({ v with error := true }, v.result)
  else if scanner.hash field.key = scanner.hash "id" then
    match field with
    | .id value =>
      if value = [] then some (v, v.result)
      else
        match WSAPIRequest.decode scanner.toCodec value with
        | none => none
        | some request =>
          match request.type with
          | .undefinedInternal => none
          | .unknownInternal => some (v, true)
          | .userDataStreamPing =>
            some ({ v with result := true, handled := v.handled ++ [request] }, false)
          | _ => some ({ v with result := true, handled := v.handled ++ [request] }, true)
    | _ => none
  else some (v, v.result)

/-- `core::json::Parser::dispatch` -/
def visit : List Field → Locals → Option Locals
  | [], v => some v
  | field :: fields, v =>
    match helper scanner field v with
    | none => none
    | some (v', returned) => if scanner.stops returned then some v' else visit fields v'

/-- `dispatch`: the requests whose handlers are called with the message, or `none` where it throws or
    the process ends. The handler of `WSAPIError` ends it, too. -/
def dispatch (allowUnknownEventTypes : Bool) (fields : List Field) : Option (List WSAPIRequest) :=
  match visit scanner fields {} with
  | none => none
  | some v =>
    if !v.result && v.error then none
    else if v.result || allowUnknownEventTypes then some v.handled
    else none

end WSAPIParser

/-! ### Answers -/

inductive Key where | id | status | body | rateLimits
  deriving DecidableEq

/-- An order of the fields of an answer. -/
structure Arrangement where
  keys : List Key
  nodup : keys.Nodup
  hasId : Key.id ∈ keys
  hasStatus : Key.status ∈ keys
  hasBody : Key.body ∈ keys

inductive Body where
  | result (value : Result)
  | error (value : CodeMsg)
  deriving DecidableEq

/-- What the exchange has to say about a request. -/
structure Reply where
  status : ℤ
  body : Body
  deriving DecidableEq

namespace Reply

def field (reply : Reply) (id : Id) : Key → Field
  | .id => .id id
  | .status => .status reply.status
  | .body => match reply.body with
    | .result value => .result value
    | .error value => .error value
  | .rateLimits => .rateLimits

/-- The answer to the request with the id. -/
def message (reply : Reply) (id : Id) (arrangement : Arrangement) : List Field :=
  arrangement.keys.map (reply.field id)

/-- What is parsed from the answer. -/
def parsed (reply : Reply) : WSAPIMessage :=
  match reply.body with
  | .result value => { status := reply.status, result := value }
  | .error value => { status := reply.status, error := value }

end Reply

/-- A field that stands under one key only is found wherever the key stands. -/
theorem findSome_map {α β γ : Type*} {f : α → β} {p : β → Option γ} {k : α} {c : γ}
    (hk : p (f k) = some c) (hother : ∀ k', k' ≠ k → p (f k') = none) :
    ∀ {ks : List α}, k ∈ ks → (ks.map f).findSome? p = some c
  | k' :: ks, hmem => by
      rw [List.map_cons, List.findSome?_cons]
      by_cases heq : k' = k
      · rw [heq, hk]
      · rw [hother k' heq]
        exact findSome_map hk hother ((List.mem_cons.mp hmem).resolve_left (Ne.symm heq))

theorem findSome_none {α β γ : Type*} {f : α → β} {p : β → Option γ}
    (hnone : ∀ k, p (f k) = none) (ks : List α) : (ks.map f).findSome? p = none := by
  rw [List.findSome?_eq_none_iff]
  intro b hb
  obtain ⟨k, _, rfl⟩ := List.mem_map.mp hb
  exact hnone k

/-- Parsing does not depend on the order of the fields. -/
theorem parse_message (reply : Reply) (id : Id) (arrangement : Arrangement) :
    parse (reply.message id arrangement) = reply.parsed := by
  obtain ⟨status, body⟩ := reply
  have hstatus := findSome_map (f := Reply.field ⟨status, body⟩ id) (k := .status) (c := status)
    (p := fun | .status value => some value | _ => none) rfl
    (fun k hk => by cases k <;> cases body <;> first | rfl | exact absurd rfl hk)
    arrangement.hasStatus
  cases body with
  | result value =>
    have hresult := findSome_map (f := Reply.field ⟨status, .result value⟩ id) (k := .body)
      (c := value) (p := fun | .result value => some value | _ => none) rfl
      (fun k hk => by cases k <;> first | rfl | exact absurd rfl hk) arrangement.hasBody
    have herror := findSome_none (f := Reply.field ⟨status, .result value⟩ id)
      (p := fun | .error value => some value | _ => none) (fun k => by cases k <;> rfl)
      arrangement.keys
    simp only [parse, Reply.message, Reply.parsed, hstatus, hresult, herror, Option.getD_some,
      Option.getD_none]
  | error value =>
    have hresult := findSome_none (f := Reply.field ⟨status, .error value⟩ id)
      (p := fun | .result value => some value | _ => none) (fun k => by cases k <;> rfl)
      arrangement.keys
    have herror := findSome_map (f := Reply.field ⟨status, .error value⟩ id) (k := .body)
      (c := value) (p := fun | .error value => some value | _ => none) rfl
      (fun k hk => by cases k <;> first | rfl | exact absurd rfl hk) arrangement.hasBody
    simp only [parse, Reply.message, Reply.parsed, hstatus, hresult, herror, Option.getD_some,
      Option.getD_none]

namespace WSAPIParser

variable (scanner : Scanner)

theorem mem_keys (field : Field) : field.key ∈ keys := by cases field <;> simp [Field.key, keys]

/-- The hash of a field is that of its own key only. -/
theorem hash_ne {field : Field} {k : String} (hk : k ∈ keys) (hne : field.key ≠ k) :
    scanner.hash field.key ≠ scanner.hash k :=
  fun h => hne (scanner.hash_inj _ (mem_keys field) _ hk h)

/-- A field other than the id is at most noted. -/
theorem helper_other {field : Field} (hfield : field.key ≠ "id") (v : Locals) :
    ∃ v', helper scanner field v = some (v', v.result) ∧ v'.result = v.result ∧
      v'.handled = v.handled := by
  unfold helper
  rw [if_neg (hash_ne scanner (by decide : "id" ∈ keys) hfield)]
  split
  · exact ⟨_, rfl, rfl, rfl⟩
  · exact ⟨v, rfl, rfl, rfl⟩

/-- The id calls the handler of its request. -/
theorem helper_id {id : Id} {request : WSAPIRequest} (v : Locals)
    (hid : WSAPIRequest.decode scanner.toCodec id = some request)
    (hundefined : request.type ≠ .undefinedInternal) (hunknown : request.type ≠ .unknownInternal) :
    ∃ returned, helper scanner (.id id) v
      = some ({ v with result := true, handled := v.handled ++ [request] }, returned) := by
  have hne : id ≠ [] := by
    rintro rfl
    simp [WSAPIRequest.decode] at hid
  have herror : (Field.id id).key ≠ "error" := by simp [Field.key]
  unfold helper
  rw [if_neg (hash_ne scanner (by decide : "error" ∈ keys) herror),
    if_pos (by rfl : scanner.hash (Field.id id).key = scanner.hash "id")]
  simp only [hne, if_false, hid]
  cases htype : request.type with
  | undefinedInternal => exact absurd htype hundefined
  | unknownInternal => exact absurd htype hunknown
  | userDataStreamPing => exact ⟨false, rfl⟩
  | sessionLogon | userDataStreamStart | accountBalance | accountStatus | accountPosition
  | ordersStatus | openOrdersCancelAll | orderPlace | orderCancel | orderModify | myTrades =>
    exact ⟨true, rfl⟩

/-- Fields without an id call no handler. -/
theorem visit_other : ∀ {fields : List Field} (v : Locals), (∀ f ∈ fields, f.key ≠ "id") →
    ∃ v', visit scanner fields v = some v' ∧ v'.result = v.result ∧ v'.handled = v.handled
  | [], v, _ => ⟨v, rfl, rfl, rfl⟩
  | field :: fields, v, h => by
      obtain ⟨v₁, hhelper, hresult, hhandled⟩ :=
        helper_other scanner (h field (List.mem_cons_self ..)) v
      rw [visit, hhelper]
      dsimp only
      split
      · exact ⟨v₁, rfl, hresult, hhandled⟩
      · obtain ⟨v₂, hvisit, hresult', hhandled'⟩ :=
          visit_other v₁ fun f hf => h f (List.mem_cons_of_mem _ hf)
        exact ⟨v₂, hvisit, hresult'.trans hresult, hhandled'.trans hhandled⟩

/-- Wherever the id stands among the fields, the handler of its request is called once. -/
theorem visit_id {id : Id} {request : WSAPIRequest}
    (hid : WSAPIRequest.decode scanner.toCodec id = some request)
    (hundefined : request.type ≠ .undefinedInternal) (hunknown : request.type ≠ .unknownInternal)
    {back : List Field} (hback : ∀ f ∈ back, f.key ≠ "id") :
    ∀ {front : List Field} (v : Locals), (∀ f ∈ front, f.key ≠ "id") → v.result = false →
      ∃ v', visit scanner (front ++ .id id :: back) v = some v' ∧ v'.result = true ∧
        v'.handled = v.handled ++ [request]
  | [], v, _, _ => by
      obtain ⟨returned, hhelper⟩ := helper_id scanner v hid hundefined hunknown
      rw [List.nil_append, visit, hhelper]
      dsimp only
      split
      · exact ⟨_, rfl, rfl, rfl⟩
      · obtain ⟨v', hvisit, hresult, hhandled⟩ := visit_other scanner
          { v with result := true, handled := v.handled ++ [request] } hback
        exact ⟨v', hvisit, hresult, hhandled⟩
  | field :: front, v, hfront, hv => by
      -- before the id the helper answers false, so the parser goes on
      obtain ⟨v₁, hhelper, hresult, hhandled⟩ :=
        helper_other scanner (hfront field (List.mem_cons_self ..)) v
      rw [List.cons_append, visit, hhelper]
      simp only [hv, scanner.stops_false, Bool.false_eq_true, if_false]
      obtain ⟨v₂, hvisit, hresult', hhandled'⟩ := visit_id hid hundefined hunknown hback v₁
        (fun f hf => hfront f (List.mem_cons_of_mem _ hf)) (hresult.trans hv)
      exact ⟨v₂, hvisit, hresult', by rw [hhandled', hhandled]⟩

theorem key_field {reply : Reply} {id : Id} {k : Key} (hk : k ≠ .id) :
    (reply.field id k).key ≠ "id" := by
  cases k with
  | id => exact absurd rfl hk
  | status | rateLimits => simp [Reply.field, Field.key]
  | body => cases hbody : reply.body <;> simp [Reply.field, Field.key, hbody]

/-- CORRECT: an answer calls the handler of the request that it echoes, and no other, in whatever order
    its fields stand. -/
theorem dispatch_message (allowUnknownEventTypes : Bool) (reply : Reply) {id : Id}
    {request : WSAPIRequest} (arrangement : Arrangement)
    (hid : WSAPIRequest.decode scanner.toCodec id = some request)
    (hundefined : request.type ≠ .undefinedInternal) (hunknown : request.type ≠ .unknownInternal) :
    dispatch scanner allowUnknownEventTypes (reply.message id arrangement) = some [request] := by
  obtain ⟨front, back, hkeys⟩ := List.append_of_mem arrangement.hasId
  -- no other field is an id
  have hid' : Key.id ∉ front ++ back := by
    have hnodup := arrangement.nodup
    rw [hkeys, List.nodup_middle, List.nodup_cons] at hnodup
    exact hnodup.1
  have hother : ∀ {ks : List Key}, ks ⊆ front ++ back →
      ∀ f ∈ ks.map (reply.field id), f.key ≠ "id" := by
    intro ks hks f hf
    obtain ⟨k, hk, rfl⟩ := List.mem_map.mp hf
    exact key_field fun heq => hid' (heq ▸ hks hk)
  have hfront := hother (List.subset_append_left front back)
  have hback := hother (List.subset_append_right front back)
  obtain ⟨v, hvisit, hresult, hhandled⟩ :=
    visit_id scanner hid hundefined hunknown hback {} hfront rfl
  have hmessage : reply.message id arrangement
      = front.map (reply.field id) ++ .id id :: back.map (reply.field id) := by
    rw [Reply.message, hkeys, List.map_append, List.map_cons]
    rfl
  rw [dispatch, hmessage, hvisit]
  simp [hresult, hhandled]

/-- One field calls one handler at most, and only if it is an id. -/
theorem helper_handled {field : Field} {v v' : Locals} {returned : Bool}
    (h : helper scanner field v = some (v', returned)) :
    v'.handled.length ≤ v.handled.length + if field.key = "id" then 1 else 0 := by
  by_cases hkey : field.key = "id"
  · rw [if_pos hkey]
    unfold helper at h
    split at h
    · obtain ⟨rfl, -⟩ := Prod.mk.inj (Option.some.inj h)
      exact Nat.le_succ _
    · split at h
      · split at h
        · split at h
          · obtain ⟨rfl, -⟩ := Prod.mk.inj (Option.some.inj h)
            exact Nat.le_succ _
          · split at h
            · cases h
            · split at h
              · cases h
              · obtain ⟨rfl, -⟩ := Prod.mk.inj (Option.some.inj h)
                exact Nat.le_succ _
              · obtain ⟨rfl, -⟩ := Prod.mk.inj (Option.some.inj h)
                rw [List.length_append, List.length_singleton]
              · obtain ⟨rfl, -⟩ := Prod.mk.inj (Option.some.inj h)
                rw [List.length_append, List.length_singleton]
        · cases h
      · obtain ⟨rfl, -⟩ := Prod.mk.inj (Option.some.inj h)
        exact Nat.le_succ _
  · obtain ⟨v'', hhelper, -, hhandled⟩ := helper_other scanner hkey v
    rw [hhelper] at h
    obtain ⟨rfl, -⟩ := Prod.mk.inj (Option.some.inj h)
    rw [hhandled]
    exact Nat.le_add_right _ _

theorem visit_handled : ∀ {fields : List Field} {v v' : Locals}, visit scanner fields v = some v' →
    v'.handled.length ≤ v.handled.length + fields.countP fun field => field.key = "id"
  | [], v, v', h => by
      obtain rfl := Option.some.inj h
      exact Nat.le_add_right _ _
  | field :: fields, v, v', h => by
      rw [visit] at h
      split at h
      · cases h
      next v₁ returned hhelper =>
        have hfield := helper_handled scanner hhelper
        rw [List.countP_cons]
        split at h
        · obtain rfl := Option.some.inj h
          simp only [decide_eq_true_eq]
          omega
        · have hrest := visit_handled h
          simp only [decide_eq_true_eq]
          omega

/-- An answer calls one handler at most. -/
theorem dispatch_length (allowUnknownEventTypes : Bool) (reply : Reply) (id : Id)
    (arrangement : Arrangement) {requests : List WSAPIRequest}
    (h : dispatch scanner allowUnknownEventTypes (reply.message id arrangement) = some requests) :
    requests.length ≤ 1 := by
  unfold dispatch at h
  split at h
  · cases h
  next v hvisit =>
    have hlength := visit_handled scanner hvisit
    -- there is one id among the fields
    have hids : (reply.message id arrangement).countP (fun field => field.key = "id") ≤ 1 := by
      rw [Reply.message, List.countP_map]
      refine le_trans (List.countP_mono_left ?_) (List.nodup_iff_count_le_one.mp arrangement.nodup .id)
      intro k _ hk
      by_contra hne
      have hkey : (reply.field id k).key = "id" := by simpa using hk
      exact key_field (by simpa using hne) hkey
    have hhandled : v.handled.length ≤ 1 := by
      simp only [List.length_nil, Nat.zero_add] at hlength
      omega
    split at h
    · cases h
    · split at h
      · obtain rfl := Option.some.inj h
        exact hhandled
      · cases h

end WSAPIParser

end BinanceFutures.Json
