import BinanceFutures.Protocol.StreamParsers
import BinanceFutures.Protocol.WsapiParser

/-! # Objects on the WebSocket API

    What the exchange sends is a JSON object, with any fields in any order. `WSAPIParser::dispatch` looks
    at two of them: the id, which says what has been asked, and the error, which matters only where
    there is no id.

        {…, "id":"joQeAAwC…", …}                  ─▶ the request's handler
        {…, "id":null, …, "error":{…}, …}         ─▶ handler (WSAPIError) -/

namespace BinanceFutures.Json.WSAPIParser.Objects

/-- The handlers, each of which is given the whole message; those of orders are given the request. -/
inductive Handler where
  | error | sessionLogon | listenKey | accountBalance | accountStatus | accountPosition | openOrders
  | trades
  | openOrdersCancelAll (request : WSAPIRequest)
  | orderPlace (request : WSAPIRequest)
  | orderModify (request : WSAPIRequest)
  | orderCancel (request : WSAPIRequest)
  deriving DecidableEq

/-- The locals of `dispatch`, and the handlers that have been called. -/
structure Progress where
  result : Bool := false
  error : Bool := false
  calls : List Handler := []
  deriving DecidableEq

/-- `dispatch_helper` -/
def Progress.called (v : Progress) (handler : Handler) : Progress :=
  { v with result := true, calls := v.calls ++ [handler] }

variable {ν : Type} (scanner : Scanner) (text : ν → Option String) (allowUnknownEventTypes : Bool)

/-- The case of the id: the locals afterwards and what the helper returns. -/
def helperId (id : String) (v : Progress) : Except (Outcome Handler) (Progress × Bool) :=
  if id = "" then .ok (v, v.result)
  else
    match WSAPIRequest.decode scanner.toCodec id.toList with
    | none => .error { calls := v.calls, ending := .thrown }
    | some request =>
      match request.type with
      | .undefinedInternal => .error { calls := v.calls, ending := .fatal }
      | .unknownInternal => .ok (v, true)
      | .sessionLogon => .ok (v.called .sessionLogon, true)
      | .userDataStreamStart => .ok (v.called .listenKey, true)
      | .userDataStreamPing => .ok (v.called .listenKey, false)
      | .accountBalance => .ok (v.called .accountBalance, true)
      | .accountStatus => .ok (v.called .accountStatus, true)
      | .accountPosition => .ok (v.called .accountPosition, true)
      | .ordersStatus => .ok (v.called .openOrders, true)
      | .myTrades => .ok (v.called .trades, true)
      | .openOrdersCancelAll => .ok (v.called (.openOrdersCancelAll request), true)
      | .orderPlace => .ok (v.called (.orderPlace request), true)
      | .orderModify => .ok (v.called (.orderModify request), true)
      | .orderCancel => .ok (v.called (.orderCancel request), true)

/-- The helper. -/
def helper (field : String × ν) (v : Progress) : Except (Outcome Handler) (Progress × Bool) :=
  if scanner.hash field.1 = scanner.hash "error" then .ok ({ v with error := true }, v.result)
  else if scanner.hash field.1 = scanner.hash "id" then
    match text field.2 with
    | none => .error { calls := v.calls, ending := .thrown }
    | some id => helperId scanner id v
  else .ok (v, v.result)

/-- The end of `dispatch`. -/
def finish (v : Progress) : Outcome Handler :=
  let v' := if !v.result && v.error then v.called .error else v
  if v'.result || allowUnknownEventTypes then { calls := v'.calls, ending := .returned v'.result }
  else { calls := v'.calls, ending := .fatal }

/-- `core::json::Parser::dispatch`: where the helper's answer stops it, there is only the end left. -/
def visit (v : Progress) (field : String × ν) : Except (Outcome Handler) Progress :=
  match helper scanner text field v with
  | .error outcome => .error outcome
  | .ok (v', returned) =>
    if scanner.stops returned then .error (finish allowUnknownEventTypes v') else .ok v'

def dispatch (message : Object ν) : Outcome Handler :=
  match message.foldlM (visit scanner text allowUnknownEventTypes) {} with
  | .error outcome => outcome
  | .ok v => finish allowUnknownEventTypes v

/-! ### The handler of a request -/

/-- The handler that the answer to a request belongs to. -/
def Handler.of (request : WSAPIRequest) : Option Handler :=
  match request.type with
  | .undefinedInternal => none
  | .unknownInternal => none
  | .sessionLogon => some .sessionLogon
  | .userDataStreamStart => some .listenKey
  | .userDataStreamPing => some .listenKey
  | .accountBalance => some .accountBalance
  | .accountStatus => some .accountStatus
  | .accountPosition => some .accountPosition
  | .ordersStatus => some .openOrders
  | .openOrdersCancelAll => some (.openOrdersCancelAll request)
  | .orderPlace => some (.orderPlace request)
  | .orderCancel => some (.orderCancel request)
  | .orderModify => some (.orderModify request)
  | .myTrades => some .trades

/-- The id stands once among the fields, and its hash tells it from the other keys. -/
structure Distinct (message : Object ν) : Prop where
  single : (message.map Prod.fst).count "id" ≤ 1
  told : ∀ x ∈ message, scanner.hash x.1 = scanner.hash "id" → x.1 = "id"

variable {scanner text allowUnknownEventTypes}

theorem hash_id_ne_error : scanner.hash "id" ≠ scanner.hash "error" :=
  fun h => absurd (scanner.hash_inj "id" (by decide) "error" (by decide) h) (by decide)

/-- The id of a request calls its handler. -/
theorem helper_request {value : ν} {request : WSAPIRequest} {handler : Handler} {id : String}
    (htext : text value = some id) (hdecode : WSAPIRequest.decode scanner.toCodec id.toList = some request)
    (hhandler : Handler.of request = some handler) (v : Progress) :
    ∃ returned, helper scanner text ("id", value) v = .ok (v.called handler, returned) := by
  have hne : id ≠ "" := by
    rintro rfl
    simp [WSAPIRequest.decode] at hdecode
  rw [helper, if_neg hash_id_ne_error, if_pos rfl, htext]
  simp only [helperId, if_neg hne, hdecode]
  cases htype : request.type <;> simp only [Handler.of, htype, reduceCtorEq, Option.some_inj] at hhandler <;>
    (subst hhandler; exact ⟨_, rfl⟩)

/-- The locals after a field that calls no handler. -/
def noted (scanner : Scanner) (field : String × ν) (v : Progress) : Progress :=
  { v with error := v.error || decide (scanner.hash field.1 = scanner.hash "error") }

/-- A field is at most noted unless it is an id with a text. -/
theorem helper_quiet {field : String × ν}
    (hfield : scanner.hash field.1 = scanner.hash "id" → text field.2 = some "") (v : Progress) :
    helper scanner text field v = .ok (noted scanner field v, v.result) := by
  unfold helper noted
  by_cases herror : scanner.hash field.1 = scanner.hash "error"
  · simp [herror]
  · by_cases hid : scanner.hash field.1 = scanner.hash "id"
    · simp [hid, hash_id_ne_error, hfield hid, helperId]
    · simp [herror, hid]

/-- The outcome of one handler, after which `dispatch` returns true. -/
def handled (handler : Handler) : Outcome Handler where
  calls := [handler]
  ending := .returned true

/-- Where the loop is sure to lead to an outcome, it is that of the message. -/
theorem dispatch_of_post {message : Object ν} {outcome : Outcome Handler}
    (h : Scan.Post (fun v => finish allowUnknownEventTypes v = outcome) (· = outcome)
      (message.foldlM (visit scanner text allowUnknownEventTypes) {})) :
    dispatch scanner text allowUnknownEventTypes message = outcome := by
  unfold dispatch
  split
  next outcome' heq =>
    rw [heq] at h
    exact h
  next v heq =>
    rw [heq] at h
    exact h

/-- One handler has been called. -/
def Called (handler : Handler) (v : Progress) : Prop := v.result = true ∧ v.calls = [handler]

/-- No handler has been called. -/
def Silent (v : Progress) : Prop := v.result = false ∧ v.calls = []

theorem finish_called {handler : Handler} {v : Progress} (hv : Called handler v) :
    finish allowUnknownEventTypes v = handled handler := by
  simp [finish, handled, hv.1, hv.2]

theorem finish_silent {v : Progress} (hv : Silent v) (herror : v.error = true) :
    finish allowUnknownEventTypes v = handled .error := by
  simp [finish, handled, Progress.called, hv.1, hv.2, herror]

/-- As long as no handler has been called, the parser goes on. -/
theorem visit_quiet {field : String × ν}
    (hfield : scanner.hash field.1 = scanner.hash "id" → text field.2 = some "") {v : Progress}
    (hv : Silent v) :
    visit scanner text allowUnknownEventTypes v field = .ok (noted scanner field v) := by
  simp only [visit, helper_quiet hfield, hv.1, scanner.stops_false, Bool.false_eq_true, if_false]

/-- After a handler no further one is called. -/
theorem visit_called {handler : Handler} {field : String × ν}
    (hfield : scanner.hash field.1 ≠ scanner.hash "id") (v : Progress) (hv : Called handler v) :
    Scan.Post (Called handler) (· = handled handler)
      (visit scanner text allowUnknownEventTypes v field) := by
  have hv' : Called handler (noted scanner field v) := hv
  simp only [visit, helper_quiet (fun h => absurd h hfield)]
  split
  · exact finish_called hv'
  · exact hv'

/-- The id calls the handler of its request. -/
theorem visit_request {value : ν} {request : WSAPIRequest} {handler : Handler} {id : String}
    (htext : text value = some id) (hdecode : WSAPIRequest.decode scanner.toCodec id.toList = some request)
    (hhandler : Handler.of request = some handler) (v : Progress) (hv : Silent v) :
    Scan.Post (Called handler) (· = handled handler)
      (visit scanner text allowUnknownEventTypes v ("id", value)) := by
  obtain ⟨returned, hhelper⟩ := helper_request htext hdecode hhandler v
  have hv' : Called handler (v.called handler) := ⟨rfl, by simp [Progress.called, hv.2]⟩
  simp only [visit, hhelper]
  split
  · exact finish_called hv'
  · exact hv'

/-! ### The id -/

/-- No field but the id itself has its hash. -/
theorem Distinct.split {message : Object ν} (h : Distinct scanner message) {value : ν}
    (hid : ("id", value) ∈ message) :
    ∃ front back, message = front ++ ("id", value) :: back ∧
      ∀ x ∈ front ++ back, scanner.hash x.1 ≠ scanner.hash "id" := by
  obtain ⟨front, back, rfl⟩ := List.append_of_mem hid
  refine ⟨front, back, rfl, fun x hx heq => ?_⟩
  have hmem : x ∈ front ++ ("id", value) :: back := by
    rcases List.mem_append.mp hx with hx | hx
    · exact List.mem_append_left _ hx
    · exact List.mem_append_right _ (List.mem_cons_of_mem _ hx)
  have hkey : x.1 = "id" := h.told x hmem heq
  have hcount : 0 < ((front ++ back).map Prod.fst).count "id" :=
    List.count_pos_iff.mpr (hkey ▸ List.mem_map_of_mem hx)
  have hsingle := h.single
  simp only [List.map_append, List.map_cons, List.count_append, List.count_cons_self] at hsingle hcount
  omega

/-- What the id leads to from where no handler has been called, and the other fields keep, the message
    leads to. -/
theorem Distinct.post {message : Object ν} (h : Distinct scanner message) {value : ν}
    (hid : ("id", value) ∈ message) {J : Progress → Prop} {R : Outcome Handler → Prop}
    (hvisit : ∀ v, Silent v → Scan.Post J R (visit scanner text allowUnknownEventTypes v ("id", value)))
    (hkeeps : ∀ x ∈ message, scanner.hash x.1 ≠ scanner.hash "id" → ∀ v, J v →
      Scan.Post J R (visit scanner text allowUnknownEventTypes v x)) :
    Scan.Post J R (message.foldlM (visit scanner text allowUnknownEventTypes) {}) := by
  obtain ⟨front, back, rfl, hother⟩ := h.split hid
  refine Scan.post_foldlM_middle (I := Silent) (fun x hx v hv => ?_) hvisit (fun x hx => ?_) ⟨rfl, rfl⟩
  · rw [visit_quiet (fun heq => absurd heq (hother x (List.mem_append_left _ hx))) hv]
    exact hv
  · exact hkeeps x (by simp [hx]) (hother x (List.mem_append_right _ hx))

/-- A message with the id of a request is handed to the request's handler. -/
theorem dispatch_request {message : Object ν} (h : Distinct scanner message) {value : ν}
    {request : WSAPIRequest} {handler : Handler} {id : String} (hid : ("id", value) ∈ message)
    (htext : text value = some id) (hdecode : WSAPIRequest.decode scanner.toCodec id.toList = some request)
    (hhandler : Handler.of request = some handler) :
    dispatch scanner text allowUnknownEventTypes message = handled handler := by
  refine dispatch_of_post ((h.post hid (visit_request htext hdecode hhandler) ?_).imp fun v hv => ?_)
  · exact fun x _ hx => visit_called hx
  · exact finish_called hv

/-- A message without an id is handed to the handler of errors, where it has an error. -/
theorem dispatch_error {message : Object ν}
    (hquiet : ∀ x ∈ message, scanner.hash x.1 = scanner.hash "id" → text x.2 = some "") {value : ν}
    (herror : ("error", value) ∈ message) :
    dispatch scanner text allowUnknownEventTypes message = handled .error := by
  refine dispatch_of_post (Scan.Post.imp (I := fun v => Silent v ∧ v.error = true) ?_ fun v hv => ?_)
  · refine Scan.post_foldlM_of_mem (I := Silent) herror (fun v hv => ?_) (fun x hx v hv => ?_)
      (fun x hx v hv => ?_) ⟨rfl, rfl⟩
    · rw [visit_quiet (fun h => absurd h.symm hash_id_ne_error) hv]
      exact ⟨hv, by simp [noted]⟩
    · rw [visit_quiet (hquiet x hx) hv]
      exact hv
    · rw [visit_quiet (hquiet x hx) hv.1]
      exact ⟨hv.1, by simp [noted, hv.2]⟩
  · exact finish_silent hv.1 hv.2

/-- CORRECT: a message with the id of a request calls one handler once, that of the request's type, in
    whatever order its fields stand and whether or not there is an error among them; a message whose
    id is null or missing calls that of errors, where it has an error. -/
theorem dispatch_exact {message : Object ν} (h : Distinct scanner message) (null : ν)
    (hnull : text null = some "") :
    (∀ value request handler, ("id", value) ∈ message →
      text value = some (String.ofList (WSAPIRequest.encode scanner.toCodec request)) →
      Handler.of request = some handler →
      dispatch scanner text allowUnknownEventTypes message = handled handler) ∧
    ((∀ value, ("id", value) ∈ message → value = null) → (∃ value, ("error", value) ∈ message) →
      dispatch scanner text allowUnknownEventTypes message = handled .error) := by
  constructor
  · intro value request handler hid htext hhandler
    refine dispatch_request h hid htext ?_ hhandler
    rw [String.toList_ofList, WSAPIRequest.decode_encode]
  · rintro hid ⟨value, herror⟩
    refine dispatch_error (fun x hx heq => ?_) herror
    obtain ⟨key, value'⟩ := x
    obtain rfl : key = "id" := h.told _ hx heq
    rw [hid value' hx, hnull]

/-- The message of a test, with the error in front of the id; and one that is about no request. -/
theorem dispatch_exact_modify :
    dispatch .standard Reader.flat.text false
        [("status", .integer 400), ("error", .null), ("id", .text "joQeAAwCpIs3B0UAAAAFAAAAAAAAAAAAAAAA")]
      = handled (.orderModify
          { sequence := 2000014, type := .orderModify, userId := 2, orderId := 296473824164,
            version := 5 }) ∧
    dispatch .standard Reader.flat.text false
        [("id", .null), ("status", .integer 400), ("error", .text "Invalid JSON request.")]
      = handled .error :=
  ⟨(dispatch_exact ⟨by decide, by decide⟩ .null rfl).1 (.text "joQeAAwCpIs3B0UAAAAFAAAAAAAAAAAAAAAA")
      { sequence := 2000014, type := .orderModify, userId := 2, orderId := 296473824164, version := 5 }
      _ (by decide) (by decide) rfl,
    (dispatch_exact ⟨by decide, by decide⟩ .null rfl).2 (by simp)
      ⟨.text "Invalid JSON request.", by decide⟩⟩

/-! ### The messages of the exchange

    The fields that answers have are fields of an object. -/

/-- `core::json::get<std::string_view>` of a field's value. -/
def fieldText : Field → Option String
  | .id value => some (String.ofList value)
  | _ => none

def object (fields : List Field) : Object Field := fields.map fun field => (field.key, field)

/-- The handlers of the requests. -/
def progress (v : Locals) : Progress where
  result := v.result
  error := v.error
  calls := v.handled.filterMap Handler.of

theorem helper_progress {field : Field} {v v' : Locals} {returned : Bool}
    (h : WSAPIParser.helper scanner field v = some (v', returned)) :
    helper scanner fieldText (field.key, field) (progress v) = .ok (progress v', returned) := by
  unfold WSAPIParser.helper at h
  unfold helper
  split at h
  next herror =>
    obtain ⟨rfl, rfl⟩ := Prod.mk.inj (Option.some.inj h)
    rw [if_pos herror]
    rfl
  next herror =>
    rw [if_neg herror]
    split at h
    next hid =>
      rw [if_pos hid]
      cases field with
      | id value =>
        by_cases hempty : value = []
        · subst hempty
          obtain ⟨rfl, rfl⟩ := Prod.mk.inj (Option.some.inj h)
          rfl
        · have hne : String.ofList value ≠ "" := by
            intro heq
            exact hempty (by simpa using congrArg String.toList heq)
          simp only [if_neg hempty] at h
          simp only [fieldText, helperId, if_neg hne, String.toList_ofList]
          cases hdecode : WSAPIRequest.decode scanner.toCodec value with
          | none =>
            simp only [hdecode] at h
            cases h
          | some request =>
            simp only [hdecode] at h ⊢
            cases htype : request.type <;> simp only [htype, reduceCtorEq, Option.some_inj,
              Prod.mk.injEq] at h <;> obtain ⟨rfl, rfl⟩ := h <;>
              simp [progress, Progress.called, Handler.of, htype]
      | _ => cases h
    next hid =>
      obtain ⟨rfl, rfl⟩ := Prod.mk.inj (Option.some.inj h)
      rw [if_neg hid]
      rfl

/-- The loops over the fields go the same way. -/
theorem visit_progress {fields : List Field} {v v' : Locals}
    (h : WSAPIParser.visit scanner fields v = some v') :
    Scan.Post (· = progress v') (· = finish allowUnknownEventTypes (progress v'))
      ((object fields).foldlM (visit scanner fieldText allowUnknownEventTypes) (progress v)) := by
  induction fields generalizing v with
  | nil =>
    obtain rfl := Option.some.inj h
    exact rfl
  | cons field fields ih =>
    rw [WSAPIParser.visit] at h
    split at h
    next => cases h
    next v₁ returned hhelper =>
      rw [object, List.map_cons, List.foldlM_cons]
      simp only [visit, helper_progress hhelper]
      split at h
      next hstops =>
        obtain rfl := Option.some.inj h
        rw [if_pos hstops]
        exact rfl
      next hstops =>
        rw [if_neg hstops]
        exact ih h

/-- REFINES: where an answer is dispatched, its handlers are those that are called with it as an
    object. -/
theorem dispatch_object {fields : List Field} {requests : List WSAPIRequest}
    (h : WSAPIParser.dispatch scanner allowUnknownEventTypes fields = some requests) :
    ∃ result, dispatch scanner fieldText allowUnknownEventTypes (object fields)
      = { calls := requests.filterMap Handler.of, ending := .returned result } := by
  unfold WSAPIParser.dispatch at h
  split at h
  next => cases h
  next v hvisit =>
    have hpost : Scan.Post (· = progress v) (· = finish allowUnknownEventTypes (progress v))
        ((object fields).foldlM (visit scanner fieldText allowUnknownEventTypes) {}) :=
      visit_progress hvisit
    split at h
    next => cases h
    next hgeneral =>
      split at h
      next hresult =>
        obtain rfl := Option.some.inj h
        have hfinish : finish allowUnknownEventTypes (progress v)
            = { calls := v.handled.filterMap Handler.of, ending := .returned v.result } := by
          simp [finish, progress, hgeneral, hresult]
        rw [hfinish] at hpost
        exact ⟨v.result, dispatch_of_post (hpost.imp fun v' hv' => by rw [hv', hfinish])⟩
      next => cases h

end BinanceFutures.Json.WSAPIParser.Objects
