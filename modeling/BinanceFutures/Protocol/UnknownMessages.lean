import BinanceFutures.Protocol.WsapiMessages

/-! # Messages that nobody knows

    The exchange adds new messages now and then. With `allow_unknown_event_types` they are to be passed
    over, and the process is to go on. Each of the parsers has its own idea of what may be new.

                            no type / no id     type / id not known
        MarketStreamParser       fatal                passed
        UserStreamParser         passed               passed
        WSAPIParser              passed           thrown, or passed -/

namespace BinanceFutures.Json

/-- The message has been passed over: false is returned, and no handler has been called. -/
def PassedOver {κ : Type} (outcome : Outcome κ) : Prop := outcome = { ending := .returned false }

instance {κ : Type} [DecidableEq κ] (outcome : Outcome κ) : Decidable (PassedOver outcome) :=
  inferInstanceAs (Decidable (_ = _))

variable {ν : Type} {reader : Reader ν}

/-! ### Market stream -/

namespace MarketStreamParser

/-- A message without id, result, error and data. -/
def Anonymous (reader : Reader ν) (message : Object ν) : Prop :=
  ∀ x ∈ message, reader.field x.1 ∉ [.id, .result, .error, .data]

/-- A field that leaves the parser where it is: a type that is missing or what it does not look at. -/
def ignores (reader : Reader ν) (x : String × ν) : Bool :=
  match reader.field x.1 with
  | .undefinedInternal => false
  | .eventType => reader.eventType x.2 = some .undefinedInternal
  | _ => true

/-- The first field that is not ignored is a type, and the type is not known. -/
def Tolerates (reader : Reader ν) (message : Object ν) : Prop :=
  ∃ x, message.find? (fun x => !ignores reader x) = some x ∧ reader.field x.1 = .eventType ∧
    reader.eventType x.2 = some .unknownInternal

variable {inner : Object ν → Outcome (Call ν)} {message : Object ν}

theorem visit_ignored {x : String × ν} (hx : reader.field x.1 ∉ [.id, .result, .error, .data])
    (h : ignores reader x = true) {allow : Bool} (s : Int64) :
    visit reader allow inner message s x = .ok s := by
  unfold ignores at h
  unfold visit
  cases hfield : reader.field x.1 with
  | undefinedInternal => simp [hfield] at h
  | eventType =>
    have htype : reader.eventType x.2 = some .undefinedInternal := by simpa [hfield] using h
    simp only [htype, visitEvent]
  | id | result | error | data => simp [hfield] at hx
  | unknownInternal | stream | orderBookUpdateId => rfl

/-- A field that is not ignored ends the parser. It is passed over only as a type that is not known. -/
theorem visit_decides {x : String × ν} (hx : reader.field x.1 ∉ [.id, .result, .error, .data])
    (h : ignores reader x = false) (s : Int64) :
    ∃ outcome, visit reader true inner message s x = .error outcome ∧
      (PassedOver outcome ↔
        reader.field x.1 = .eventType ∧ reader.eventType x.2 = some .unknownInternal) := by
  unfold ignores at h
  unfold visit
  cases hfield : reader.field x.1 with
  | undefinedInternal => exact ⟨_, rfl, by simp [PassedOver]⟩
  | eventType =>
    simp only [hfield, decide_eq_false_iff_not] at h
    cases htype : reader.eventType x.2 with
    | none => exact ⟨_, rfl, by simp [PassedOver]⟩
    | some type =>
      cases type with
      | undefinedInternal => exact absurd htype h
      | _ => exact ⟨_, rfl, by simp [PassedOver, called]⟩
  | id | result | error | data => simp [hfield] at hx
  | unknownInternal | stream | orderBookUpdateId => simp [hfield] at h

theorem passedOver_iff (h : Anonymous reader message) :
    PassedOver (dispatch reader true message) ↔ Tolerates reader message := by
  -- both passes stop at the same field, or at none
  have hpass : ∀ s, pass reader true (dispatch reader true) message s
      = (message.find? fun x => !ignores reader x).elim (.ok s)
        (visit reader true (dispatch reader true) message s) := by
    intro s
    rw [pass]
    exact Scan.foldlM_eq_find (fun x hx hignored => visit_ignored (h x hx) hignored s)
      fun x hx hignored => (visit_decides (h x hx) hignored s).imp fun _ houtcome => houtcome.1
  rw [dispatch_eq, passes, hpass]
  cases hfind : message.find? (fun x => !ignores reader x) with
  | none =>
    have hsecond : pass reader true (dispatch reader true) message (-1) = .ok (-1) := by
      rw [hpass, hfind]
      rfl
    have hboth : ((none : Option (String × ν)).elim (.ok (-1))
        (visit reader true (dispatch reader true) message (-1)) >>=
          pass reader true (dispatch reader true) message) = .ok (-1) := hsecond
    rw [hboth]
    simp [PassedOver, Tolerates, hfind]
  | some x =>
    have hnot : ignores reader x = false := by simpa using List.find?_some hfind
    obtain ⟨outcome, houtcome, hiff⟩ := visit_decides (h x (List.mem_of_find?_eq_some hfind)) hnot (-1)
    have hboth : ((some x).elim (.ok (-1)) (visit reader true (dispatch reader true) message (-1)) >>=
        pass reader true (dispatch reader true) message) = .error outcome := by
      rw [Option.elim_some, houtcome]
      rfl
    rw [hboth]
    simpa [Tolerates, hfind] using hiff

end MarketStreamParser

/-! ### User stream -/

namespace UserStreamParser

/-- The type, where there is one, is a text that is not known. -/
def Tolerates (reader : Reader ν) (message : Object ν) : Prop :=
  ∀ x, message.find? (fun x => x.1 = "e") = some x → reader.eventType x.2 = some .unknownInternal

theorem passedOver_tryDispatch (type : EventType) :
    PassedOver (tryDispatch true type) ↔ type = .unknownInternal := by
  cases type <;> simp [PassedOver, tryDispatch, called]

theorem passedOver_iff (message : Object ν) :
    PassedOver (dispatch reader true message) ↔ Tolerates reader message := by
  induction message with
  | nil => simp [PassedOver, dispatch, Tolerates]
  | cons x message ih =>
    obtain ⟨key, value⟩ := x
    by_cases hkey : key = "e"
    · subst hkey
      cases htype : reader.eventType value with
      | none => simp [PassedOver, dispatch, Tolerates, htype]
      | some type => simp [dispatch, Tolerates, htype, passedOver_tryDispatch]
    · simpa [dispatch, Tolerates, List.find?_cons, hkey] using ih

end UserStreamParser

/-! ### WebSocket API -/

namespace WSAPIParser.Objects

variable {scanner : Scanner} {text : ν → Option String} {message : Object ν}

/-- The id, where there is one, is empty or that of a request whose type is not known. -/
def Tolerates (scanner : Scanner) (text : ν → Option String) (message : Object ν) : Prop :=
  ∀ value, ("id", value) ∈ message → text value = some "" ∨
    ∃ id request, text value = some id ∧ WSAPIRequest.decode scanner.toCodec id.toList = some request ∧
      request.type = .unknownInternal

/-- No handler is called, and there is no error. -/
def Idle (v : Progress) : Prop := Silent v ∧ v.error = false

theorem idle_noted {field : String × ν} (hfield : scanner.hash field.1 ≠ scanner.hash "error")
    {v : Progress} (hv : Idle v) : Idle (noted scanner field v) :=
  ⟨hv.1, by simp [noted, hv.2, hfield]⟩

theorem finish_idle {v : Progress} (hv : Idle v) : PassedOver (finish true v) := by
  simp [PassedOver, finish, hv.1.1, hv.1.2, hv.2]

/-- A field that is not an id with a text leaves the parser where it is. -/
theorem visit_idle {field : String × ν} (herror : scanner.hash field.1 ≠ scanner.hash "error")
    (hquiet : scanner.hash field.1 = scanner.hash "id" → text field.2 = some "")
    {R : Outcome Handler → Prop} (v : Progress) (hv : Idle v) :
    Scan.Post Idle R (visit scanner text true v field) := by
  rw [visit_quiet hquiet hv.1]
  exact idle_noted herror hv

/-- A message is passed over where the parser stays where it is. -/
theorem passedOver_of_post
    (h : Scan.Post Idle PassedOver (message.foldlM (visit scanner text true) {})) :
    PassedOver (dispatch scanner text true message) :=
  dispatch_of_post (h.imp fun _ hv => finish_idle hv)

/-- What the parser makes of an id with a text. -/
theorem helper_text {value : ν} {id : String} (htext : text value = some id) (v : Progress) :
    helper scanner text ("id", value) v = helperId scanner id v := by
  rw [helper, if_neg hash_id_ne_error, if_pos rfl, htext]

/-- A request whose type is not known leaves the parser where it is, too. -/
theorem visit_tolerated {value : ν} {id : String} {request : WSAPIRequest}
    (htext : text value = some id) (hdecode : WSAPIRequest.decode scanner.toCodec id.toList = some request)
    (htype : request.type = .unknownInternal) (v : Progress) (hv : Idle v) :
    Scan.Post Idle PassedOver (visit scanner text true v ("id", value)) := by
  have hne : id ≠ "" := by
    rintro rfl
    simp [WSAPIRequest.decode] at hdecode
  simp only [visit, helper_text htext, helperId, if_neg hne, hdecode, htype]
  split
  · exact finish_idle hv
  · exact hv

theorem passedOver_of_tolerates (h : Distinct scanner message)
    (herror : ∀ x ∈ message, scanner.hash x.1 ≠ scanner.hash "error")
    (htolerates : Tolerates scanner text message) :
    PassedOver (dispatch scanner text true message) := by
  refine passedOver_of_post (Scan.post_foldlM (fun x hx v hv => ?_) ⟨⟨rfl, rfl⟩, rfl⟩)
  by_cases hid : scanner.hash x.1 = scanner.hash "id"
  · obtain ⟨key, value⟩ := x
    obtain rfl : key = "id" := h.told _ hx hid
    rcases htolerates value hx with hempty | ⟨id, request, htext, hdecode, htype⟩
    · exact visit_idle (herror _ hx) (fun _ => hempty) v hv
    · exact visit_tolerated htext hdecode htype v hv
  · exact visit_idle (herror x hx) (fun heq => absurd heq hid) v hv

/-- Where the id ends the parser, the message is not passed over. -/
theorem not_passedOver_of_visit (h : Distinct scanner message) {value : ν} (hid : ("id", value) ∈ message)
    {ending : Ending} (hending : ending ≠ .returned false)
    (hvisit : ∀ v, Silent v → visit scanner text true v ("id", value) = .error { ending := ending }) :
    ¬ PassedOver (dispatch scanner text true message) := by
  have hpost : Scan.Post (fun _ => False) (· = { ending := ending })
      (message.foldlM (visit scanner text true) {}) := by
    refine h.post hid (fun v hv => ?_) fun _ _ _ _ hv => hv.elim
    rw [hvisit v hv]
    exact rfl
  rw [dispatch_of_post (hpost.imp fun _ hv => hv.elim)]
  simpa [PassedOver] using hending

theorem Handler.of_eq_some {request : WSAPIRequest} (hundefined : request.type ≠ .undefinedInternal)
    (hunknown : request.type ≠ .unknownInternal) : ∃ handler, Handler.of request = some handler := by
  unfold Handler.of
  cases htype : request.type <;> first | exact ⟨_, rfl⟩ | contradiction

theorem tolerates_of_passedOver (h : Distinct scanner message)
    (hpassed : PassedOver (dispatch scanner text true message)) :
    Tolerates scanner text message := by
  intro value hid
  cases htext : text value with
  | none =>
    refine absurd hpassed (not_passedOver_of_visit h hid (by simp : Ending.thrown ≠ _) fun v hv => ?_)
    simp [visit, helper, hash_id_ne_error, htext, hv.2]
  | some id =>
    by_cases hne : id = ""
    · exact .inl (by rw [hne])
    cases hdecode : WSAPIRequest.decode scanner.toCodec id.toList with
    | none =>
      refine absurd hpassed (not_passedOver_of_visit h hid (by simp : Ending.thrown ≠ _) fun v hv => ?_)
      simp [visit, helper_text htext, helperId, hne, hdecode, hv.2]
    | some request =>
      by_cases hunknown : request.type = .unknownInternal
      · exact .inr ⟨id, request, rfl, hdecode, hunknown⟩
      by_cases hundefined : request.type = .undefinedInternal
      · refine absurd hpassed (not_passedOver_of_visit h hid (by simp : Ending.fatal ≠ _) fun v hv => ?_)
        simp [visit, helper_text htext, helperId, hne, hdecode, hundefined, hv.2]
      · obtain ⟨handler, hhandler⟩ := Handler.of_eq_some hundefined hunknown
        rw [dispatch_request h hid htext hdecode hhandler] at hpassed
        cases hpassed

end WSAPIParser.Objects

/-! ### Tolerance -/

/-- BUG: with the flag set a message is passed over where the parser finds a type it does not know. The
    market stream needs one, in front of any key that is empty; the user stream can do without; the
    WebSocket API takes an empty id or none, or one of the right length. All else throws, or ends the
    process. -/
theorem passedOver_exact (reader : Reader ν) (scanner : Scanner) :
    (∀ message, MarketStreamParser.Anonymous reader message →
      (PassedOver (MarketStreamParser.dispatch reader true message)
        ↔ MarketStreamParser.Tolerates reader message)) ∧
    (∀ message, PassedOver (UserStreamParser.dispatch reader true message)
      ↔ UserStreamParser.Tolerates reader message) ∧
    ∀ message, WSAPIParser.Objects.Distinct scanner message →
      (∀ x ∈ message, scanner.hash x.1 ≠ scanner.hash "error") →
      (PassedOver (WSAPIParser.Objects.dispatch scanner reader.text true message)
        ↔ WSAPIParser.Objects.Tolerates scanner reader.text message) :=
  ⟨fun _ h => MarketStreamParser.passedOver_iff h, UserStreamParser.passedOver_iff,
    fun _ h herror => ⟨WSAPIParser.Objects.tolerates_of_passedOver h,
      WSAPIParser.Objects.passedOver_of_tolerates h herror⟩⟩

/-- A type that is new is passed over on both streams, and a notice without an id on the socket. -/
theorem passedOver_listing :
    PassedOver (MarketStreamParser.dispatch Reader.flat true
      [("s", .text "BTCUSDT"), ("e", .text "listing")]) ∧
    PassedOver (UserStreamParser.dispatch Reader.flat true
      [("s", .text "BTCUSDT"), ("e", .text "listing")]) ∧
    PassedOver (WSAPIParser.Objects.dispatch .standard Reader.flat.text true
      [("notice", .text "maintenance")]) := by
  obtain ⟨hmarket, huser, hsocket⟩ := passedOver_exact Reader.flat .standard
  refine ⟨(hmarket _ ?_).mpr ⟨("e", .text "listing"), ?_, ?_, ?_⟩, (huser _).mpr ?_,
    (hsocket _ ⟨?_, ?_⟩ ?_).mpr ?_⟩
  · unfold MarketStreamParser.Anonymous
    decide
  · decide
  · decide
  · decide
  · intro x hx
    obtain rfl := Option.some.inj hx
    decide
  · decide
  · decide
  · decide
  · intro value hmem
    simp at hmem
/-- A message without a type ends the process on the market stream, and one with an id that the gateway
    has not given throws on the socket; the same fields are passed over on the user stream. -/
theorem not_passedOver_notice :
    MarketStreamParser.dispatch Reader.flat true [("notice", .text "maintenance")]
        = { ending := .fatal } ∧
      WSAPIParser.Objects.dispatch .standard Reader.flat.text true
        [("id", .text "1"), ("notice", .text "maintenance")] = { ending := .thrown } ∧
      PassedOver (UserStreamParser.dispatch Reader.flat true [("notice", .text "maintenance")]) := by
  decide

end BinanceFutures.Json
