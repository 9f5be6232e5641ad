import BinanceFutures.Protocol.Encoder
import BinanceFutures.Schemes.Document

/-! # Envelopes

    What goes out on the WebSocket API is a JSON object of three members. The encoder formats it by hand,
    without escapes.

        {"id":"joQeAAwC…","method":"order.cancel","params":{"symbol":"BTCUSDT",…,"timestamp":5}}

    `Message` and `SessionLogon` are envelopes, too. An envelope is read as what it says if and only if
    none of its texts ends early and all of its integers are numbers. -/

namespace BinanceFutures.Json

/-- A message to the WebSocket API, with all of its parameters. -/
structure Envelope where
  id : String
  method : String
  params : Fields

def Message.envelope (m : Message) : Envelope :=
  ⟨m.id, m.method, m.params ++ [("timestamp", .count m.timestamp)]⟩

def SessionLogon.envelope (m : SessionLogon) : Envelope := ⟨m.id, "session.logon", m.params⟩

namespace Encoder

/-- `user_data_stream_start_json` -/
def userDataStreamStartJson (apiKey id : String) : Envelope :=
  ⟨id, "userDataStream.start", [("apiKey", .text apiKey)]⟩

/-- `user_data_stream_ping_json` -/
def userDataStreamPingJson (apiKey id : String) : Envelope :=
  ⟨id, "userDataStream.ping", [("apiKey", .text apiKey)]⟩

/-- `account_balance_json`: here the timestamp is a text. -/
def accountBalanceJson (nowUtc : ℕ) (id : String) : Envelope :=
  ⟨id, "account.balance", [("timestamp", .text (toString nowUtc))]⟩

/-- `account_status_json` -/
def accountStatusJson (nowUtc : ℕ) (id : String) : Envelope :=
  ⟨id, "account.status", [("timestamp", .text (toString nowUtc))]⟩

/-- `account_position_json` -/
def accountPositionJson (nowUtc : ℕ) (id : String) : Envelope :=
  ⟨id, "account.position", [("timestamp", .text (toString nowUtc))]⟩

end Encoder

section
variable (formats : Formats)

def Envelope.text (e : Envelope) : String :=
  let members := e.params.map fun field => "\"" ++ field.1 ++ "\":" ++ field.2.json formats
  "\x7b\"id\":\"" ++ e.id ++ "\",\"method\":\"" ++ e.method ++ "\",\"params\":\x7b"
    ++ ",".intercalate members ++ "\x7d\x7d"

theorem text_sessionLogon (m : SessionLogon) : m.text formats = m.envelope.text formats := by
  have hmethod : "\",\"method\":\"session.logon\",\"params\":\x7b"
      = "\",\"method\":\"" ++ "session.logon" ++ "\",\"params\":\x7b" := by decide
  simp only [SessionLogon.text, Envelope.text, SessionLogon.envelope, hmethod, String.append_assoc]

/-- The timestamp of a message is its last parameter, where there is another one before it. -/
theorem text_message {m : Message} (h : m.params ≠ []) : m.text formats = m.envelope.text formats := by
  have htimestamp : ",\"timestamp\":" = "," ++ ("\"" ++ "timestamp" ++ "\":") := by decide
  have hjson : (Value.count m.timestamp).json formats = toString m.timestamp := rfl
  simp only [Message.text, Envelope.text, Message.envelope, List.map_append, List.map_cons,
    List.map_nil, hjson, htimestamp]
  rw [String.intercalate_append_of_ne_nil (by simpa using h) (by simp), String.intercalate_singleton]
  simp only [String.append_assoc]

/-! ### Documents -/

/-- A value as it stands in a JSON object. -/
def Value.document (v : Value) : Document :=
  match v with
  | .count _ | .integer _ => .number (v.format formats).toList
  | .text _ | .decimal .. | .flag _ => .text (v.format formats).toList

def Fields.document (fields : Fields) : Document :=
  .object (fields.map fun field => (field.1.toList, field.2.document formats))

def Envelope.document (e : Envelope) : Document :=
  .object [("id".toList, .text e.id.toList), ("method".toList, .text e.method.toList),
    ("params".toList, Fields.document formats e.params)]

theorem toList_json (v : Value) : (v.json formats).toList = (v.document formats).write := by
  cases v <;> simp [Value.json, Value.document, Document.write, Document.quoted]

/-- What the encoder formats is the document that the envelope is. -/
theorem toList_text (e : Envelope) : (e.text formats).toList = (e.document formats).write := by
  have hmembers : (e.params.map fun field => "\"" ++ field.1 ++ "\":" ++ field.2.json formats).map
        String.toList
      = (e.params.map fun field => (field.1.toList, field.2.document formats)).map
          Document.writeMember := by
    rw [List.map_map, List.map_map]
    refine List.map_congr_left fun field _ => ?_
    simp [Document.writeMember, Document.quoted, toList_json]
  have hparams : (Fields.document formats e.params).write
      = '\x7b' :: [','].intercalate ((e.params.map fun field =>
          "\"" ++ field.1 ++ "\":" ++ field.2.json formats).map String.toList) ++ ['\x7d'] := by
    rw [Fields.document, Document.write_object, hmembers]
  rw [Envelope.document, Document.write_object]
  simp only [List.map_cons, Document.writeMember, hparams]
  simp [Envelope.text, String.toList_intercalate, Document.quoted, Document.write]

/-! ### What is read -/

/-- The texts and the numbers among the parameters, and their names, are what they should be. -/
def Fields.Plain (fields : Fields) : Prop := Document.Clean (fields.document formats)

theorem plain_iff {fields : Fields} : fields.Plain formats ↔ ∀ field ∈ fields,
    (∀ c ∈ field.1.toList, Document.isPlain c = true) ∧ (field.2.document formats).Clean := by
  rw [Fields.Plain, Fields.document, Document.clean_object_iff, List.forall_mem_map]

/-- What a value has to be: what the format makes of a count or a flag always is. -/
theorem clean_document_iff (v : Value) : (v.document formats).Clean ↔ match v with
    | .text s => ∀ c ∈ s.toList, Document.isPlain c = true
    | .decimal x precision => ∀ c ∈ (formats.decimal x precision).toList, Document.isPlain c = true
    | .integer s => Document.isNumeral s.toList = true
    | .flag _ | .count _ => True := by
  cases v with
  | text s | decimal x precision => exact Document.clean_text_iff
  | integer s => exact Document.clean_number_iff
  | flag b =>
    refine iff_of_true (Document.clean_text_iff.mpr (Document.plain_text ?_)) trivial
    cases b <;> simp only [Value.format] <;> decide
  | count n => exact iff_of_true (Document.clean_number_iff.mpr (Document.isNumeral_repr n)) trivial

end

/-- What the exchange reads of a text: the id, the method and the parameters. -/
def received (text : String) : Option (List Char × List Char × Document) :=
  match Document.parse text.toList with
  | none => none
  | some d =>
    match (d.get "id").bind Document.asText, (d.get "method").bind Document.asText, d.get "params" with
    | some id, some method, some params => some (id, method, params)
    | _, _, _ => none

variable (formats : Formats)

/-- What is read is clean. -/
theorem clean_of_received {text : String} {id method : List Char} {params : Document}
    (h : received text = some (id, method, params)) :
    (∀ c ∈ id, Document.isPlain c = true) ∧ (∀ c ∈ method, Document.isPlain c = true) ∧
      params.Clean := by
  unfold received at h
  split at h
  · cases h
  next d hparse =>
    have hclean := Document.clean_of_parse hparse
    have htext : ∀ {name : String} {s : List Char}, (d.get name).bind Document.asText = some s →
        ∀ c ∈ s, Document.isPlain c = true := by
      intro name s hs
      obtain ⟨d', hget, hd'⟩ := Option.bind_eq_some_iff.mp hs
      have hclean' := Document.clean_of_get hclean hget
      cases d' with
      | text s' =>
        obtain rfl := Option.some.inj hd'
        exact Document.clean_text_iff.mp hclean'
      | number _ | array _ | object _ => cases hd'
    split at h
    next id' method' params' hid hmethod hparams =>
      simp only [Option.some.injEq, Prod.mk.injEq] at h
      obtain ⟨rfl, rfl, rfl⟩ := h
      exact ⟨htext hid, htext hmethod, Document.clean_of_get hclean hparams⟩
    · cases h

/-- EXACT: the exchange reads what the envelope says if and only if nothing in it ends early. -/
theorem received_text_iff (e : Envelope) :
    received (e.text formats) = some (e.id.toList, e.method.toList, e.params.document formats) ↔
      (∀ c ∈ e.id.toList, Document.isPlain c = true) ∧
      (∀ c ∈ e.method.toList, Document.isPlain c = true) ∧ e.params.Plain formats := by
  refine ⟨fun h => clean_of_received h, ?_⟩
  rintro ⟨hid, hmethod, hparams⟩
  have hname : ∀ name ∈ ["id", "method", "params"], ∀ c ∈ name.toList, Document.isPlain c = true :=
    Document.plain_names (by decide)
  have hclean : (e.document formats).Clean := by
    rw [Envelope.document, Document.clean_object_iff]
    intro m hm
    simp only [List.mem_cons, List.not_mem_nil, or_false] at hm
    rcases hm with rfl | rfl | rfl
    · exact ⟨hname "id" (by simp), Document.clean_text_iff.mpr hid⟩
    · exact ⟨hname "method" (by simp), Document.clean_text_iff.mpr hmethod⟩
    · exact ⟨hname "params" (by simp), hparams⟩
  rw [received, toList_text, (Document.parse_write_iff _).mpr hclean]
  simp [Envelope.document, Document.get, Document.asText]

end BinanceFutures.Json
