import BinanceFutures.Gateway.Oms
import BinanceFutures.Schemes.Octets

/-! # Ids of WebSocket API requests

    A request to the WebSocket API carries an id that the exchange echoes. `WSAPIRequest` packs into it
    what the gateway wants to know about the request when it is answered.

        sequence  type  user_id  order_id  version  order_id_2  0
           4       1       1        8         4         8       1     ─▶ 27 bytes, 36 digits -/

namespace BinanceFutures.Json

inductive WSAPIType where
  | undefinedInternal | unknownInternal | sessionLogon | userDataStreamStart | userDataStreamPing
  | accountBalance | accountStatus | accountPosition | ordersStatus | openOrdersCancelAll | orderPlace
  | orderCancel | orderModify | myTrades
  deriving DecidableEq

structure WSAPIRequest where
  sequence : UInt32 := 0
  type : WSAPIType := .undefinedInternal
  userId : UserId := 0
  orderId : OrderId := 0
  version : Version := 0
  orderId2 : UInt64 := 0
  deriving DecidableEq

/-- `^[a-zA-Z0-9-_]{1,36}$` -/
abbrev Id := List Char

/-- What belongs to the client library, or is generated: the numbers of `WSAPIType::type_t`, and
    `utils::codec::Base64`, URL-safe and without padding. -/
structure Codec where
  code : WSAPIType → UInt8
  ofCode : UInt8 → WSAPIType
  encode : List UInt8 → Id
  decode : Id → List UInt8
  ofCode_code : ∀ type, ofCode (code type) = type
  decode_encode : ∀ data, decode (encode data) = data
  length_encode : ∀ data, data.length = 27 → (encode data).length = 36

namespace Codec

/-- The members of the enumeration, in their order. -/
def types : List WSAPIType :=
  [.undefinedInternal, .unknownInternal, .sessionLogon, .userDataStreamStart, .userDataStreamPing,
    .accountBalance, .accountStatus, .accountPosition, .ordersStatus, .openOrdersCancelAll, .orderPlace,
    .orderCancel, .orderModify, .myTrades]

/-- RFC 4648, and the numbers that an enumeration has by default. -/
def standard : Codec where
  code type := UInt8.ofNat (types.idxOf type)
  ofCode code := types.getD code.toNat .unknownInternal
  encode := Octets.encode
  decode id := (Octets.decode id).getD []
  ofCode_code type := by cases type <;> decide
  decode_encode data := by rw [Octets.decode_encode, Option.getD_some]
  length_encode data h := Octets.length_encode 9 data h

end Codec

/-- The numbers of `WSAPIType::type_t`, as they are generated. -/
structure Numbering where
  code : WSAPIType → UInt8
  ofCode : UInt8 → WSAPIType
  ofCode_code : ∀ type, ofCode (code type) = type

/-- The standard URL-safe codec, whatever the numbers of the enumeration are. -/
def Numbering.base64 (numbering : Numbering) : Codec where
  code := numbering.code
  ofCode := numbering.ofCode
  encode := Octets.encode
  decode id := (Octets.decode id).getD []
  ofCode_code := numbering.ofCode_code
  decode_encode data := by rw [Octets.decode_encode, Option.getD_some]
  length_encode data h := Octets.length_encode 9 data h

/-- The numbers that an enumeration has by default. -/
def Numbering.standard : Numbering := ⟨Codec.standard.code, Codec.standard.ofCode, Codec.standard.ofCode_code⟩

namespace WSAPIRequest

variable (codec : Codec)

def data (request : WSAPIRequest) : List UInt8 :=
  Octets.leBytes 4 request.sequence.toNat ++ [codec.code request.type, request.userId] ++
    Octets.leBytes 8 request.orderId.toNat ++ Octets.leBytes 4 request.version.toNat ++
    Octets.leBytes 8 request.orderId2.toNat ++ [0]

def encode (request : WSAPIRequest) : Id := codec.encode (request.data codec)

/-- `memcpy` of `k` bytes from the `i`-th. -/
def copy (data : List UInt8) (i k : ℕ) : ℕ := Octets.ofLeBytes ((data.drop i).take k)

/-- `none` where it throws. -/
def decode (buffer : Id) : Option WSAPIRequest :=
  if buffer.length ≠ 36 then none
  else
    let data := codec.decode buffer
    some {
      sequence := UInt32.ofNat (copy data 0 4)
      type := codec.ofCode (data.getD 4 0)
      userId := data.getD 5 0
      orderId := UInt64.ofNat (copy data 6 8)
      version := UInt32.ofNat (copy data 14 4)
      orderId2 := UInt64.ofNat (copy data 18 8) }

theorem length_data (request : WSAPIRequest) : (request.data codec).length = 27 := by
  simp [data]

/-- Bytes that stand `i` from the start are read back as the number they were written from. -/
theorem copy_eq {bytes : List UInt8} (front back : List UInt8) {i k n : ℕ}
    (hbytes : bytes = front ++ (Octets.leBytes k n ++ back)) (hfront : front.length = i)
    (hn : n < 256 ^ k) : copy bytes i k = n := by
  rw [copy, hbytes, ← hfront, List.drop_left, List.take_left' (Octets.length_leBytes k n),
    Octets.ofLeBytes_leBytes, Nat.mod_eq_of_lt hn]

theorem copy_sequence (request : WSAPIRequest) :
    copy (request.data codec) 0 4 = request.sequence.toNat :=
  copy_eq [] _ (by simp only [data, List.append_assoc, List.nil_append]; rfl) rfl
    request.sequence.toNat_lt

theorem copy_orderId (request : WSAPIRequest) :
    copy (request.data codec) 6 8 = request.orderId.toNat :=
  copy_eq (Octets.leBytes 4 request.sequence.toNat ++ [codec.code request.type, request.userId]) _
    (by simp only [data, List.append_assoc]; rfl) (by simp) request.orderId.toNat_lt

theorem copy_version (request : WSAPIRequest) :
    copy (request.data codec) 14 4 = request.version.toNat :=
  copy_eq (Octets.leBytes 4 request.sequence.toNat ++ [codec.code request.type, request.userId] ++
    Octets.leBytes 8 request.orderId.toNat) _
    (by simp only [data, List.append_assoc]; rfl) (by simp) request.version.toNat_lt

theorem copy_orderId2 (request : WSAPIRequest) :
    copy (request.data codec) 18 8 = request.orderId2.toNat :=
  copy_eq (Octets.leBytes 4 request.sequence.toNat ++ [codec.code request.type, request.userId] ++
    Octets.leBytes 8 request.orderId.toNat ++ Octets.leBytes 4 request.version.toNat) _
    (by simp only [data, List.append_assoc]; rfl) (by simp) request.orderId2.toNat_lt

/-- The id gives back all that was packed into it. -/
theorem decode_encode (request : WSAPIRequest) : decode codec (encode codec request) = some request := by
  have hlength := codec.length_encode _ (request.length_data codec)
  have htype : (request.data codec).getD 4 0 = codec.code request.type := by
    simp [data, Octets.leBytes]
  have huser : (request.data codec).getD 5 0 = request.userId := by
    simp [data, Octets.leBytes]
  rw [decode, if_neg (by rw [encode, hlength]; decide), encode, codec.decode_encode]
  simp only [copy_sequence, copy_orderId, copy_version, copy_orderId2, htype, huser,
    codec.ofCode_code, UInt32.ofNat_toNat, UInt64.ofNat_toNat]

/-! ### The way back -/

/-- Bytes that are copied out of the data are written back as they were. -/
theorem leBytes_copy (data : List UInt8) {i k n : ℕ} (hlength : i + k ≤ data.length)
    (hn : n = copy data i k) : Octets.leBytes k n = (data.drop i).take k := by
  have htake : ((data.drop i).take k).length = k := by
    rw [List.length_take, List.length_drop]
    omega
  have hback := Octets.leBytes_ofLeBytes ((data.drop i).take k)
  rwa [htake, ← copy, ← hn] at hback

theorem copy_lt (data : List UInt8) {i k : ℕ} (hlength : i + k ≤ data.length) :
    copy data i k < 256 ^ k := by
  have htake : ((data.drop i).take k).length = k := by
    rw [List.length_take, List.length_drop]
    omega
  have hlt := Octets.ofLeBytes_lt ((data.drop i).take k)
  rwa [htake] at hlt

theorem drop_getD {data : List UInt8} {i : ℕ} (h : i < data.length) :
    data.drop i = data.getD i 0 :: data.drop (i + 1) := by
  rw [List.drop_eq_getElem_cons h, List.getD_eq_getElem?_getD, List.getElem?_eq_getElem h,
    Option.getD_some]

/-- The data, cut at the boundaries of the fields. -/
theorem data_fields {data : List UInt8} (h : data.length = 27) :
    data = data.take 4 ++ [data.getD 4 0, data.getD 5 0] ++ (data.drop 6).take 8 ++
      (data.drop 14).take 4 ++ (data.drop 18).take 8 ++ [data.getD 26 0] := by
  have hlast : data.drop 27 = [] := List.drop_eq_nil_of_le (by omega)
  have h₂₆ : data.drop 26 = [data.getD 26 0] := by rw [drop_getD (by omega), hlast]
  have h₁₈ : data.drop 18 = (data.drop 18).take 8 ++ [data.getD 26 0] := by
    conv_lhs => rw [← List.take_append_drop 8 (data.drop 18), List.drop_drop, h₂₆]
  have h₁₄ : data.drop 14 = (data.drop 14).take 4 ++ data.drop 18 := by
    conv_lhs => rw [← List.take_append_drop 4 (data.drop 14), List.drop_drop]
  have h₆ : data.drop 6 = (data.drop 6).take 8 ++ data.drop 14 := by
    conv_lhs => rw [← List.take_append_drop 8 (data.drop 6), List.drop_drop]
  have h₄ : data.drop 4 = [data.getD 4 0, data.getD 5 0] ++ data.drop 6 := by
    rw [drop_getD (by omega), drop_getD (by omega)]
    rfl
  calc data = data.take 4 ++ data.drop 4 := (List.take_append_drop 4 data).symm
    _ = data.take 4 ++ ([data.getD 4 0, data.getD 5 0] ++ data.drop 6) := by rw [← h₄]
    _ = data.take 4 ++ [data.getD 4 0, data.getD 5 0] ++ (data.drop 6).take 8 ++ data.drop 14 := by
      rw [List.append_assoc, List.append_assoc, ← h₆]
    _ = data.take 4 ++ [data.getD 4 0, data.getD 5 0] ++ (data.drop 6).take 8 ++
        ((data.drop 14).take 4 ++ ((data.drop 18).take 8 ++ [data.getD 26 0])) := by
      rw [← h₁₈, ← h₁₄]
    _ = _ := by simp only [List.append_assoc]

/-- The request that the data is read as. -/
def ofData (data : List UInt8) : WSAPIRequest where
  sequence := UInt32.ofNat (copy data 0 4)
  type := codec.ofCode (data.getD 4 0)
  userId := data.getD 5 0
  orderId := UInt64.ofNat (copy data 6 8)
  version := UInt32.ofNat (copy data 14 4)
  orderId2 := UInt64.ofNat (copy data 18 8)

/-- Where the type is valid and the last byte zero, no byte of the data is lost. -/
theorem data_ofData {data : List UInt8} (hlength : data.length = 27)
    (htype : ∃ type, codec.code type = data.getD 4 0) (hlast : data.getD 26 0 = 0) :
    (ofData codec data).data codec = data := by
  obtain ⟨type, htype⟩ := htype
  have hcode : codec.code (codec.ofCode (data.getD 4 0)) = data.getD 4 0 := by
    rw [← htype, codec.ofCode_code]
  have hsequence := leBytes_copy data (i := 0) (k := 4) (by omega)
    (UInt32.toNat_ofNat_of_lt' (copy_lt data (i := 0) (k := 4) (by omega)))
  have horderId := leBytes_copy data (i := 6) (k := 8) (by omega)
    (UInt64.toNat_ofNat_of_lt' (copy_lt data (i := 6) (k := 8) (by omega)))
  have hversion := leBytes_copy data (i := 14) (k := 4) (by omega)
    (UInt32.toNat_ofNat_of_lt' (copy_lt data (i := 14) (k := 4) (by omega)))
  have horderId2 := leBytes_copy data (i := 18) (k := 8) (by omega)
    (UInt64.toNat_ofNat_of_lt' (copy_lt data (i := 18) (k := 8) (by omega)))
  conv_rhs => rw [data_fields hlength, hlast]
  rw [WSAPIRequest.data, ofData]
  dsimp only
  rw [hsequence, hcode, horderId, hversion, horderId2, List.drop_zero]

theorem decode_eq (id : Id) :
    decode codec id = if id.length ≠ 36 then none else some (ofData codec (codec.decode id)) := rfl

/-- An id of a request: 36 characters of the alphabet, a byte that numbers a type, and at the end a byte
    that is zero. -/
structure Canonical (id : Id) : Prop where
  length_eq : id.length = 36
  digits : ∀ c ∈ id, Octets.IsDigit c
  valid : ∃ type, codec.code type = (codec.decode id).getD 4 0
  last : (codec.decode id).getD 26 0 = 0

/-- What was decoded from the id of a request is encoded as the id. -/
theorem encode_ofData (numbering : Numbering) {id : Id} (h : Canonical numbering.base64 id) :
    encode numbering.base64 (ofData numbering.base64 (numbering.base64.decode id)) = id := by
  obtain ⟨data, hdecode, hlength, hencode⟩ := Octets.encode_decode 9 id h.length_eq h.digits
  have hdata : numbering.base64.decode id = data := by
    simp only [Numbering.base64, hdecode, Option.getD_some]
  have hback := data_ofData numbering.base64 hlength (by rw [← hdata]; exact h.valid)
    (by rw [← hdata]; exact h.last)
  rw [encode, hdata, hback]
  exact hencode

/-- CORRECT: an id gives back the request that was packed into it, is 36 characters of the exchange's
    alphabet and stands for one request; decoding and encoding a request's id gives the id back, and
    nothing of another length is decoded. -/
theorem roundtrip (numbering : Numbering) :
    (∀ request, decode numbering.base64 (encode numbering.base64 request) = some request) ∧
    (∀ request, (encode numbering.base64 request).length = 36 ∧
      ∀ c ∈ encode numbering.base64 request, Octets.IsDigit c) ∧
    Function.Injective (encode numbering.base64) ∧
    (∀ id, Canonical numbering.base64 id →
      (decode numbering.base64 id).map (encode numbering.base64) = some id) ∧
    ∀ id : Id, id.length ≠ 36 → decode numbering.base64 id = none := by
  refine ⟨decode_encode numbering.base64, fun request => ⟨?_, ?_⟩, ?_, fun id hid => ?_,
    fun id hid => if_pos hid⟩
  · exact numbering.base64.length_encode _ (request.length_data numbering.base64)
  · exact Octets.isDigit_encode (request.data numbering.base64)
  · intro r r' heq
    have hdecode := congrArg (decode numbering.base64) heq
    rwa [decode_encode, decode_encode, Option.some_inj] at hdecode
  · rw [decode_eq, if_neg (not_not_intro hid.length_eq), Option.map_some, encode_ofData numbering hid]

/-- An id of the repository's tests comes back. -/
theorem roundtrip_id :
    (decode Numbering.standard.base64 "joQeAAwCpIs3B0UAAAAFAAAAAAAAAAAAAAAA".toList).map
        (encode Numbering.standard.base64)
      = some "joQeAAwCpIs3B0UAAAAFAAAAAAAAAAAAAAAA".toList :=
  (roundtrip Numbering.standard).2.2.2.1 _
    ⟨by decide, List.forall_iff_forall_mem.mp (by decide), ⟨.orderModify, by decide⟩, by decide⟩

/-- An id of the repository's tests. -/
example : decode .standard "joQeAAwCpIs3B0UAAAAFAAAAAAAAAAAAAAAA".toList
    = some { sequence := 2000014, type := .orderModify, userId := 2, orderId := 296473824164,
             version := 5 } := by decide

end WSAPIRequest

end BinanceFutures.Json
