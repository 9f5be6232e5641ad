import BinanceFutures.Basics
import BinanceFutures.Schemes.Form
import Mathlib.Data.List.Basic

/-! # Crypto

    The account's keys: what they sign, and the texts the signatures become part of. A MAC is fed in
    pieces and keeps its state between two signatures, so every signer clears it first.

        create_rest_signature        ?timestamp=T&signature=…          signs timestamp=T
        create_rest_signature_body   ?timestamp=T&signature=…          signs timestamp=T + body
        create_rest_signature_query  ?{query}&timestamp=T&signature=…  signs {query}&timestamp=T

    The exchange computes the signature of what it receives: of the query string up to the signature,
    and of the body behind it. -/

namespace BinanceFutures

/-- What belongs to the client library: `utils::mac::HMAC` with `utils::codec::Hex`, and
    `utils::signature::PKey` with `utils::codec::Base64`. -/
structure Primitives where
  Mac : Type
  clear : Mac → Mac
  update : Mac → String → Mac
  /-- The digest, and what is left of the MAC. -/
  final : Mac → List UInt8 × Mac
  hex : List UInt8 → String
  PKey : Type
  sign : PKey → String → List UInt8
  base64 : List UInt8 → String
  update_update : ∀ mac a b, update (update mac a) b = update mac (a ++ b)
  clear_clear : ∀ mac, clear (clear mac) = clear mac
  clear_update : ∀ mac a, clear (update mac a) = clear mac
  clear_final : ∀ mac, clear (final mac).2 = clear mac
  ampersand_hex : ∀ digest, '&' ∉ (hex digest).toList

/-- `utils::codec::Hex::encode` -/
def hexEncode (digest : List UInt8) : String :=
  String.ofList (digest.flatMap fun byte =>
    [Nat.digitChar (byte.toNat / 16), Nat.digitChar (byte.toNat % 16)])

theorem ampersand_hexEncode (digest : List UInt8) : '&' ∉ (hexEncode digest).toList := by
  have hdigit : ∀ n < 16, Nat.digitChar n ≠ '&' := by decide
  rw [hexEncode, String.toList_ofList, List.mem_flatMap]
  rintro ⟨byte, -, hbyte⟩
  have hbound : byte.toNat < 256 := byte.toNat_lt
  rcases List.mem_pair.mp hbyte with h | h
  · exact hdigit _ (by omega) h.symm
  · exact hdigit _ (by omega) h.symm

/-- The digest of a text is the text. -/
def Primitives.plain : Primitives where
  Mac := List Char
  clear _ := []
  update mac a := mac ++ a.toList
  final mac := (mac.map fun c => c.toNat.toUInt8, mac)
  hex := hexEncode
  PKey := Unit
  sign _ text := text.toList.map fun c => c.toNat.toUInt8
  base64 := hexEncode
  update_update mac a b := by simp
  clear_clear _ := rfl
  clear_update _ _ := rfl
  clear_final _ := rfl
  ampersand_hex := ampersand_hexEncode

/-- `tools::Crypto` -/
structure Crypto (primitives : Primitives) where
  key : String
  key2 : String := ""
  pkey : primitives.PKey
  mac : primitives.Mac

namespace Crypto
variable {primitives : Primitives} (crypto : Crypto primitives)

/-- `get_rest_headers` -/
def getRestHeaders : String :=
  "X-MBX-APIKEY: " ++ (if crypto.key2 = "" then crypto.key else crypto.key2) ++ "\r\n"

/-- `create_session_logon_signature` -/
def createSessionLogonSignature (nowUtc recvWindow : ℕ) : String :=
  let payload := "apiKey=" ++ crypto.key ++ "&recvWindow=" ++ toString recvWindow
    ++ "&timestamp=" ++ toString nowUtc
  primitives.base64 (primitives.sign crypto.pkey payload)

def timestamp (nowUtc : ℕ) : String := "timestamp=" ++ toString nowUtc

/-- The query string of a text, with the signature of the text and of what else the MAC is fed. -/
def sealed (text : String) (more : List String) : String × Crypto primitives :=
  let mac := (text :: more).foldl primitives.update (primitives.clear crypto.mac)
  let digest := primitives.final mac
  ("?" ++ text ++ "&signature=" ++ primitives.hex digest.1, { crypto with mac := digest.2 })

/-- `create_rest_signature` -/
def createRestSignature (nowUtc : ℕ) : String × Crypto primitives :=
  crypto.sealed (timestamp nowUtc) []

/-- `create_rest_signature_body` -/
def createRestSignatureBody (nowUtc : ℕ) (body : String) : String × Crypto primitives :=
  crypto.sealed (timestamp nowUtc) [body]

/-- `create_rest_signature_query` -/
def createRestSignatureQuery (nowUtc : ℕ) (query : String) : String × Crypto primitives :=
  crypto.sealed (query ++ "&" ++ timestamp nowUtc) []

/-! ### What is signed -/

/-- The signature of a text. -/
def signature (text : String) : String :=
  primitives.hex (primitives.final (primitives.update (primitives.clear crypto.mac) text)).1

/-- The query string without its leading `?` and without its last parameter. -/
def unsigned (query : String) : String := String.ofList (Query.front query.toList.tail)

/-- The last parameter is the signature of what stands before it, followed by the body. -/
def Signs (query body : String) : Prop :=
  query = "?" ++ unsigned query ++ "&signature=" ++ crypto.signature (unsigned query ++ body)

theorem unsigned_eq {signature : String} (text : String) (h : '&' ∉ signature.toList) :
    unsigned ("?" ++ text ++ "&signature=" ++ signature) = text := by
  have hlast : '&' ∉ "signature=".toList ++ signature.toList := by
    rw [List.mem_append, not_or]
    exact ⟨by decide, h⟩
  have hlist : ("?" ++ text ++ "&signature=" ++ signature).toList
      = '?' :: (text.toList ++ '&' :: ("signature=".toList ++ signature.toList)) := by
    simp
  rw [unsigned, hlist, List.tail_cons, Query.front_append _ hlast, String.ofList_toList]

/-- Fed in pieces, the MAC has been fed the whole. -/
theorem foldl_update (mac : primitives.Mac) (text : String) (more : List String) :
    (text :: more).foldl primitives.update mac = primitives.update mac (more.foldl (· ++ ·) text) := by
  rw [List.foldl_cons]
  exact List.foldl_hom (primitives.update mac) fun a b => primitives.update_update mac a b

theorem sealed_fst (text : String) (more : List String) :
    (crypto.sealed text more).1
      = "?" ++ text ++ "&signature=" ++ crypto.signature (more.foldl (· ++ ·) text) := by
  rw [sealed, foldl_update]
  rfl

theorem ampersand_signature (text : String) : '&' ∉ (crypto.signature text).toList :=
  primitives.ampersand_hex _

theorem sealed_signs (text : String) {more : List String} {body : String}
    (h : more.foldl (· ++ ·) text = text ++ body) : crypto.Signs (crypto.sealed text more).1 body := by
  rw [Signs, sealed_fst, unsigned_eq _ (crypto.ampersand_signature _), h]

/-- A body is signed behind the timestamp. -/
example : ((⟨"key", "", (), []⟩ : Crypto .plain).createRestSignatureBody 5 "a=b").1
    = "?timestamp=5&signature=74696d657374616d703d35613d62" := by decide

/-- What no signature changes. -/
def rest : Crypto primitives := { crypto with mac := primitives.clear crypto.mac }

theorem rest_sealed (text : String) (more : List String) :
    (crypto.sealed text more).2.rest = crypto.rest := by
  simp only [sealed, rest, foldl_update, primitives.clear_final, primitives.clear_update,
    primitives.clear_clear]

theorem signs_rest {query body : String} : crypto.rest.Signs query body ↔ crypto.Signs query body := by
  simp only [Signs, signature, rest, primitives.clear_clear]

end Crypto

end BinanceFutures
