import Mathlib.Data.List.Basic
import Mathlib.Tactic.IntervalCases

/-! # Octets on the wire

    Two codecs for sequences of bytes. `leBytes`/`ofLeBytes` are the little-endian image of a natural
    number in a fixed count of bytes. `encode`/`decode` are the URL-safe Base64 of RFC 4648 without
    padding: three bytes are four digits of six bits, and a tail of one or two bytes is two or three.

        a········ b········ c········
        └── d₁ ─┘└── d₂ ─┘└── d₃ ─┘└── d₄ ─┘ -/

namespace Octets

/-! ### Little-endian numbers -/

/-- The `k` low bytes of `n`, least significant first. -/
def leBytes : ℕ → ℕ → List UInt8
  | 0, _ => []
  | k + 1, n => UInt8.ofNat n :: leBytes k (n / 256)

/-- The number whose little-endian bytes are given. -/
def ofLeBytes : List UInt8 → ℕ
  | [] => 0
  | b :: bs => b.toNat + 256 * ofLeBytes bs

@[simp] theorem length_leBytes : ∀ k n, (leBytes k n).length = k
  | 0, _ => rfl
  | k + 1, n => by rw [leBytes, List.length_cons, length_leBytes k (n / 256)]

/-- Reading the bytes back gives the number, up to what does not fit. -/
theorem ofLeBytes_leBytes : ∀ k n, ofLeBytes (leBytes k n) = n % 256 ^ k
  | 0, n => by rw [leBytes, ofLeBytes, pow_zero, Nat.mod_one]
  | k + 1, n => by
      have hlow : (UInt8.ofNat n).toNat = n % 256 := by simp
      rw [leBytes, ofLeBytes, ofLeBytes_leBytes k (n / 256), hlow, pow_succ', Nat.mod_mul]

/-- Writing the number that was read gives the bytes back. -/
theorem leBytes_ofLeBytes : ∀ bs, leBytes bs.length (ofLeBytes bs) = bs
  | [] => rfl
  | b :: bs => by
      have hb := b.toNat_lt
      have hlow : UInt8.ofNat (b.toNat + 256 * ofLeBytes bs) = b := by
        apply UInt8.toNat_inj.mp
        rw [UInt8.toNat_ofNat']
        omega
      have hhigh : (b.toNat + 256 * ofLeBytes bs) / 256 = ofLeBytes bs := by omega
      rw [List.length_cons, leBytes, ofLeBytes, hlow, hhigh, leBytes_ofLeBytes bs]

theorem ofLeBytes_lt : ∀ bs, ofLeBytes bs < 256 ^ bs.length
  | [] => by simp [ofLeBytes]
  | b :: bs => by
      have hb := b.toNat_lt
      have hrest := ofLeBytes_lt bs
      rw [ofLeBytes, List.length_cons, pow_succ]
      omega

/-! ### URL-safe Base64 -/

/-- The digit of six bits. -/
def digit (i : ℕ) : Char :=
  if i < 26 then Char.ofNat (65 + i)
  else if i < 52 then Char.ofNat (97 + (i - 26))
  else if i < 62 then Char.ofNat (48 + (i - 52))
  else if i = 62 then '-' else '_'

/-- The six bits of a digit. -/
def value (c : Char) : Option ℕ :=
  if 65 ≤ c.toNat ∧ c.toNat ≤ 90 then some (c.toNat - 65)
  else if 97 ≤ c.toNat ∧ c.toNat ≤ 122 then some (c.toNat - 97 + 26)
  else if 48 ≤ c.toNat ∧ c.toNat ≤ 57 then some (c.toNat - 48 + 52)
  else if c = '-' then some 62
  else if c = '_' then some 63
  else none

theorem value_digit : ∀ i < 64, value (digit i) = some i := by decide

/-- A letter or a digit of ASCII, `-` or `_`. -/
def IsDigit (c : Char) : Prop := c.isAlphanum = true ∨ c = '-' ∨ c = '_'

instance (c : Char) : Decidable (IsDigit c) := inferInstanceAs (Decidable (_ ∨ _ ∨ _))

theorem isDigit_digit : ∀ i < 64, IsDigit (digit i) := by decide

theorem char_ofNat {c : Char} {n : ℕ} (h : n = c.toNat) : Char.ofNat n = c := by
  rw [h, Char.ofNat_toNat]

/-- The digit with the value is the character. -/
theorem digit_value {c : Char} {d : ℕ} (h : value c = some d) : d < 64 ∧ digit d = c := by
  unfold value at h
  split at h
  · obtain rfl := Option.some.inj h
    refine ⟨by omega, ?_⟩
    rw [digit, if_pos (by omega)]
    exact char_ofNat (by omega)
  · split at h
    · obtain rfl := Option.some.inj h
      refine ⟨by omega, ?_⟩
      rw [digit, if_neg (by omega), if_pos (by omega)]
      exact char_ofNat (by omega)
    · split at h
      · obtain rfl := Option.some.inj h
        refine ⟨by omega, ?_⟩
        rw [digit, if_neg (by omega), if_neg (by omega), if_pos (by omega)]
        exact char_ofNat (by omega)
      · split at h
        next hc =>
          obtain rfl := Option.some.inj h
          exact ⟨by omega, by rw [hc]; rfl⟩
        next =>
          split at h
          next hc =>
            obtain rfl := Option.some.inj h
            exact ⟨by omega, by rw [hc]; rfl⟩
          next => cases h

/-- Every character of the alphabet has a value. -/
theorem value_of_isDigit {c : Char} (h : IsDigit c) : ∃ d, value c = some d := by
  rcases h with halpha | rfl | rfl
  · have hrange : (65 ≤ c.toNat ∧ c.toNat ≤ 90) ∨ (97 ≤ c.toNat ∧ c.toNat ≤ 122) ∨
        (48 ≤ c.toNat ∧ c.toNat ≤ 57) := by
      have hunfold : c.isAlphanum = (decide (65 ≤ c.val ∧ c.val ≤ 90) ||
          decide (97 ≤ c.val) && decide (c.val ≤ 122) || decide (48 ≤ c.val) && decide (c.val ≤ 57)) := rfl
      simp only [hunfold, Bool.or_eq_true, Bool.and_eq_true, decide_eq_true_eq, UInt32.le_iff_toNat_le] at halpha
      rcases halpha with (hupper | hlower) | hdigit
      · exact Or.inl hupper
      · exact Or.inr (Or.inl hlower)
      · exact Or.inr (Or.inr hdigit)
    rcases hrange with hupper | hlower | hdigit
    · exact ⟨_, if_pos hupper⟩
    · refine ⟨c.toNat - 97 + 26, ?_⟩
      rw [value, if_neg (by omega), if_pos hlower]
    · refine ⟨c.toNat - 48 + 52, ?_⟩
      rw [value, if_neg (by omega), if_neg (by omega), if_pos hdigit]
  · exact ⟨62, by decide⟩
  · exact ⟨63, by decide⟩

def encode : List UInt8 → List Char
  | a :: b :: c :: rest =>
    let n := a.toNat * 65536 + b.toNat * 256 + c.toNat
    digit (n / 262144) :: digit (n / 4096 % 64) :: digit (n / 64 % 64) :: digit (n % 64)
      :: encode rest
  | [a, b] =>
    let n := a.toNat * 256 + b.toNat
    [digit (n / 1024), digit (n / 16 % 64), digit (n % 16 * 4)]
  | [a] => [digit (a.toNat / 4), digit (a.toNat % 4 * 16)]
  | [] => []

def decode : List Char → Option (List UInt8)
  | c₁ :: c₂ :: c₃ :: c₄ :: rest =>
    match value c₁, value c₂, value c₃, value c₄, decode rest with
    | some d₁, some d₂, some d₃, some d₄, some bs =>
      let n := d₁ * 262144 + d₂ * 4096 + d₃ * 64 + d₄
      some (UInt8.ofNat (n / 65536) :: UInt8.ofNat (n / 256) :: UInt8.ofNat n :: bs)
    | _, _, _, _, _ => none
  | [c₁, c₂, c₃] =>
    match value c₁, value c₂, value c₃ with
    | some d₁, some d₂, some d₃ =>
      let n := d₁ * 1024 + d₂ * 16 + d₃ / 4
      some [UInt8.ofNat (n / 256), UInt8.ofNat n]
    | _, _, _ => none
  | [c₁, c₂] =>
    match value c₁, value c₂ with
    | some d₁, some d₂ => some [UInt8.ofNat (d₁ * 4 + d₂ / 16)]
    | _, _ => none
  | [_] => none
  | [] => some []

/-- A byte is what its number says, whatever the number's high bits are. -/
theorem ofNat_eq (b : UInt8) {n : ℕ} (h : n % 256 = b.toNat) : UInt8.ofNat n = b := by
  apply UInt8.toNat_inj.mp
  rw [UInt8.toNat_ofNat', h]

/-- Decoding what was encoded gives the bytes back. -/
theorem decode_encode : ∀ bs, decode (encode bs) = some bs
  | [] => rfl
  | [a] => by
      have ha := a.toNat_lt
      have h₁ := value_digit (a.toNat / 4) (by omega)
      have h₂ := value_digit (a.toNat % 4 * 16) (by omega)
      simp only [encode, decode, h₁, h₂]
      rw [ofNat_eq a (by omega)]
  | [a, b] => by
      have ha := a.toNat_lt
      have hb := b.toNat_lt
      have h₁ := value_digit ((a.toNat * 256 + b.toNat) / 1024) (by omega)
      have h₂ := value_digit ((a.toNat * 256 + b.toNat) / 16 % 64) (by omega)
      have h₃ := value_digit ((a.toNat * 256 + b.toNat) % 16 * 4) (by omega)
      simp only [encode, decode, h₁, h₂, h₃]
      rw [ofNat_eq a (by omega), ofNat_eq b (by omega)]
  | a :: b :: c :: rest => by
      have ha := a.toNat_lt
      have hb := b.toNat_lt
      have hc := c.toNat_lt
      have hrest := decode_encode rest
      have h₁ := value_digit ((a.toNat * 65536 + b.toNat * 256 + c.toNat) / 262144) (by omega)
      have h₂ := value_digit ((a.toNat * 65536 + b.toNat * 256 + c.toNat) / 4096 % 64) (by omega)
      have h₃ := value_digit ((a.toNat * 65536 + b.toNat * 256 + c.toNat) / 64 % 64) (by omega)
      have h₄ := value_digit ((a.toNat * 65536 + b.toNat * 256 + c.toNat) % 64) (by omega)
      simp only [encode, decode, h₁, h₂, h₃, h₄, hrest]
      rw [ofNat_eq a (by omega), ofNat_eq b (by omega), ofNat_eq c (by omega)]

/-- Whole groups of three bytes are groups of four digits. -/
theorem length_encode : ∀ (k : ℕ) (bs : List UInt8), bs.length = 3 * k → (encode bs).length = 4 * k
  | 0, [], _ => rfl
  | k + 1, a :: b :: c :: rest, h => by
      have hrest := length_encode k rest (by simp only [List.length_cons] at h; omega)
      simp only [encode, List.length_cons, hrest]
      omega
  | 0, _ :: _, h => by simp at h
  | k + 1, [], h => by simp at h
  | k + 1, [_], h => by simp only [List.length_cons, List.length_nil] at h; omega
  | k + 1, [_, _], h => by simp only [List.length_cons, List.length_nil] at h; omega

/-- What is encoded is written in the alphabet. -/
theorem isDigit_encode : ∀ bs, ∀ c ∈ encode bs, IsDigit c
  | [], c, h => by cases h
  | [a], c, h => by
      have ha := a.toNat_lt
      simp only [encode, List.mem_cons, List.not_mem_nil, or_false] at h
      rcases h with rfl | rfl <;> exact isDigit_digit _ (by omega)
  | [a, b], c, h => by
      have ha := a.toNat_lt
      have hb := b.toNat_lt
      simp only [encode, List.mem_cons, List.not_mem_nil, or_false] at h
      rcases h with rfl | rfl | rfl <;> exact isDigit_digit _ (by omega)
  | a₁ :: a₂ :: a₃ :: rest, c, h => by
      have h₁ := a₁.toNat_lt
      have h₂ := a₂.toNat_lt
      have h₃ := a₃.toNat_lt
      simp only [encode, List.mem_cons] at h
      rcases h with rfl | rfl | rfl | rfl | hrest
      · exact isDigit_digit _ (by omega)
      · exact isDigit_digit _ (by omega)
      · exact isDigit_digit _ (by omega)
      · exact isDigit_digit _ (by omega)
      · exact isDigit_encode rest c hrest

/-- A number of 24 bits is put together from its bytes. -/
theorem bytes_sum {n : ℕ} (h : n < 16777216) :
    n / 65536 % 256 * 65536 + n / 256 % 256 * 256 + n % 256 = n := by
  have hhigh : n / 65536 % 256 = n / 65536 := Nat.mod_eq_of_lt (by omega)
  have hnext : n / 65536 = n / 256 / 256 := by rw [Nat.div_div_eq_div_mul]
  rw [hhigh, hnext]
  omega

/-- Whole groups of four digits are groups of three bytes, and encoding them gives the digits back. -/
theorem encode_decode : ∀ (k : ℕ) (cs : List Char), cs.length = 4 * k → (∀ c ∈ cs, IsDigit c) →
    ∃ bs, decode cs = some bs ∧ bs.length = 3 * k ∧ encode bs = cs
  | 0, [], _, _ => ⟨[], rfl, rfl, rfl⟩
  | k + 1, c₁ :: c₂ :: c₃ :: c₄ :: rest, hlength, hdigits => by
      have hrest : rest.length = 4 * k := by simp only [List.length_cons] at hlength; omega
      simp only [List.mem_cons, forall_eq_or_imp] at hdigits
      obtain ⟨hc₁, hc₂, hc₃, hc₄, hcs⟩ := hdigits
      obtain ⟨bs, hdecode, hbytes, hencode⟩ := encode_decode k rest hrest hcs
      obtain ⟨d₁, hv₁⟩ := value_of_isDigit hc₁
      obtain ⟨d₂, hv₂⟩ := value_of_isDigit hc₂
      obtain ⟨d₃, hv₃⟩ := value_of_isDigit hc₃
      obtain ⟨d₄, hv₄⟩ := value_of_isDigit hc₄
      obtain ⟨hlt₁, rfl⟩ := digit_value hv₁
      obtain ⟨hlt₂, rfl⟩ := digit_value hv₂
      obtain ⟨hlt₃, rfl⟩ := digit_value hv₃
      obtain ⟨hlt₄, rfl⟩ := digit_value hv₄
      have hgroup : decode (digit d₁ :: digit d₂ :: digit d₃ :: digit d₄ :: rest)
          = some (UInt8.ofNat ((d₁ * 262144 + d₂ * 4096 + d₃ * 64 + d₄) / 65536)
            :: UInt8.ofNat ((d₁ * 262144 + d₂ * 4096 + d₃ * 64 + d₄) / 256)
            :: UInt8.ofNat (d₁ * 262144 + d₂ * 4096 + d₃ * 64 + d₄) :: bs) := by
        simp only [decode, hv₁, hv₂, hv₃, hv₄, hdecode]
      refine ⟨_, hgroup, by simp only [List.length_cons, hbytes]; omega, ?_⟩
      -- the three bytes put the number of the four digits together again
      generalize hn : d₁ * 262144 + d₂ * 4096 + d₃ * 64 + d₄ = n
      have hsum := bytes_sum (n := n) (by omega)
      simp only [encode, UInt8.toNat_ofNat', Nat.reducePow, hsum, hencode]
      have h₁ : n / 262144 = d₁ := by omega
      have h₂ : n / 4096 % 64 = d₂ := by omega
      have h₃ : n / 64 % 64 = d₃ := by omega
      have h₄ : n % 64 = d₄ := by omega
      rw [h₁, h₂, h₃, h₄]
  | 0, _ :: _, h, _ => by simp at h
  | k + 1, [], h, _ => by simp at h
  | k + 1, [_], h, _ => by simp only [List.length_cons, List.length_nil] at h; omega
  | k + 1, [_, _], h, _ => by simp only [List.length_cons, List.length_nil] at h; omega
  | k + 1, [_, _, _], h, _ => by simp only [List.length_cons, List.length_nil] at h; omega

end Octets
