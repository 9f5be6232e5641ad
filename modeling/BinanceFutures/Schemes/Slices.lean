import Mathlib.Data.List.Nodup
import Mathlib.Order.Monotone.Basic

/-! # Slices

    A list that only grows is cut into consecutive slices; slice `i` holds the positions from `bound i`
    up to `bound (i + 1)`. Where a slice begins does not depend on the list, so a member stays in its
    slice when the list grows, and what a slice gains is what it holds from the old length on.

        bound 0        bound 1        bound 2
          │ x₀ … x₉      │ x₁₀ … x₁₉    │ x₂₀ x₂₁
          └── slice 0 ── └── slice 1 ── └── slice 2 -/

structure Slices where
  bound : ℕ → ℕ
  /-- How many slices a list of this length has. -/
  count : ℕ → ℕ
  bound_zero : bound 0 = 0
  strictMono : StrictMono bound
  lt_count : ∀ {i n}, i < count n ↔ bound i < n

namespace Slices

variable {α : Type*} (d : Slices) {i j startFrom : ℕ} {l : List α} {x : α}

/-- Slices of `k` members each. -/
def evenly (k : ℕ) (hk : 0 < k) : Slices where
  bound i := i * k
  count n := (n + k - 1) / k
  bound_zero := Nat.zero_mul k
  strictMono := fun _ _ h => Nat.mul_lt_mul_of_pos_right h hk
  lt_count := by
    intro i n
    rw [← Nat.succ_le_iff, Nat.le_div_iff_mul_le hk, Nat.succ_mul]
    omega

/-- The members of slice `i`, from position `startFrom` on. -/
def slice (i startFrom : ℕ) (l : List α) : List α :=
  (l.take (d.bound (i + 1))).drop (max (d.bound i) startFrom)

theorem mem_slice : x ∈ d.slice i startFrom l ↔
    ∃ p, d.bound i ≤ p ∧ startFrom ≤ p ∧ p < d.bound (i + 1) ∧ l[p]? = some x := by
  rw [slice, List.mem_iff_getElem?]
  constructor
  · rintro ⟨q, hq⟩
    rw [List.getElem?_drop, List.getElem?_take] at hq
    split at hq
    · exact ⟨_, by omega, by omega, by assumption, hq⟩
    · cases hq
  · rintro ⟨p, hbound, hfrom, hlt, hp⟩
    refine ⟨p - max (d.bound i) startFrom, ?_⟩
    have hback : max (d.bound i) startFrom + (p - max (d.bound i) startFrom) = p := by omega
    rw [List.getElem?_drop, List.getElem?_take, hback, if_pos hlt, hp]

theorem mem_of_mem_slice (h : x ∈ d.slice i startFrom l) : x ∈ l :=
  List.mem_of_mem_take (List.mem_of_mem_drop h)

theorem nodup_slice (h : l.Nodup) : (d.slice i startFrom l).Nodup :=
  h.sublist ((List.drop_sublist _ _).trans (List.take_sublist _ _))

/-- What a slice gains when the list grows. -/
theorem slice_append (i : ℕ) (l new : List α) :
    d.slice i 0 (l ++ new) = d.slice i 0 l ++ d.slice i l.length (l ++ new) := by
  have hbound : d.bound i ≤ d.bound (i + 1) := (d.strictMono (Nat.lt_succ_self i)).le
  simp only [slice, List.take_append, List.drop_append, List.length_take, Nat.max_zero]
  have hold : (l.take (d.bound (i + 1))).drop (max (d.bound i) l.length) = [] := by
    apply List.drop_eq_nil_of_le
    rw [List.length_take]
    omega
  rw [hold, List.nil_append]
  by_cases hfull : d.bound (i + 1) ≤ l.length
  · -- the slice was full before: it gains nothing
    rw [Nat.sub_eq_zero_of_le hfull]
    simp
  · congr 2
    omega

/-- A list that has not grown has gained nothing. -/
theorem slice_length (i : ℕ) (l : List α) : d.slice i l.length l = [] := by
  apply List.drop_eq_nil_of_le
  rw [List.length_take]
  omega

/-- Every member is in a slice. -/
theorem exists_slice (h : x ∈ l) : ∃ i, i < d.count l.length ∧ x ∈ d.slice i 0 l := by
  obtain ⟨p, hp⟩ := List.mem_iff_getElem?.mp h
  have hlength : p < l.length := (List.getElem?_eq_some_iff.mp hp).1
  -- the last slice that begins at `p` or before
  have hfirst : 0 < d.count (p + 1) := d.lt_count.mpr (by rw [d.bound_zero]; omega)
  have hbegin : d.bound (d.count (p + 1) - 1) < p + 1 := d.lt_count.mp (by omega)
  have hend : ¬ d.bound (d.count (p + 1)) < p + 1 := fun hlt => lt_irrefl _ (d.lt_count.mpr hlt)
  refine ⟨d.count (p + 1) - 1, d.lt_count.mpr (by omega), d.mem_slice.mpr ⟨p, ?_⟩⟩
  rw [Nat.sub_add_cancel hfirst]
  exact ⟨by omega, Nat.zero_le p, by omega, hp⟩

/-- No member is in two slices. -/
theorem slice_unique (hnodup : l.Nodup) (hi : x ∈ d.slice i 0 l) (hj : x ∈ d.slice j 0 l) :
    i = j := by
  obtain ⟨p, hip, -, hpi, hp⟩ := d.mem_slice.mp hi
  obtain ⟨q, hjq, -, hqj, hq⟩ := d.mem_slice.mp hj
  have hlength : p < l.length := (List.getElem?_eq_some_iff.mp hp).1
  obtain rfl : p = q := (List.getElem?_inj hlength hnodup).mp (hp.trans hq.symm)
  have hij : i < j + 1 := d.strictMono.lt_iff_lt.mp (by omega)
  have hji : j < i + 1 := d.strictMono.lt_iff_lt.mp (by omega)
  omega

/-- A slice that the list has holds something. -/
theorem slice_ne_nil (h : i < d.count l.length) : d.slice i 0 l ≠ [] := by
  have hbound : d.bound i < l.length := d.lt_count.mp h
  have hnext : d.bound i < d.bound (i + 1) := d.strictMono (Nat.lt_succ_self i)
  have hmem : l[d.bound i] ∈ d.slice i 0 l := d.mem_slice.mpr
    ⟨d.bound i, le_refl _, Nat.zero_le _, hnext, List.getElem?_eq_getElem hbound⟩
  exact List.ne_nil_of_mem hmem

theorem count_mono {m n : ℕ} (h : m ≤ n) : d.count m ≤ d.count n := by
  by_contra hlt
  rw [not_le, d.lt_count] at hlt
  have hself : d.count n < d.count n := d.lt_count.mpr (by omega)
  exact lt_irrefl _ hself

end Slices
