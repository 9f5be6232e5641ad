import Mathlib.Data.List.Pairwise
import Mathlib.Order.Lattice

/-! # Settling

    A quantity changes until it is settled, and never again. It is read at some moments, and what has
    been read is announced, in whatever order; an announcement may be final.

        quantity       3 ── 5 ── 4 ══ settled ══ 4 ═══════ 4
                            │                    │         │
        announced        5 open               4 final   4 final

    What is final should be the last word. Two things can spoil it: an open announcement that comes late,
    and a final one that was read of what went on to change. Where final announcements have been read of
    what was settled, there is only the first. -/

structure Settling (τ κ α : Type*) [LinearOrder τ] where
  value : τ → κ → α
  settled : τ → κ → Prop
  /-- What is settled stays as it is. -/
  value_eq : ∀ {t t' k}, t ≤ t' → settled t k → value t' k = value t k

namespace Settling

variable {τ κ α : Type*}

/-- What has been read of a quantity, and when; and if it is announced as final. -/
structure Reading (τ κ α : Type*) where
  moment : τ
  key : κ
  value : α
  final : Bool

/-- The second announcement does not contradict the first. -/
def Respects (r r' : Reading τ κ α) : Prop :=
  r.final = true → r'.key = r.key → r'.value = r.value ∧ r'.final = true

/-- The second announcement does not come late. -/
def InOrder (r r' : Reading τ κ α) : Prop := r.final = true → r'.key = r.key → r'.final = true

/-- What is final is the last word; the announcements come in batches. -/
def LastWord (batches : List (List (Reading τ κ α))) : Prop :=
  batches.Pairwise fun rs rs' => ∀ r ∈ rs, ∀ r' ∈ rs', Respects r r'

/-- An announcement that contradicts an earlier one takes the last word from it. -/
theorem not_lastWord {batches : List (List (Reading τ κ α))} {rs rs' : List (Reading τ κ α)}
    (h : [rs, rs'].Sublist batches) {r r' : Reading τ κ α} (hr : r ∈ rs) (hr' : r' ∈ rs')
    (hcontradicts : ¬ Respects r r') : ¬ LastWord batches := by
  intro hlast
  have hpair := List.rel_of_pairwise_cons (hlast.sublist h) (List.mem_singleton_self rs')
  exact hcontradicts (hpair r hr r' hr')

variable [LinearOrder τ] (s : Settling τ κ α)

/-- What has been read is what the quantity was. -/
def Reads (r : Reading τ κ α) : Prop := s.value r.moment r.key = r.value

/-- What is announced as final was settled. -/
def Sound (r : Reading τ κ α) : Prop := r.final = true → s.settled r.moment r.key

/-- The quantity has not changed from the one to the other, where both are announced as final. -/
def Steady (r r' : Reading τ κ α) : Prop :=
  r.final = true → r'.final = true → r'.key = r.key → s.value r'.moment r.key = s.value r.moment r.key

variable {s}

/-- Two readings of a quantity that was settled agree, whichever is the earlier one. -/
theorem value_eq_of_settled {t t' : τ} {k : κ} (h : s.settled t k) (h' : s.settled t' k) :
    s.value t' k = s.value t k := by
  rcases le_total t t' with hle | hle
  · exact s.value_eq hle h
  · exact (s.value_eq hle h').symm

theorem steady_of_sound {r r' : Reading τ κ α} (hs : s.Sound r) (hs' : s.Sound r') : s.Steady r r' := by
  intro hfinal hfinal' hkey
  have hsettled := hs' hfinal'
  rw [hkey] at hsettled
  exact value_eq_of_settled (hs hfinal) hsettled

theorem respects_iff {r r' : Reading τ κ α} (hr : s.Reads r) (hr' : s.Reads r') :
    Respects r r' ↔ InOrder r r' ∧ s.Steady r r' := by
  rw [Reads] at hr hr'
  constructor
  · refine fun h => ⟨fun hfinal hkey => (h hfinal hkey).2, fun hfinal _ hkey => ?_⟩
    rw [hr, ← hkey, hr', (h hfinal hkey).1]
  · rintro ⟨horder, hsteady⟩ hfinal hkey
    have hfinal' : r'.final = true := horder hfinal hkey
    have hvalue := hsteady hfinal hfinal' hkey
    rw [hr, ← hkey, hr'] at hvalue
    exact ⟨hvalue, hfinal'⟩

/-- Readings have the last word if and only if none that is open comes late and, of a quantity that is
    final more than once, it has not changed in between. -/
theorem lastWord_iff {batches : List (List (Reading τ κ α))}
    (hreads : ∀ rs ∈ batches, ∀ r ∈ rs, s.Reads r) :
    LastWord batches ↔
      (batches.Pairwise fun rs rs' => ∀ r ∈ rs, ∀ r' ∈ rs', InOrder r r') ∧
        batches.Pairwise fun rs rs' => ∀ r ∈ rs, ∀ r' ∈ rs', s.Steady r r' := by
  rw [← List.pairwise_and_iff]
  refine List.Pairwise.iff_of_mem fun {rs rs'} hrs hrs' => ?_
  rw [← forall₂_and]
  refine forall₂_congr fun r hr => ?_
  rw [← forall₂_and]
  exact forall₂_congr fun r' hr' => respects_iff (hreads rs hrs r hr) (hreads rs' hrs' r' hr')

end Settling
