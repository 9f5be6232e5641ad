import Mathlib.Data.List.Nodup

/-! # Ledgers of outstanding requests

    A ledger hands out fresh numbers to what it enters, and keeps every entry until it is settled. No
    number is ever handed out twice; both facts are fields, so a ledger that breaks them cannot be
    built.

        enter a ──▶ (n, a) outstanding ── settle n ──▶ gone -/

@[ext] structure Ledger (α : Type*) where
  next : ℕ
  entries : List (ℕ × α)
  lt_next : ∀ e ∈ entries, e.1 < next
  nodup : (entries.map Prod.fst).Nodup

namespace Ledger

variable {α β : Type*}

def empty : Ledger α := ⟨0, [], by simp, by simp⟩

/-- A new entry, under the number `next`. -/
def enter (l : Ledger α) (a : α) : Ledger α where
  next := l.next + 1
  entries := l.entries ++ [(l.next, a)]
  lt_next e he := by
    rcases List.mem_append.mp he with hold | hnew
    · exact Nat.lt_succ_of_lt (l.lt_next e hold)
    · rw [List.mem_singleton.mp hnew]; exact Nat.lt_succ_self _
  nodup := by
    have hfresh : l.next ∉ l.entries.map Prod.fst := by
      intro hmem
      obtain ⟨e, he, hnext⟩ := List.mem_map.mp hmem
      exact absurd (l.lt_next e he) (by omega)
    rw [List.map_append]
    exact l.nodup.append (List.nodup_singleton _) (by simpa using hfresh)

/-- The entry is done with. -/
def settle (l : Ledger α) (n : ℕ) : Ledger α where
  next := l.next
  entries := l.entries.filter fun e => e.1 ≠ n
  lt_next e he := l.lt_next e (List.mem_of_mem_filter he)
  nodup := l.nodup.sublist (List.filter_sublist.map _)

/-- New entries, first to last. -/
def enterAll (l : Ledger α) (as : List α) : Ledger α := as.foldl enter l

/-- All entries are done with. -/
def clear (l : Ledger α) : Ledger α := ⟨l.next, [], by simp, by simp⟩

/-- The entries under another view. -/
def map (f : α → β) (l : Ledger α) : Ledger β where
  next := l.next
  entries := l.entries.map fun e => (e.1, f e.2)
  lt_next e he := by
    obtain ⟨e', he', rfl⟩ := List.mem_map.mp he
    exact l.lt_next e' he'
  nodup := by
    rw [List.map_map]
    exact l.nodup

/-- The entry under a number. -/
def find (l : Ledger α) (n : ℕ) : Option α := (l.entries.find? fun e => e.1 = n).map Prod.snd

/-- The outstanding entries that the predicate picks. -/
def count (p : α → Bool) (l : Ledger α) : ℕ := l.entries.countP fun e => p e.2

@[simp] theorem next_enter (l : Ledger α) (a : α) : (l.enter a).next = l.next + 1 := rfl

@[simp] theorem entries_enter (l : Ledger α) (a : α) :
    (l.enter a).entries = l.entries ++ [(l.next, a)] := rfl

@[simp] theorem next_settle (l : Ledger α) (n : ℕ) : (l.settle n).next = l.next := rfl

theorem mem_settle {l : Ledger α} {n : ℕ} {e : ℕ × α} :
    e ∈ (l.settle n).entries ↔ e ∈ l.entries ∧ e.1 ≠ n := by
  simp [settle]

theorem map_enter (f : α → β) (l : Ledger α) (a : α) : (l.enter a).map f = (l.map f).enter (f a) := by
  apply Ledger.ext
  · rfl
  · simp [map, enter]

theorem map_settle (f : α → β) (l : Ledger α) (n : ℕ) : (l.settle n).map f = (l.map f).settle n := by
  apply Ledger.ext
  · rfl
  · simp only [map, settle, List.filter_map]
    rfl

theorem map_clear (f : α → β) (l : Ledger α) : l.clear.map f = (l.map f).clear := rfl

theorem find_map (f : α → β) (l : Ledger α) (n : ℕ) : (l.map f).find n = (l.find n).map f := by
  simp only [find, map, List.find?_map, Option.map_map]
  rfl

theorem mem_of_find {l : Ledger α} {n : ℕ} {a : α} (h : l.find n = some a) : (n, a) ∈ l.entries := by
  obtain ⟨⟨n', a'⟩, hfind, rfl⟩ := Option.map_eq_some_iff.mp h
  obtain rfl : n' = n := by simpa using List.find?_some hfind
  exact List.mem_of_find?_eq_some hfind

theorem count_enter (p : α → Bool) (l : Ledger α) (a : α) :
    (l.enter a).count p = l.count p + if p a then 1 else 0 := by
  simp [count, List.countP_singleton]

theorem enterAll_append (l : Ledger α) (as bs : List α) :
    l.enterAll (as ++ bs) = (l.enterAll as).enterAll bs := List.foldl_append

/-- Nothing gets lost on the way. -/
theorem mem_enterAll_of_mem {l : Ledger α} {e : ℕ × α} (h : e ∈ l.entries) (as : List α) :
    e ∈ (l.enterAll as).entries := by
  induction as generalizing l with
  | nil => exact h
  | cons a as ih => exact ih (List.mem_append_left _ h)

/-- The first entry is under the next number. -/
theorem mem_enterAll_head (l : Ledger α) (a : α) (as : List α) :
    (l.next, a) ∈ (l.enterAll (a :: as)).entries :=
  mem_enterAll_of_mem (l := l.enter a) (List.mem_append_right _ (List.mem_singleton_self _)) as

theorem next_enterAll (l : Ledger α) (as : List α) : (l.enterAll as).next = l.next + as.length := by
  induction as generalizing l with
  | nil => rfl
  | cons a as ih =>
    have htail : ((l.enter a).enterAll as).next = l.next + 1 + as.length := ih (l.enter a)
    rw [List.length_cons]
    exact htail.trans (by omega)

theorem next_le_enterAll (l : Ledger α) (as : List α) : l.next ≤ (l.enterAll as).next := by
  rw [next_enterAll]
  exact Nat.le_add_right _ _

/-- What has been entered stands under a new number. -/
theorem mem_enterAll {l : Ledger α} {as : List α} {n : ℕ} {b : α}
    (h : (n, b) ∈ (l.enterAll as).entries) : (n, b) ∈ l.entries ∨ l.next ≤ n ∧ b ∈ as := by
  induction as generalizing l with
  | nil => exact Or.inl h
  | cons a as ih =>
    rcases ih h with hold | ⟨hle, hmem⟩
    · rcases List.mem_append.mp hold with hold | hnew
      · exact Or.inl hold
      · obtain ⟨rfl, rfl⟩ := Prod.mk.inj (List.mem_singleton.mp hnew)
        exact Or.inr ⟨Nat.le_refl _, List.mem_cons_self ..⟩
    · exact Or.inr ⟨Nat.le_trans (Nat.le_succ _) hle, List.mem_cons_of_mem _ hmem⟩

theorem count_enterAll (p : α → Bool) (l : Ledger α) (as : List α) :
    (l.enterAll as).count p = l.count p + as.countP p := by
  induction as generalizing l with
  | nil => rfl
  | cons a as ih =>
    rw [List.countP_cons]
    have htail := ih (l.enter a)
    rw [count_enter] at htail
    exact htail.trans (by omega)

/-- A number stands for one entry. -/
theorem entry_unique {l : Ledger α} {n : ℕ} {a b : α} (ha : (n, a) ∈ l.entries)
    (hb : (n, b) ∈ l.entries) : a = b := by
  have h := List.inj_on_of_nodup_map l.nodup ha hb rfl
  exact (Prod.mk.injEq _ _ _ _ ▸ h).2

/-- An entry is found under its number. -/
theorem find_of_mem {l : Ledger α} {n : ℕ} {a : α} (h : (n, a) ∈ l.entries) : l.find n = some a := by
  have hsome : (l.entries.find? fun e => e.1 = n).isSome = true :=
    List.find?_isSome.mpr ⟨(n, a), h, decide_eq_true rfl⟩
  obtain ⟨⟨n', a'⟩, hfind⟩ := Option.isSome_iff_exists.mp hsome
  obtain rfl : n' = n := by simpa using List.find?_some hfind
  rw [find, hfind, Option.map_some, entry_unique (List.mem_of_find?_eq_some hfind) h]

theorem countP_filter_ne (p : α → Bool) {n : ℕ} {a : α} : ∀ {es : List (ℕ × α)},
    (es.map Prod.fst).Nodup → (n, a) ∈ es →
      es.countP (fun e => p e.2)
        = (es.filter fun e => e.1 ≠ n).countP (fun e => p e.2) + if p a then 1 else 0
  | [], _, h => by simp at h
  | e :: es, hnodup, h => by
      rw [List.map_cons, List.nodup_cons] at hnodup
      rcases List.mem_cons.mp h with rfl | hes
      · -- the entry stands first: nothing behind it has its number
        have hrest : es.filter (fun e => e.1 ≠ n) = es := by
          refine List.filter_eq_self.mpr fun e he => ?_
          have hne : e.1 ≠ n := fun hn => hnodup.1 (List.mem_map.mpr ⟨e, he, hn⟩)
          simpa using hne
        rw [List.filter_cons_of_neg (by simp), hrest, List.countP_cons]
      · have hne : e.1 ≠ n := by
          rintro rfl
          exact hnodup.1 (List.mem_map.mpr ⟨_, hes, rfl⟩)
        rw [List.filter_cons_of_pos (by simpa using hne), List.countP_cons, List.countP_cons,
          countP_filter_ne p hnodup.2 hes]
        omega

/-- Settling an entry takes it, and nothing else, out of every count. -/
theorem count_settle (p : α → Bool) {l : Ledger α} {n : ℕ} {a : α} (h : (n, a) ∈ l.entries) :
    l.count p = (l.settle n).count p + if p a then 1 else 0 :=
  countP_filter_ne p l.nodup h

theorem count_pos {p : α → Bool} {l : Ledger α} :
    0 < l.count p ↔ ∃ n a, (n, a) ∈ l.entries ∧ p a = true := by
  simp [count, List.countP_pos_iff]

end Ledger
