import BinanceFutures.Schemes.Ledger

/-! # Books

    A ledger forgets an entry when it is settled; the books do not. They hold what has been entered and
    what has been concluded, and say of every entry that matters where it is:

        entered ──▶ outstanding ── settle ──▶ concluded
                                        └───▶ lost

    An entry that is settled and not concluded is lost for ever: its number never comes back. -/

namespace Ledger

variable {α : Type*} {matters : α → Bool} {entered done more : List (ℕ × α)} {l : Ledger α} {n : ℕ} {a : α}

/-- Of the entries that matter none is lost. -/
def Kept (matters : α → Bool) (entered done : List (ℕ × α)) (l : Ledger α) : Prop :=
  ∀ e ∈ entered, matters e.2 = true → e ∈ l.entries ∨ e ∈ done

structure Books (matters : α → Bool) (entered done : List (ℕ × α)) (l : Ledger α) : Prop where
  kept : Kept matters entered done l
  entered_of_mem : ∀ e ∈ l.entries, e ∈ entered
  done_lt : ∀ e ∈ done, e.1 < l.next
  settled : ∀ e ∈ done, ∀ b, (e.1, b) ∉ l.entries

theorem books_empty : Books matters [] [] (empty : Ledger α) where
  kept := by simp [Kept]
  entered_of_mem e he := he
  done_lt := by simp
  settled := by simp

theorem Books.enter (h : Books matters entered done l) (a : α) :
    Books matters (entered ++ [(l.next, a)]) done (l.enter a) where
  kept e he hmatters := by
    rcases List.mem_append.mp he with hold | hnew
    · rcases h.kept e hold hmatters with hout | hdone
      · exact Or.inl (List.mem_append_left _ hout)
      · exact Or.inr hdone
    · exact Or.inl (List.mem_append_right _ hnew)
  entered_of_mem e he := by
    rcases List.mem_append.mp he with hold | hnew
    · exact List.mem_append_left _ (h.entered_of_mem e hold)
    · exact List.mem_append_right _ hnew
  done_lt e he := Nat.lt_succ_of_lt (h.done_lt e he)
  settled e he b hb := by
    rcases List.mem_append.mp hb with hold | hnew
    · exact h.settled e he b hold
    · -- the number is new
      have hlt := h.done_lt e he
      have hnext : e.1 = l.next := congrArg Prod.fst (List.mem_singleton.mp hnew)
      omega

/-- An entry is settled; if it matters, it is concluded with that. -/
theorem Books.settle (h : Books matters entered done l) (hmem : (n, a) ∈ l.entries)
    (hmore : ∀ e ∈ more, e = (n, a)) (hdone : matters a = true → (n, a) ∈ more) :
    Books matters entered (done ++ more) (l.settle n) where
  kept e he hmatters := by
    rcases h.kept e he hmatters with hout | hold
    · by_cases hn : e.1 = n
      · obtain ⟨m, b⟩ := e
        obtain rfl : m = n := hn
        obtain rfl := entry_unique hout hmem
        exact Or.inr (List.mem_append_right _ (hdone hmatters))
      · exact Or.inl (mem_settle.mpr ⟨hout, hn⟩)
    · exact Or.inr (List.mem_append_left _ hold)
  entered_of_mem e he := h.entered_of_mem e (mem_settle.mp he).1
  done_lt e he := by
    rcases List.mem_append.mp he with hold | hnew
    · exact h.done_lt e hold
    · rw [hmore e hnew]
      exact l.lt_next _ hmem
  settled e he b hb := by
    obtain ⟨hb, hne⟩ := mem_settle.mp hb
    rcases List.mem_append.mp he with hold | hnew
    · exact h.settled e hold b hb
    · exact hne (by rw [hmore e hnew])

/-- An entry that matters is settled, and is not concluded. -/
theorem Books.lost (h : Books matters entered done l) (hmem : (n, a) ∈ l.entries)
    (hmatters : matters a = true) : ¬ Kept matters entered done (l.settle n) := by
  intro hkept
  rcases hkept (n, a) (h.entered_of_mem _ hmem) hmatters with hout | hdone
  · exact (mem_settle.mp hout).2 rfl
  · exact h.settled _ hdone a hmem

end Ledger
