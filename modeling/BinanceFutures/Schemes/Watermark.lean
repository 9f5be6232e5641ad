import Mathlib.Data.List.Count
import Mathlib.Data.List.Induction
import Mathlib.Data.List.Sort
import Mathlib.Order.Lattice

/-! # Watermarks

    A watermark is the highest number that has come through a gate. The gate takes a number that is
    valid and not below the watermark; the number is the watermark from then on.

        watermark 3 ─ 5 passes ─▶ 5 ─ 4 stays out ─▶ 5 ─ 5 passes ─▶ 5 ─ 7 passes ─▶ 7

    Numbers that arrive in copies should pass once. They do exactly if no copy arrives while its number
    is still the watermark: the gate does not tell the watermark from something newer. -/

namespace Watermark

/-- What is seen at the gate. -/
inductive Moment (α : Type*) where
  | arrives (a : α)
  | passes (a : α)
  deriving DecidableEq

/-- What has arrived. -/
def arrived {α : Type*} (h : List (Moment α)) : List α :=
  h.filterMap fun
    | .arrives a => some a
    | .passes _ => none

/-- What has passed. -/
def passed {α : Type*} (h : List (Moment α)) : List α :=
  h.filterMap fun
    | .arrives _ => none
    | .passes a => some a

@[simp] theorem arrived_append {α : Type*} (h h' : List (Moment α)) :
    arrived (h ++ h') = arrived h ++ arrived h' := List.filterMap_append

@[simp] theorem passed_append {α : Type*} (h h' : List (Moment α)) :
    passed (h ++ h') = passed h ++ passed h' := List.filterMap_append

variable {α : Type*} [LinearOrder α] (valid : α → Bool)

/-- The gate takes the number. -/
def Takes (level a : α) : Prop := valid a = true ∧ level ≤ a

instance (level a : α) : Decidable (Takes valid level a) := inferInstanceAs (Decidable (_ ∧ _))

/-- The watermark after an arrival. -/
def raise (level a : α) : α := if Takes valid level a then a else level

/-- The watermark after the arrivals. -/
def mark (level : α) (as : List α) : α := as.foldl (raise valid) level

/-- What is seen of an arrival. -/
def moments (level a : α) : List (Moment α) :=
  if Takes valid level a then [.arrives a, .passes a] else [.arrives a]

/-- What is seen of the arrivals. -/
def history : α → List α → List (Moment α)
  | _, [] => []
  | level, a :: as => moments valid level a ++ history (raise valid level a) as

/-- Numbers pass in order, and what arrives before a newer number has passed passes once. -/
structure Once (h : List (Moment α)) : Prop where
  increasing : (passed h).Pairwise (· < ·)
  once : ∀ pre a post, h = pre ++ .arrives a :: post → (∀ b ∈ passed pre, b ≤ a) →
    (passed h).count a = 1

/-- A copy arrives only after something newer. -/
def Fresh (as : List α) : Prop :=
  ∀ pre a post, as = pre ++ a :: post → a ∈ pre → ∃ b ∈ pre, a < b

variable {valid} {level : α} {as bs : List α}

/-! ### One more arrival -/

@[simp] theorem arrived_moments (level a : α) : arrived (moments valid level a) = [a] := by
  unfold moments
  split <;> simp [arrived]

theorem passed_moments (level a : α) :
    passed (moments valid level a) = if Takes valid level a then [a] else [] := by
  unfold moments
  split <;> simp [passed]

theorem history_append : ∀ (as : List α) (level : α),
    history valid level (as ++ bs) = history valid level as ++ history valid (mark valid level as) bs
  | [], _ => rfl
  | a :: as, level => by
    rw [List.cons_append, history, history, history_append as, List.append_assoc]
    rfl

theorem history_concat (level : α) (as : List α) (a : α) :
    history valid level (as ++ [a])
      = history valid level as ++ moments valid (mark valid level as) a := by
  rw [history_append, history, history, List.append_nil]

theorem mark_concat (level : α) (as : List α) (a : α) :
    mark valid level (as ++ [a]) = raise valid (mark valid level as) a := by
  rw [mark, List.foldl_append]
  rfl

/-- Before an arrival the gate has seen the arrivals before it. -/
theorem history_split : ∀ {as : List α} {level : α} {pre post : List (Moment α)} {a : α},
    history valid level as = pre ++ .arrives a :: post →
      ∃ before after, as = before ++ a :: after ∧ pre = history valid level before
  | [], _, _, _, _, h => by simp [history] at h
  | b :: as, level, [], post, a, h => by
    have hab : b = a := by
      unfold history moments at h
      split at h <;> simpa using (List.cons.inj h).1
    exact ⟨[], as, by rw [hab]; rfl, rfl⟩
  | b :: as, level, m :: pre, post, a, h => by
    have hrest : ∃ rest, pre = (moments valid level b).tail ++ rest ∧
        history valid (raise valid level b) as = rest ++ .arrives a :: post ∧ m = .arrives b := by
      unfold history moments at h
      unfold moments
      split at h
      next htakes =>
        rw [if_pos htakes]
        rcases pre with _ | ⟨m', pre⟩
        · simp at h
        · simp only [List.cons_append, List.nil_append, List.cons.injEq] at h
          obtain ⟨rfl, rfl, hrest⟩ := h
          exact ⟨pre, rfl, hrest, rfl⟩
      next htakes =>
        rw [if_neg htakes]
        simp only [List.cons_append, List.nil_append, List.cons.injEq] at h
        exact ⟨pre, rfl, h.2, h.1.symm⟩
    obtain ⟨rest, rfl, hhistory, rfl⟩ := hrest
    obtain ⟨before, after, rfl, rfl⟩ := history_split hhistory
    refine ⟨b :: before, after, rfl, ?_⟩
    rw [history]
    unfold moments
    split <;> rfl

/-! ### The watermark -/

theorem mark_le_raise (level a : α) : level ≤ raise valid level a := by
  unfold raise
  split
  next htakes => exact htakes.2
  next => exact le_rfl

/-- The watermark is above everything valid. -/
theorem le_mark_of_mem (level : α) {a : α} (hvalid : valid a = true) (h : a ∈ as) :
    a ≤ mark valid level as := by
  induction as using List.reverseRecOn with
  | nil => cases h
  | append_singleton as b ih =>
    rw [mark_concat]
    rcases List.mem_append.mp h with hold | hnew
    · exact (ih hold).trans (mark_le_raise _ _)
    · obtain rfl := List.mem_singleton.mp hnew
      unfold raise
      split
      next => exact le_rfl
      next htakes =>
        by_contra hlt
        exact htakes ⟨hvalid, (not_le.mp hlt).le⟩

/-- What has passed is not above the watermark, -/
theorem passed_le_mark : ∀ a ∈ passed (history valid level as), a ≤ mark valid level as := by
  induction as using List.reverseRecOn with
  | nil => simp [history, passed]
  | append_singleton as b ih =>
    intro a ha
    rw [history_concat, passed_append, passed_moments] at ha
    rw [mark_concat]
    unfold raise
    split
    next htakes =>
      rw [if_pos htakes] at ha
      rcases List.mem_append.mp ha with hold | hnew
      · exact (ih a hold).trans htakes.2
      · exact (List.mem_singleton.mp hnew).le
    next htakes =>
      rw [if_neg htakes, List.append_nil] at ha
      exact ih a ha

/-- and the watermark has passed, unless nothing has. -/
theorem mark_mem (valid : α → Bool) (level : α) (as : List α) : mark valid level as = level ∨
    mark valid level as ∈ passed (history valid level as) := by
  induction as using List.reverseRecOn with
  | nil => exact Or.inl rfl
  | append_singleton as a ih =>
    rw [mark_concat, history_concat, passed_append, passed_moments]
    unfold raise
    split
    next => exact Or.inr (by simp)
    next => simpa using ih

theorem passed_subset : ∀ a ∈ passed (history valid level as), a ∈ as ∧ valid a = true := by
  induction as using List.reverseRecOn with
  | nil => simp [history, passed]
  | append_singleton as b ih =>
    intro a ha
    rw [history_concat, passed_append, passed_moments] at ha
    rcases List.mem_append.mp ha with hold | hnew
    · obtain ⟨hmem, hvalid⟩ := ih a hold
      exact ⟨List.mem_append_left _ hmem, hvalid⟩
    · split at hnew
      next htakes =>
        obtain rfl := List.mem_singleton.mp hnew
        exact ⟨by simp, htakes.1⟩
      next => cases hnew

/-- What finds nothing newer passes. -/
theorem mem_passed {pre post : List α} {a : α} (has : as = pre ++ a :: post)
    (hvalid : valid a = true) (hlevel : level ≤ a)
    (hnewer : ∀ b ∈ passed (history valid level pre), b ≤ a) :
    passed (history valid level as) = passed (history valid level pre) ++ a ::
      passed (history valid a post) := by
  have hmark : mark valid level pre ≤ a := by
    rcases mark_mem valid level pre with hm | hm
    · rw [hm]
      exact hlevel
    · exact hnewer _ hm
  have htakes : Takes valid (mark valid level pre) a := ⟨hvalid, hmark⟩
  rw [has, history_append, history, passed_append, passed_append, passed_moments, if_pos htakes,
    raise, if_pos htakes]
  rfl

/-! ### Copies -/

theorem Fresh.of_append (h : Fresh (as ++ bs)) : Fresh as := by
  intro pre a post has hmem
  exact h pre a (post ++ bs) (by rw [has, List.append_assoc, List.cons_append]) hmem

/-- Copies that arrive after something newer stay out. -/
theorem increasing_of_fresh (level : α) (hvalid : ∀ a ∈ as, valid a = true) (h : Fresh as) :
    (passed (history valid level as)).Pairwise (· < ·) := by
  induction as using List.reverseRecOn with
  | nil => simp [history, passed]
  | append_singleton as a ih =>
    have hrest := ih (fun b hb => hvalid b (List.mem_append_left _ hb)) h.of_append
    rw [history_concat, passed_append, passed_moments]
    split
    next htakes =>
      refine List.pairwise_append.mpr ⟨hrest, by simp, fun b hb c hc => ?_⟩
      obtain rfl := List.mem_singleton.mp hc
      have hle := (passed_le_mark b hb).trans htakes.2
      refine lt_of_le_of_ne hle ?_
      rintro rfl
      -- the copy comes after something newer, which has raised the watermark above it
      obtain ⟨d, hd, hlt⟩ := h as b [] rfl (passed_subset b hb).1
      have hmark := le_mark_of_mem level (hvalid d (List.mem_append_left _ hd)) hd
      exact absurd (hmark.trans htakes.2) (not_le.mpr hlt)
    next => simpa using hrest

/-- A copy that arrives while its number is the watermark passes again. -/
theorem fresh_of_increasing (hvalid : ∀ a ∈ as, valid a = true) (hlevel : ∀ a ∈ as, level ≤ a)
    (h : (passed (history valid level as)).Pairwise (· < ·)) : Fresh as := by
  intro pre a post has hmem
  by_contra hnewer
  push Not at hnewer
  have ha : a ∈ as := by simp [has]
  have hbelow : ∀ {before : List α}, (∀ b ∈ before, b ∈ pre) →
      ∀ b ∈ passed (history valid level before), b ≤ a :=
    fun hbefore b hb => hnewer b (hbefore b (passed_subset b hb).1)
  have hagain := mem_passed has (hvalid a ha) (hlevel a ha) (hbelow fun _ hb => hb)
  obtain ⟨before, after, hpre⟩ := List.append_of_mem hmem
  have hfirst := mem_passed hpre (hvalid a ha) (hlevel a ha)
    (hbelow fun b hb => by rw [hpre]; exact List.mem_append_left _ hb)
  rw [hagain] at h
  have hlt := (List.pairwise_append.mp h).2.2 a (by simp [hfirst]) a (by simp)
  exact lt_irrefl a hlt

/-- EXACT: the gate takes everything once if and only if everything is valid and no copy arrives before
    something newer. -/
theorem once_iff (hlevel : ∀ a ∈ as, level ≤ a)
    (hrange : ∀ a b, valid a = true → valid b = false → a ≤ b) :
    Once (history valid level as) ↔ (∀ a ∈ as, valid a = true) ∧ Fresh as := by
  constructor
  · intro h
    have hvalid : ∀ a ∈ as, valid a = true := by
      intro a ha
      by_contra hout
      rw [Bool.not_eq_true] at hout
      obtain ⟨pre, post, has⟩ := List.append_of_mem ha
      have hsplit : history valid level as = history valid level pre ++ .arrives a ::
          history valid (mark valid level pre) post := by
        rw [has, history_append, history, moments, raise, if_neg fun ht => by simp [ht.1] at hout,
          if_neg fun ht => by simp [ht.1] at hout]
        rfl
      have hcount := h.once _ a _ hsplit fun b hb => hrange b a (passed_subset b hb).2 hout
      have hmem : a ∈ passed (history valid level as) := List.count_pos_iff.mp (by omega)
      rw [(passed_subset a hmem).2] at hout
      cases hout
    exact ⟨hvalid, fresh_of_increasing hvalid hlevel h.increasing⟩
  · rintro ⟨hvalid, hfresh⟩
    have hincreasing := increasing_of_fresh level hvalid hfresh
    refine ⟨hincreasing, fun pre a post hsplit hnewer => ?_⟩
    obtain ⟨before, after, has, rfl⟩ := history_split hsplit
    have ha : a ∈ as := by simp [has]
    have hpasses := mem_passed has (hvalid a ha) (hlevel a ha) hnewer
    exact List.count_eq_one_of_mem (hincreasing.imp fun hlt => hlt.ne) (by simp [hpasses])

end Watermark
