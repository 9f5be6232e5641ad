import Mathlib.Data.List.Chain
import Mathlib.Data.List.Infix

/-! # Stages

    A procedure goes through a list of stages, in order. It calls back for each stage that it enters;
    where the callback waits, the procedure stays until the stage is checked.

        begin ─▶ s₁ ─ check s₁ ─▶ s₂ ─ check s₂ ─▶ s₃
                 └─ retry s₁ ─▶ s₁
        reset: abandoned

    The current stage is `none` when the procedure is not under way. What a procedure makes of a request
    is the procedure's, which a program may have from elsewhere: `Procedure` says what is assumed of it,
    and `follow` is one that does so. -/

/-- The stages in their order, and those for which the callback waits. -/
structure Stages (α : Type*) where
  list : List α
  waits : α → Bool

namespace Stages

variable {α : Type*}

/-- What a procedure can be asked. -/
inductive Request (α : Type*) where
  | begin
  | checkRelaxed (s : α)
  | retry (s : α)
  | reset
  deriving DecidableEq

variable (d : Stages α)

/-- Call back for the stages, first to last, up to one that waits. -/
def enter : List α → Option α × List α
  | [] => (none, [])
  | s :: ss => if d.waits s then (some s, [s]) else ((enter ss).1, s :: (enter ss).2)

/-- The stages from a stage on. -/
def onward [DecidableEq α] (s : α) : List α := d.list.dropWhile (· ≠ s)

/-- What is assumed of a procedure: `ask` is the current stage after a request, and the stages for which
    the procedure has called back. A stage that is not the current one is not checked. Whether a retry
    enters its stage again, or leaves the procedure as it is, is the procedure's to decide. -/
structure Procedure (α : Type*) [DecidableEq α] where
  ask : Stages α → (again : Bool) → (current : Option α) → Request α → Option α × List α
  ask_begin : ∀ d again current, ask d again current .begin = d.enter d.list
  ask_checkRelaxed : ∀ d again current s, ask d again current (.checkRelaxed s)
    = if current = some s then d.enter (d.onward s).tail else (current, [])
  ask_retry : ∀ d again current s, ask d again current (.retry s)
    = if again then d.enter (d.onward s) else (current, [])
  ask_reset : ∀ d again current, ask d again current .reset = (none, [])

/-- A procedure that does what is assumed, and nothing else. -/
def follow [DecidableEq α] (again : Bool) (current : Option α) : Request α → Option α × List α
  | .begin => d.enter d.list
  | .checkRelaxed s => if current = some s then d.enter (d.onward s).tail else (current, [])
  | .retry s => if again then d.enter (d.onward s) else (current, [])
  | .reset => (none, [])

def Procedure.standard [DecidableEq α] : Procedure α where
  ask d := d.follow
  ask_begin _ _ _ := rfl
  ask_checkRelaxed _ _ _ _ := rfl
  ask_retry _ _ _ _ := rfl
  ask_reset _ _ _ := rfl

/-! ### Permissions -/

variable {d} {P : α → Prop}

/-- What may be entered first, and is handed on by the stages that do not wait, holds of every stage
    entered and of the stage at which the procedure stays. -/
theorem enter_permitted : ∀ {ss : List α},
    ss.IsChain (fun s t => d.waits s = false → P s → P t) → (∀ s ∈ ss.head?, P s) →
      (∀ s ∈ (d.enter ss).2, P s) ∧ ∀ s ∈ (d.enter ss).1, P s
  | [], _, _ => by simp [enter]
  | s :: ss, hchain, hhead => by
    have hs : P s := hhead s rfl
    unfold enter
    cases hwaits : d.waits s with
    | true => simpa using hs
    | false =>
      have hnext : ∀ t ∈ ss.head?, P t := by
        intro t ht
        obtain ⟨ss', rfl⟩ := List.head?_eq_some_iff.mp ht
        exact (List.isChain_cons_cons.mp hchain).1 hwaits hs
      obtain ⟨hvisits, hcurrent⟩ := enter_permitted hchain.tail hnext
      refine ⟨?_, by simpa using hcurrent⟩
      intro t ht
      rcases List.mem_cons.mp (by simpa using ht) with rfl | ht'
      · exact hs
      · exact hvisits t ht'

/-- The rule of procedures: what every request finds permitted, it leaves permitted. -/
theorem ask_permitted [DecidableEq α] {proc : Procedure α} {again : Bool} {current : Option α}
    {request : Request α}
    (hchain : d.list.IsChain fun s t => d.waits s = false → P s → P t)
    (hcurrent : ∀ s ∈ current, P s) (hbegin : request = .begin → ∀ s ∈ d.list.head?, P s)
    (hcheck : ∀ s, request = .checkRelaxed s → current = some s →
      ∀ t ∈ (d.onward s).tail.head?, P t)
    (hretry : ∀ s, request = .retry s → P s) :
    (∀ s ∈ (proc.ask d again current request).2, P s) ∧
      ∀ s ∈ (proc.ask d again current request).1, P s := by
  have honward : ∀ s, (d.onward s).IsChain fun s t => d.waits s = false → P s → P t :=
    fun s => hchain.suffix (List.dropWhile_suffix _)
  cases request with
  | begin =>
    rw [proc.ask_begin]
    exact enter_permitted hchain (hbegin rfl)
  | checkRelaxed s =>
    rw [proc.ask_checkRelaxed]
    split
    next heq => exact enter_permitted (honward s).tail (hcheck s rfl heq)
    next => exact ⟨by simp, hcurrent⟩
  | retry s =>
    rw [proc.ask_retry]
    split
    next =>
      refine enter_permitted (honward s) fun t ht => ?_
      -- the first stage from `s` on is `s`
      have hhead := List.head?_dropWhile_not (fun x => decide (x ≠ s)) d.list
      simp only [onward] at ht
      rw [ht] at hhead
      have heq : t = s := by simpa using hhead
      exact heq ▸ hretry s rfl
    next => exact ⟨by simp, hcurrent⟩
  | reset => simp [proc.ask_reset]

/-! ### Where a procedure stays -/

/-- A procedure stays at a stage that waits, and has called back for it. -/
theorem enter_some : ∀ {ss : List α} {s : α}, (d.enter ss).1 = some s →
    d.waits s = true ∧ s ∈ (d.enter ss).2
  | [], s, h => by cases h
  | t :: ss, s, h => by
    unfold enter at h ⊢
    cases hwaits : d.waits t with
    | true =>
      rw [hwaits] at h
      obtain rfl : t = s := by simpa using h
      exact ⟨hwaits, by simp⟩
    | false =>
      rw [hwaits] at h
      obtain ⟨hs, hmem⟩ := enter_some (by simpa using h)
      exact ⟨hs, by simp [hmem]⟩

/-- A procedure that goes through stages at one of which it stays goes no further. -/
theorem enter_stops {t : α} (hwaits : d.waits t = true) :
    ∀ {before after : List α}, (d.enter (before ++ t :: after)).2 ⊆ before ++ [t]
  | [], after => by simp [enter, hwaits]
  | s :: before, after => by
    rw [List.cons_append, enter]
    split
    · simp
    · exact List.cons_subset_cons s (enter_stops hwaits)

/-- After a request, the procedure stays where it has just called back, or nothing has happened. -/
theorem ask_some [DecidableEq α] {proc : Procedure α} {again : Bool} {current : Option α}
    {request : Request α} {s : α}
    (h : (proc.ask d again current request).1 = some s) :
    (d.waits s = true ∧ s ∈ (proc.ask d again current request).2) ∨
      proc.ask d again current request = (current, []) := by
  cases request with
  | begin =>
    rw [proc.ask_begin] at h ⊢
    exact Or.inl (enter_some h)
  | checkRelaxed t =>
    rw [proc.ask_checkRelaxed] at h ⊢
    split at h
    next heq => exact Or.inl (by rw [if_pos heq]; exact enter_some h)
    next hne => exact Or.inr (if_neg hne)
  | retry t =>
    rw [proc.ask_retry] at h ⊢
    cases again with
    | true => exact Or.inl (enter_some h)
    | false => exact Or.inr rfl
  | reset =>
    rw [proc.ask_reset] at h
    cases h

end Stages
