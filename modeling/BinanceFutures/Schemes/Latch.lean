import Mathlib.Data.List.Induction

/-! # Latches

    A latch takes the first value that it is offered and holds it until it is dropped. Values are *seen*
    on the way, and some of those that are seen are *offered*.

        seen a ── offer a ──▶ held a ── offer b ──▶ held a ── drop ──▶ nothing held

    If only the value that was seen last is ever offered, a latch holds what had been seen last when it
    took it, whatever has been seen since. -/

namespace Latch

variable {α : Type*}

inductive Event (α : Type*) where
  | seen (a : α)
  | offer (a : α)
  | drop
  deriving DecidableEq

/-- What is held after an event. -/
def step : Option α → Event α → Option α
  | held, .seen _ => held
  | held, .offer a => held.or (some a)
  | _, .drop => none

/-- What is held after the events. -/
def held (es : List (Event α)) : Option α := es.foldl step none

/-- What has been seen last after an event. -/
def look : Option α → Event α → Option α
  | _, .seen a => some a
  | last, _ => last

/-- What has been seen last. -/
def lastSeen (es : List (Event α)) : Option α := es.foldl look none

/-- Only what has been seen last is offered. -/
def Announced : Option α → List (Event α) → Prop
  | _, [] => True
  | last, e :: es => (∀ a, e = .offer a → last = some a) ∧ Announced (look last e) es

theorem held_append (es fs : List (Event α)) : held (es ++ fs) = fs.foldl step (held es) :=
  List.foldl_append

theorem lastSeen_append (es fs : List (Event α)) :
    lastSeen (es ++ fs) = fs.foldl look (lastSeen es) := List.foldl_append

theorem announced_append : ∀ {es fs : List (Event α)} {last : Option α},
    Announced last (es ++ fs) ↔ Announced last es ∧ Announced (es.foldl look last) fs
  | [], _, _ => by simp [Announced]
  | e :: es, fs, last => by
      rw [List.cons_append, Announced, Announced, announced_append, and_assoc, List.foldl_cons]

/-- As long as no other value is seen, the value that was seen last stays the last. -/
theorem look_of_forall {a : α} : ∀ {es : List (Event α)}, (∀ b, .seen b ∈ es → b = a) →
    es.foldl look (some a) = some a
  | [], _ => rfl
  | e :: es, h => by
      have hrest := look_of_forall fun b hb => h b (List.mem_cons_of_mem _ hb)
      cases e with
      | seen b =>
        obtain rfl := h b (List.mem_cons_self ..)
        exact hrest
      | offer b => exact hrest
      | drop => exact hrest

/-- What is held has been offered. -/
theorem offer_mem_of_held {es : List (Event α)} {a : α} (h : held es = some a) : .offer a ∈ es := by
  induction es using List.reverseRecOn with
  | nil => cases h
  | append_singleton es e ih =>
    rw [held_append, List.foldl_cons, List.foldl_nil] at h
    rw [List.mem_append, List.mem_singleton]
    cases e with
    | seen b => exact Or.inl (ih h)
    | drop => cases h
    | offer b =>
      rcases Option.or_eq_some_iff.mp h with hheld | ⟨-, hb⟩
      · exact Or.inl (ih hheld)
      · rw [Option.some.inj hb]
        exact Or.inr rfl

/-- What is held was seen last when the latch took it, and has not been dropped since. -/
theorem held_of_announced {es : List (Event α)} {a : α} (h : Announced none es)
    (ha : held es = some a) :
    ∃ pre post, es = pre ++ .offer a :: post ∧ .drop ∉ post ∧ held pre = none ∧
      lastSeen pre = some a := by
  induction es using List.reverseRecOn with
  | nil => cases ha
  | append_singleton es e ih =>
    obtain ⟨hes, he, -⟩ := announced_append.mp h
    rw [held_append, List.foldl_cons, List.foldl_nil] at ha
    have hextend : e ≠ .drop → held es = some a → ∃ pre post,
        es ++ [e] = pre ++ .offer a :: post ∧ .drop ∉ post ∧ held pre = none ∧
          lastSeen pre = some a := by
      intro hdrop hheld
      obtain ⟨pre, post, rfl, hpost, hpre, hlast⟩ := ih hes hheld
      refine ⟨pre, post ++ [e], by rw [List.append_assoc, List.cons_append], ?_, hpre, hlast⟩
      rw [List.mem_append, List.mem_singleton, not_or]
      exact ⟨hpost, hdrop.symm⟩
    cases e with
    | seen b => exact hextend (by simp) ha
    | drop => cases ha
    | offer b =>
      cases hheld : held es with
      | some c =>
        rw [hheld] at ha
        exact hextend (by simp) (hheld.trans ha)
      | none =>
        -- nothing is held, so this is the offer that the latch takes
        rw [hheld] at ha
        obtain rfl := Option.some.inj ha
        exact ⟨es, [], rfl, List.not_mem_nil, hheld, he b rfl⟩

end Latch
