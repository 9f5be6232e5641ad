import Mathlib.Data.List.DropRight

/-! # Traces

    What a machine has put out so far falls into sessions, each ended by a mark; `since` is what
    belongs to the current one. `Each P` says that every observation finds before it what `P` asks
    of it.

        o₁ o₂ ✕ o₃ o₄ ✕ o₅ o₆
                        └───── since -/

namespace Trace

variable {ω : Type*} {mark : ω → Bool} {out os : List ω} {o : ω}

/-- What has been put out since the last mark. -/
def since (mark : ω → Bool) (out : List ω) : List ω := out.rtakeWhile fun o => !mark o

@[simp] theorem since_nil (mark : ω → Bool) : since mark [] = [] := List.rtakeWhile_nil _

/-- Nothing belongs to a session that has just begun. -/
theorem since_mark (h : mark o = true) : since mark (out ++ [o]) = [] :=
  List.rtakeWhile_concat_neg _ _ _ (by simp [h])

theorem since_append (h : ∀ o ∈ os, mark o = false) :
    since mark (out ++ os) = since mark out ++ os := by
  induction os using List.reverseRecOn with
  | nil => simp
  | append_singleton os o ih =>
    have hlast : mark o = false := h o (by simp)
    have hrest : since mark (out ++ os) = since mark out ++ os :=
      ih fun o' ho' => h o' (List.mem_append_left _ ho')
    rw [← List.append_assoc, since, List.rtakeWhile_concat_pos _ _ _ (by simp [hlast]), ← since,
      hrest, List.append_assoc]

/-- Every observation finds before it what `P` asks. -/
def Each (P : List ω → ω → Prop) (out : List ω) : Prop :=
  ∀ pre o post, out = pre ++ o :: post → P pre o

variable {P : List ω → ω → Prop}

theorem each_nil : Each P [] := by
  intro pre o post h
  simp at h

theorem each_concat (h : Each P out) (ho : P out o) : Each P (out ++ [o]) := by
  intro pre o' post hout
  induction post using List.reverseRecOn with
  | nil =>
    obtain ⟨rfl, hlast⟩ := List.append_inj' hout rfl
    obtain rfl : o = o' := by simpa using hlast
    exact ho
  | append_singleton post o'' _ =>
    rw [← List.cons_append, ← List.append_assoc] at hout
    exact h pre o' post (List.append_inj' hout rfl).1

/-- Observations of which nothing is asked. -/
theorem each_append (h : Each P out) (hos : ∀ pre, ∀ o ∈ os, P pre o) : Each P (out ++ os) := by
  induction os using List.reverseRecOn with
  | nil => simpa using h
  | append_singleton os o ih =>
    rw [← List.append_assoc]
    exact each_concat (ih fun pre o' ho' => hos pre o' (List.mem_append_left _ ho'))
      (hos _ o (by simp))

/-- Each observation finds before it what `P` asks, after observations of the kind `Q`. -/
theorem each_while {Q : ω → Prop} (h : Each P out) (hos : ∀ o ∈ os, Q o)
    (hP : ∀ more, (∀ o ∈ more, Q o) → ∀ o ∈ os, P (out ++ more) o) : Each P (out ++ os) := by
  induction os using List.reverseRecOn with
  | nil => simpa using h
  | append_singleton os o ih =>
    have hbefore : ∀ o' ∈ os, Q o' := fun o' ho' => hos o' (List.mem_append_left _ ho')
    rw [← List.append_assoc]
    refine each_concat (ih hbefore fun more hmore o' ho' => ?_) (hP os hbefore o (by simp))
    exact hP more hmore o' (List.mem_append_left _ ho')

end Trace
