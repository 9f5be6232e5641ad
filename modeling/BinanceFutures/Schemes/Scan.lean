import Mathlib.Data.List.Basic

/-! # Scans

    A loop over a list hands a state from one element to the next, and may return from the middle.
    `List.foldlM` is that loop in `Except`: a value is the state after the last element, an error is what
    the loop has returned.

        s ─ x₁ ─▶ s ─ x₂ ─▶ s ─ x₃ ─▶ s
                       └─▶ r -/

namespace Scan

universe u v

variable {α : Type u} {σ ρ : Type v}

/-- The loop goes on in a state of which `I` holds, or has returned what `R` holds of. -/
def Post (I : σ → Prop) (R : ρ → Prop) : Except ρ σ → Prop
  | .ok s => I s
  | .error r => R r

variable {I J : σ → Prop} {R : ρ → Prop} {f : σ → α → Except ρ σ}

@[simp] theorem post_ok (s : σ) : Post I R (.ok s) ↔ I s := Iff.rfl

@[simp] theorem post_error (r : ρ) : Post I R (.error r) ↔ R r := Iff.rfl

/-- The rule of consequence. -/
theorem Post.imp {e : Except ρ σ} (he : Post I R e) (h : ∀ s, I s → J s) : Post J R e := by
  cases e with
  | ok s => exact h s he
  | error r => exact he

/-- The rule of composition: what is returned is not touched by what would have come next. -/
theorem Post.bind {e : Except ρ σ} {g : σ → Except ρ σ} (he : Post I R e)
    (hg : ∀ s, I s → Post J R (g s)) : Post J R (e >>= g) := by
  cases e with
  | ok s => exact hg s he
  | error r => exact he

/-- The rule of loops: what each element keeps, the loop keeps, in whatever order they come. -/
theorem post_foldlM {l : List α} (hkeeps : ∀ x ∈ l, ∀ s, I s → Post I R (f s x)) {s : σ} (hs : I s) :
    Post I R (l.foldlM f s) := by
  induction l generalizing s with
  | nil => exact hs
  | cons x l ih =>
    rw [List.foldlM_cons]
    refine (hkeeps x List.mem_cons_self s hs).bind fun s' hs' => ?_
    exact ih (fun y hy => hkeeps y (List.mem_cons_of_mem x hy)) hs'

/-- The rule of the middle: an element leads from `I`, which those before it keep, to `J`, which those
    after it keep. -/
theorem post_foldlM_middle {front back : List α} {x : α}
    (hfront : ∀ y ∈ front, ∀ s, I s → Post I R (f s y)) (hx : ∀ s, I s → Post J R (f s x))
    (hback : ∀ y ∈ back, ∀ s, J s → Post J R (f s y)) {s : σ} (hs : I s) :
    Post J R ((front ++ x :: back).foldlM f s) := by
  rw [List.foldlM_append]
  refine (post_foldlM hfront hs).bind fun s' hs' => ?_
  rw [List.foldlM_cons]
  exact (hx s' hs').bind fun s'' hs'' => post_foldlM hback hs''

/-- The rule of progress: where one element leads from `I` to `J`, wherever it stands, and each element
    keeps both, the loop ends in `J`. With `False` for `J`, the loop returns. -/
theorem post_foldlM_of_mem {l : List α} {x : α} (hx : x ∈ l) (hreaches : ∀ s, I s → Post J R (f s x))
    (hI : ∀ y ∈ l, ∀ s, I s → Post I R (f s y)) (hJ : ∀ y ∈ l, ∀ s, J s → Post J R (f s y)) {s : σ}
    (hs : I s) : Post J R (l.foldlM f s) := by
  obtain ⟨front, back, rfl⟩ := List.append_of_mem hx
  have hfront : ∀ y ∈ front, y ∈ front ++ x :: back := fun y hy => List.mem_append_left _ hy
  have hback : ∀ y ∈ back, y ∈ front ++ x :: back :=
    fun y hy => List.mem_append_right _ (List.mem_cons_of_mem x hy)
  exact post_foldlM_middle (fun y hy => hI y (hfront y hy)) hreaches (fun y hy => hJ y (hback y hy)) hs

/-- Two bodies that agree on the elements of a list make the same loop over it. -/
theorem foldlM_congr {l : List α} {g : σ → α → Except ρ σ} (h : ∀ s, ∀ x ∈ l, f s x = g s x) (s : σ) :
    l.foldlM f s = l.foldlM g s := by
  induction l generalizing s with
  | nil => rfl
  | cons x l ih =>
    rw [List.foldlM_cons, List.foldlM_cons, h s x List.mem_cons_self]
    exact bind_congr fun s' => ih (fun s y hy => h s y (List.mem_cons_of_mem x hy)) s'

/-- Where some elements leave a state as it is and the others return, the first of the others decides. -/
theorem foldlM_eq_find {l : List α} {s : σ} {p : α → Bool} (hpass : ∀ x ∈ l, p x = true → f s x = .ok s)
    (hstop : ∀ x ∈ l, p x = false → ∃ r, f s x = .error r) :
    l.foldlM f s = (l.find? fun x => !p x).elim (.ok s) (f s) := by
  induction l with
  | nil => rfl
  | cons x l ih =>
    rw [List.foldlM_cons, List.find?_cons]
    cases hx : p x with
    | true =>
      rw [hpass x List.mem_cons_self hx]
      exact ih (fun y hy => hpass y (List.mem_cons_of_mem x hy))
        fun y hy => hstop y (List.mem_cons_of_mem x hy)
    | false =>
      obtain ⟨r, hr⟩ := hstop x List.mem_cons_self hx
      rw [hr]
      exact hr.symm

end Scan
