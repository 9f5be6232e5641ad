import BinanceFutures.Schemes.Machine
import Mathlib.Logic.Function.Basic

/-! # Families of machines

    A family holds one state for each of its members, and its actions move one member at a time or all
    of them in turn. What each member puts out is marked with its index. Members do not touch each
    other: seen from one member, a step of the family is a step of that member's own machine.

        family:   i ─ f ─▶    j ─ g ─▶    i ─ h ─▶    all ─ k ─▶
        seen by i:    f           ·           h            k -/

namespace Machine.Family

variable {ι σ ε ω : Type*} [DecidableEq ι]

/-- The member takes its turn, if it is there. -/
def member (i : ι) (f : Action σ ω) : Action (ι → Option σ) (ι × ω) := fun c =>
  match c i with
  | none => (c, [])
  | some s => (Function.update c i (some (f s).1), (f s).2.map fun o => (i, o))

/-- The members of the list take their turns, first to last. -/
def each (is : List ι) (f : ι → Action σ ω) : Action (ι → Option σ) (ι × ω) :=
  seqAll (is.map fun i => member i (f i))

/-- What the member has put out. -/
def output (i : ι) (out : List (ι × ω)) : List ω :=
  out.filterMap fun o => if o.1 = i then some o.2 else none

/-- Seen from the member, the family's action is its own action. -/
def Seen (i : ι) (f : Action (ι → Option σ) (ι × ω)) (g : Action σ ω) : Prop :=
  ∀ c s, c i = some s → (f c).1 i = some (g s).1 ∧ output i (f c).2 = (g s).2

theorem output_append (i : ι) (out out' : List (ι × ω)) :
    output i (out ++ out') = output i out ++ output i out' := List.filterMap_append

theorem output_own (i : ι) (out : List ω) : output i (out.map fun o => (i, o)) = out := by
  induction out with
  | nil => rfl
  | cons o out ih => simp [output]

theorem output_other {i j : ι} (h : j ≠ i) (out : List ω) :
    output i (out.map fun o => (j, o)) = [] := by
  simp [output, h]

theorem mem_output {i : ι} {out : List (ι × ω)} {o : ω} : o ∈ output i out ↔ (i, o) ∈ out := by
  unfold output
  rw [List.mem_filterMap]
  constructor
  · rintro ⟨⟨j, o'⟩, hmem, heq⟩
    split at heq
    next hj =>
      obtain rfl := hj
      obtain rfl := Option.some.inj heq
      exact hmem
    next => cases heq
  · intro hmem
    exact ⟨(i, o), hmem, if_pos rfl⟩

theorem seen_skip (i : ι) : Seen i (skip : Action (ι → Option σ) (ι × ω)) skip :=
  fun _ _ h => ⟨h, rfl⟩

theorem seen_seq {i : ι} {f f' : Action (ι → Option σ) (ι × ω)} {g g' : Action σ ω}
    (h : Seen i f g) (h' : Seen i f' g') : Seen i (seq f f') (seq g g') := by
  intro c s hc
  obtain ⟨hstate, hout⟩ := h c s hc
  obtain ⟨hstate', hout'⟩ := h' (f c).1 (g s).1 hstate
  exact ⟨hstate', by rw [seq_snd, output_append, hout, hout', seq_snd]⟩

theorem seen_member (i : ι) (f : Action σ ω) : Seen i (member i f) f := by
  intro c s hc
  simp only [member, hc]
  exact ⟨Function.update_self .., output_own i _⟩

/-- A member does not see the turns of the others. -/
theorem seen_other {i j : ι} (h : j ≠ i) (f : Action σ ω) : Seen i (member j f) skip := by
  intro c s hc
  unfold member
  split
  · exact ⟨hc, rfl⟩
  · exact ⟨(Function.update_of_ne (Ne.symm h) _ c).trans hc, output_other h _⟩

theorem seen_each_other {i : ι} (f : ι → Action σ ω) : ∀ {is : List ι}, i ∉ is →
    Seen i (each is f) skip
  | [], _ => seen_skip i
  | j :: is, h => by
      rw [List.mem_cons, not_or] at h
      obtain ⟨hj, his⟩ := h
      have hseen := seen_seq (seen_other (Ne.symm hj) (f j)) (seen_each_other f his)
      rwa [skip_seq] at hseen

/-- Of the turns of all members, a member sees its own. -/
theorem seen_each {i : ι} (f : ι → Action σ ω) : ∀ {is : List ι}, is.Nodup → i ∈ is →
    Seen i (each is f) (f i)
  | j :: is, hnodup, h => by
      obtain ⟨hj, his⟩ := List.nodup_cons.mp hnodup
      by_cases heq : j = i
      · subst heq
        have hseen := seen_seq (seen_member j (f j)) (seen_each_other f hj)
        rwa [seq_skip] at hseen
      · have hseen := seen_seq (seen_other heq (f j))
          (seen_each f his ((List.mem_cons.mp h).resolve_left (Ne.symm heq)))
        rwa [skip_seq] at hseen

/-- The member is there, and the invariant holds of it and of what it has put out. -/
def Of (i : ι) (I : List ω → σ → Prop) (out : List (ι × ω)) (c : ι → Option σ) : Prop :=
  ∃ s, c i = some s ∧ I (output i out) s

/-- What a member's own machine keeps, the family keeps of the member. -/
theorem keeps_of {i : ι} {I : List ω → σ → Prop} {f : Action (ι → Option σ) (ι × ω)}
    {g : Action σ ω} (hseen : Seen i f g) (hg : Keeps I g) : Keeps (Of i I) f := by
  rintro out c ⟨s, hc, hI⟩
  obtain ⟨hstate, hout⟩ := hseen c s hc
  refine ⟨(g s).1, hstate, ?_⟩
  rw [output_append, hout]
  exact hg _ s hI

end Machine.Family
