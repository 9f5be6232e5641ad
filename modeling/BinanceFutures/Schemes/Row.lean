import BinanceFutures.Schemes.Machine

/-! # Rows of machines

    A row holds one state for each of its members, by position, and only grows. One member takes a turn
    at a time, or all of them in turn; what a member puts out is marked with its position.

        row:   s₀  s₁  s₂ ── member 1 f ──▶ s₀  f s₁  s₂ ── push ──▶ s₀  f s₁  s₂  s₃

    `Shows` compares an action, from a given state, with an action on what is seen of the state. Seen
    from one position a row is a machine that may not be there yet. -/

namespace Machine

variable {σ τ ω ν : Type*}

/-- Seen through `get` and `pick`, the action does from this state what `g` does. -/
def Shows (get : σ → τ) (pick : ω → Option ν) (s : σ) (f : Action σ ω) (g : Action τ ν) : Prop :=
  get (f s).1 = (g (get s)).1 ∧ (f s).2.filterMap pick = (g (get s)).2

variable {get : σ → τ} {pick : ω → Option ν} {s : σ} {f f' : Action σ ω} {g g' : Action τ ν}

/-- An action of which nothing is seen. -/
theorem shows_skip (hget : get (f s).1 = get s) (hpick : ∀ o ∈ (f s).2, pick o = none) :
    Shows get pick s f skip :=
  ⟨hget, List.filterMap_eq_nil_iff.mpr hpick⟩

theorem shows_seq (h : Shows get pick s f g) (h' : Shows get pick (f s).1 f' g') :
    Shows get pick s (seq f f') (seq g g') := by
  obtain ⟨hstate, hout⟩ := h
  obtain ⟨hstate', hout'⟩ := h'
  rw [hstate] at hstate' hout'
  exact ⟨hstate', by rw [seq_snd, List.filterMap_append, hout, hout', seq_snd]⟩

theorem shows_congr {g' : Action τ ν} (h : Shows get pick s f g) (heq : g (get s) = g' (get s)) :
    Shows get pick s f g' := by
  rw [Shows, ← heq]
  exact h

/-- Only what the action does from this state matters. -/
theorem shows_eval {f' : Action σ ω} (h : Shows get pick s f g) (heq : f' s = f s) :
    Shows get pick s f' g := by
  rw [Shows, heq]
  exact h

/-- What holds of the action that is seen holds of the action. -/
theorem triple_of_shows {P Q : List ν → τ → Prop} {out : List ω} (h : Shows get pick s f g)
    (hg : Triple P g Q) (hP : P (out.filterMap pick) (get s)) :
    Q ((out ++ (f s).2).filterMap pick) (get (f s).1) := by
  rw [List.filterMap_append, h.1, h.2]
  exact hg _ _ hP

/-! ### Machines that may not be there -/

/-- The action of a machine that may not be there. -/
def lift (f : Action σ ω) : Action (Option σ) ω
  | none => (none, [])
  | some s => (some (f s).1, (f s).2)

/-- The machine comes into being, unless it is there. -/
def appear (b : Bool) (s : σ) (os : List ω) : Action (Option σ) ω
  | none => if b then (some s, os) else (none, [])
  | some t => (some t, [])

@[simp] theorem isSome_lift (f : Action σ ω) (t : Option σ) : (lift f t).1.isSome = t.isSome := by
  cases t <;> rfl

@[simp] theorem isSome_appear (b : Bool) (s : σ) (os : List ω) (t : Option σ) :
    (appear b s os t).1.isSome = (t.isSome || b) := by
  cases t <;> cases b <;> rfl

theorem appear_false (s : σ) (os : List ω) : appear false s os = skip := by
  funext t
  cases t <;> rfl

theorem appear_seq (b c : Bool) (s t : σ) (os : List ω) :
    seq (appear b s os) (appear c t os) = appear (b || c) (if b then s else t) os := by
  funext u
  cases u <;> cases b <;> cases c <;> simp [seq, appear]

/-- Nothing has been put out by a machine that is not there. -/
def IfThere (I : List ω → σ → Prop) (out : List ω) : Option σ → Prop
  | none => out = []
  | some s => I out s

theorem triple_lift {I J : List ω → σ → Prop} {f : Action σ ω} (h : Triple I f J) :
    Triple (IfThere I) (lift f) (IfThere J) := by
  intro out s hI
  cases s with
  | none => simpa [lift, IfThere] using hI
  | some s => exact h out s hI

theorem keeps_appear {I : List ω → σ → Prop} {b : Bool} {s : σ} {os : List ω} (h : I os s) :
    Keeps (IfThere I) (appear b s os) := by
  intro out t hI
  cases t with
  | none =>
    obtain rfl : out = [] := hI
    cases b with
    | false => rfl
    | true => exact h
  | some t => simpa [appear] using hI

/-! ### Rows -/

namespace Row

variable {i j : ℕ}

/-- The member at the position takes its turn, if it is there. -/
def member (i : ℕ) (f : Action σ ω) : Action (List σ) (ℕ × ω) := fun row =>
  match row[i]? with
  | none => (row, [])
  | some s => (row.set i (f s).1, (f s).2.map fun o => (i, o))

/-- All members take their turns, first to last. -/
def every (f : Action σ ω) : Action (List σ) (ℕ × ω) := fun row =>
  (row.map fun s => (f s).1, row.zipIdx.flatMap fun (s, i) => (f s).2.map fun o => (i, o))

/-- A new member, at the end. -/
def push (s : σ) (os : List ω) : Action (List σ) (ℕ × ω) := fun row =>
  (row ++ [s], os.map fun o => (row.length, o))

/-- What the member at the position puts out. -/
def own (i : ℕ) (o : ℕ × ω) : Option ω := if o.1 = i then some o.2 else none

theorem filterMap_own_self (i : ℕ) (os : List ω) :
    (os.map fun o => (i, o)).filterMap (own i) = os := by
  have hsome : own i ∘ (fun o : ω => (i, o)) = some := by
    funext o
    simp [own]
  rw [List.filterMap_map, hsome, List.filterMap_some]

theorem filterMap_own_other (h : j ≠ i) (os : List ω) :
    (os.map fun o => (j, o)).filterMap (own i) = [] := by
  simp [own, h]

theorem shows_member (i : ℕ) (f : Action σ ω) (row : List σ) :
    Shows (·[i]?) (own i) row (member i f) (lift f) := by
  cases hi : row[i]? with
  | none => constructor <;> simp [member, hi, lift]
  | some s =>
    obtain ⟨hlt, rfl⟩ := List.getElem?_eq_some_iff.mp hi
    constructor
    · simp [member, hlt, lift]
    · simp only [member, hi, lift]
      exact filterMap_own_self i _

theorem shows_member_other (h : j ≠ i) (f : Action σ ω) (row : List σ) :
    Shows (·[i]?) (own i) row (member j f) skip := by
  unfold member
  cases hj : row[j]? with
  | none => exact ⟨by simp [hj], by simp [hj]⟩
  | some s =>
    refine ⟨?_, ?_⟩
    · simp [hj, List.getElem?_set_ne h]
    · simp only [hj]
      exact filterMap_own_other h _

theorem shows_push (i : ℕ) (s : σ) (os : List ω) (row : List σ) :
    Shows (·[i]?) (own i) row (push s os) (appear (i = row.length) s os) := by
  rcases lt_trichotomy i row.length with hlt | rfl | hgt
  · -- the position is taken
    refine ⟨?_, ?_⟩
    · simp [push, appear, List.getElem?_append_left hlt, List.getElem?_eq_getElem hlt]
    · simp only [push, appear, List.getElem?_eq_getElem hlt]
      exact filterMap_own_other (by omega) os
  · refine ⟨?_, ?_⟩
    · simp [push, appear]
    · simp only [push, appear, List.getElem?_eq_none (le_refl row.length), decide_true, if_true]
      exact filterMap_own_self _ os
  · -- the position stays empty
    have hnone : row[i]? = none := List.getElem?_eq_none (by omega)
    refine ⟨?_, ?_⟩
    · simp only [push, appear, hnone, Nat.ne_of_gt hgt, decide_false, Bool.false_eq_true, if_false]
      exact List.getElem?_eq_none (by rw [List.length_append, List.length_singleton]; omega)
    · simp only [push, appear, hnone, Nat.ne_of_gt hgt, decide_false, Bool.false_eq_true, if_false]
      exact filterMap_own_other (by omega) os

/-- The turns of a row whose first member stands at position `k`. -/
theorem filterMap_own_zipIdx (f : Action σ ω) (i : ℕ) : ∀ (row : List σ) (k : ℕ), k ≤ i →
    ((row.zipIdx k).flatMap fun (s, j) => (f s).2.map fun o => (j, o)).filterMap (own i)
      = (lift f row[i - k]?).2
  | [], _, _ => by simp [lift]
  | s :: row, k, hk => by
      rw [List.zipIdx_cons, List.flatMap_cons, List.filterMap_append]
      rcases Nat.lt_or_eq_of_le hk with hlt | rfl
      · have hnext : i - k = i - (k + 1) + 1 := by omega
        rw [filterMap_own_other (by omega), List.nil_append, filterMap_own_zipIdx f i row _ hlt, hnext,
          List.getElem?_cons_succ]
      · -- the member stands first: none of the others has its position
        have hrest : ((row.zipIdx (k + 1)).flatMap fun (s, j) => (f s).2.map fun o => (j, o)).filterMap
            (own k) = [] := by
          rw [List.filterMap_eq_nil_iff]
          intro o ho
          obtain ⟨⟨t, j⟩, hmem, hmap⟩ := List.mem_flatMap.mp ho
          obtain ⟨o', -, rfl⟩ := List.mem_map.mp hmap
          have hj : k + 1 ≤ j := (List.mem_zipIdx hmem).1
          exact if_neg (by dsimp only; omega)
        rw [hrest, filterMap_own_self, List.append_nil, Nat.sub_self]
        rfl

theorem shows_every (i : ℕ) (f : Action σ ω) (row : List σ) :
    Shows (·[i]?) (own i) row (every f) (lift f) := by
  refine ⟨?_, ?_⟩
  · cases hi : row[i]? <;> simp [every, lift, hi]
  · have hown := filterMap_own_zipIdx f i row 0 (Nat.zero_le i)
    rwa [Nat.sub_zero] at hown

end Row

end Machine
