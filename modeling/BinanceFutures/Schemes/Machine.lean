import Mathlib.Data.List.Basic
import Mathlib.Data.List.Infix

/-! # Machines with output

    A program that reacts to events is a family of *actions*: an action takes the state to the next
    state and puts out a list of observations on the way. Actions compose one after the other, under
    a guard, or over a list; a *run* is the composition of the actions of its events.

        state ── event ──▶ state ── event ──▶ state
                   │                   │
                   ▼                   ▼
                outputs             outputs

    `Triple` is the Hoare rule over *everything put out so far* and the state; `Keeps` is its
    invariant form. `Along` says that every step of a run meets a condition in the state it is taken
    from, and `exact_condition` turns a per-step condition into the exact characterisation of the
    runs on which a property holds in every state reached. `mortal` ends a machine at the first
    observation that kills it, `Rounds` says that a run falls into parts that each bring it one step on,
    and `Dated` that a deadline, once there, is never missing. -/

namespace Machine

variable {σ τ ε ω α : Type*}

/-- One reaction: the next state, and what is put out on the way. -/
abbrev Action (σ ω : Type*) := σ → σ × List ω

/-- Nothing happens. -/
def skip : Action σ ω := fun s => (s, [])

/-- Put out, leave the state. -/
def emit (o : List ω) : Action σ ω := fun s => (s, o)

/-- Change the state, put out nothing. -/
def modify (f : σ → σ) : Action σ ω := fun s => (f s, [])

/-- One action after the other. -/
def seq (f g : Action σ ω) : Action σ ω := fun s => ((g (f s).1).1, (f s).2 ++ (g (f s).1).2)

/-- A list of actions, first to last. -/
def seqAll : List (Action σ ω) → Action σ ω
  | [] => skip
  | f :: fs => seq f (seqAll fs)

/-- Run the action where the state passes the test. -/
def guarded (b : σ → Bool) (f : Action σ ω) : Action σ ω := fun s => if b s then f s else (s, [])

/-- The events of a run, one action each. -/
def run (step : ε → Action σ ω) : List ε → Action σ ω
  | [] => skip
  | e :: es => seq (step e) (run step es)

@[simp] theorem skip_apply (s : σ) : (skip : Action σ ω) s = (s, []) := rfl

@[simp] theorem emit_apply (o : List ω) (s : σ) : emit o s = (s, o) := rfl

@[simp] theorem modify_apply (f : σ → σ) (s : σ) : (modify f : Action σ ω) s = (f s, []) := rfl

@[simp] theorem seq_fst (f g : Action σ ω) (s : σ) : (seq f g s).1 = (g (f s).1).1 := rfl

@[simp] theorem seq_snd (f g : Action σ ω) (s : σ) :
    (seq f g s).2 = (f s).2 ++ (g (f s).1).2 := rfl

theorem skip_seq (f : Action σ ω) : seq skip f = f := by
  funext s; simp [seq]

theorem seq_skip (f : Action σ ω) : seq f skip = f := by
  funext s; simp [seq]

theorem seq_assoc (f g h : Action σ ω) : seq (seq f g) h = seq f (seq g h) := by
  funext s; simp [seq, List.append_assoc]

@[simp] theorem run_nil (step : ε → Action σ ω) (s : σ) : run step [] s = (s, []) := rfl

theorem run_cons (step : ε → Action σ ω) (e : ε) (es : List ε) (s : σ) :
    run step (e :: es) s = seq (step e) (run step es) s := rfl

/-- A run over two lists of events is the run over the first, then over the second. -/
theorem run_append (step : ε → Action σ ω) (es fs : List ε) :
    run step (es ++ fs) = seq (run step es) (run step fs) := by
  induction es with
  | nil => exact (skip_seq _).symm
  | cons e es ih => rw [List.cons_append, run, ih, run, seq_assoc]

theorem run_concat_fst (step : ε → Action σ ω) (es : List ε) (e : ε) (s : σ) :
    (run step (es ++ [e]) s).1 = (step e (run step es s).1).1 := by
  rw [run_append]; rfl

theorem run_concat_snd (step : ε → Action σ ω) (es : List ε) (e : ε) (s : σ) :
    (run step (es ++ [e]) s).2 = (run step es s).2 ++ (step e (run step es s).1).2 := by
  rw [run_append, seq_snd, run_cons, seq_snd, run_nil, List.append_nil]

/-! ### Triples -/

/-- From `P` of the outputs so far and the state, the action leads to `Q` of the same. -/
def Triple (P : List ω → σ → Prop) (f : Action σ ω) (Q : List ω → σ → Prop) : Prop :=
  ∀ out s, P out s → Q (out ++ (f s).2) (f s).1

/-- The action keeps the invariant. -/
abbrev Keeps (I : List ω → σ → Prop) (f : Action σ ω) : Prop := Triple I f I

theorem triple_seq {P Q R : List ω → σ → Prop} {f g : Action σ ω} (hf : Triple P f Q)
    (hg : Triple Q g R) : Triple P (seq f g) R := by
  intro out s hP
  have hR := hg _ _ (hf out s hP)
  rwa [List.append_assoc] at hR

theorem keeps_skip (I : List ω → σ → Prop) : Keeps I (skip : Action σ ω) := by
  intro out s hI
  simpa using hI

theorem keeps_seq {I : List ω → σ → Prop} {f g : Action σ ω} (hf : Keeps I f) (hg : Keeps I g) :
    Keeps I (seq f g) := triple_seq hf hg

theorem keeps_guarded {I : List ω → σ → Prop} {f : Action σ ω} (b : σ → Bool)
    (hf : ∀ out s, b s = true → I out s → I (out ++ (f s).2) (f s).1) :
    Keeps I (guarded b f) := by
  intro out s hI
  unfold guarded
  cases hb : b s with
  | true => simpa using hf out s hb hI
  | false => simpa using hI

/-- An action that is chosen by the state. -/
theorem keeps_choose {I : List ω → σ → Prop} {f : σ → Action σ ω} (hf : ∀ s, Keeps I (f s)) :
    Keeps I (fun s => f s s) := by
  intro out s hI
  exact hf s out s hI

/-- An action that does in each state what another one does that keeps the invariant. -/
theorem keeps_of_eq {I : List ω → σ → Prop} {f : Action σ ω} (h : ∀ s, ∃ g, f s = g s ∧ Keeps I g) :
    Keeps I f := by
  intro out s hI
  obtain ⟨g, heq, hg⟩ := h s
  rw [heq]
  exact hg out s hI

theorem keeps_seqAll {I : List ω → σ → Prop} : ∀ {fs : List (Action σ ω)},
    (∀ f ∈ fs, Keeps I f) → Keeps I (seqAll fs)
  | [], _ => keeps_skip I
  | f :: _, h =>
      triple_seq (h f (List.mem_cons_self ..))
        (keeps_seqAll (fun g hg => h g (List.mem_cons_of_mem _ hg)))

/-- Actions of a list that all keep the invariant. -/
theorem keeps_map {I : List ω → σ → Prop} {f : α → Action σ ω} {as : List α}
    (h : ∀ a ∈ as, Keeps I (f a)) : Keeps I (seqAll (as.map f)) := by
  refine keeps_seqAll fun g hg => ?_
  obtain ⟨a, ha, rfl⟩ := List.mem_map.mp hg
  exact h a ha

/-- A run keeps what the steps of its events keep. -/
theorem keeps_run_of {I : List ω → σ → Prop} {step : ε → Action σ ω} :
    ∀ {es : List ε}, (∀ e ∈ es, Keeps I (step e)) → Keeps I (run step es)
  | [], _ => keeps_skip I
  | e :: _, h =>
      triple_seq (h e (List.mem_cons_self ..))
        (keeps_run_of fun e' he' => h e' (List.mem_cons_of_mem _ he'))

/-- A run keeps what each step keeps. -/
theorem keeps_run {I : List ω → σ → Prop} {step : ε → Action σ ω} (h : ∀ e, Keeps I (step e))
    (es : List ε) : Keeps I (run step es) :=
  keeps_run_of fun e _ => h e

/-! ### Frames -/

/-- The action leaves the part `π` of the state as it is. -/
def Frame (π : σ → τ) (f : Action σ ω) : Prop := ∀ s, π (f s).1 = π s

theorem frame_seqAll {π : σ → τ} : ∀ {fs : List (Action σ ω)},
    (∀ f ∈ fs, Frame π f) → Frame π (seqAll fs)
  | [], _, _ => rfl
  | f :: fs, h, s => by
      have hrest := frame_seqAll (fun g hg => h g (List.mem_cons_of_mem _ hg)) (f s).1
      exact hrest.trans (h f (List.mem_cons_self ..) s)

theorem frame_map {π : σ → τ} {f : α → Action σ ω} {as : List α} (h : ∀ a ∈ as, Frame π (f a)) :
    Frame π (seqAll (as.map f)) := by
  refine frame_seqAll fun g hg => ?_
  obtain ⟨a, ha, rfl⟩ := List.mem_map.mp hg
  exact h a ha

/-- A frame is an invariant for each value of the part. -/
theorem frame_iff {π : σ → τ} {f : Action σ ω} :
    Frame π f ↔ ∀ x, Keeps (fun _ s => π s = x) f := by
  constructor
  · intro hf x out s hs
    exact (hf s).trans hs
  · intro hf s
    exact hf (π s) [] s rfl

theorem frame_seq {π : σ → τ} {f g : Action σ ω} (hf : Frame π f) (hg : Frame π g) :
    Frame π (seq f g) :=
  fun s => (hg (f s).1).trans (hf s)

theorem frame_guarded {π : σ → τ} {f : Action σ ω} (b : σ → Bool) (hf : Frame π f) :
    Frame π (guarded b f) := by
  intro s
  unfold guarded
  split
  · exact hf s
  · rfl

/-- The action puts out nothing the predicate picks. -/
def Silent (p : ω → Prop) (f : Action σ ω) : Prop := ∀ s, ∀ o ∈ (f s).2, ¬ p o

theorem silent_skip (p : ω → Prop) : Silent p (skip : Action σ ω) := by
  intro s o ho
  cases ho

theorem silent_seq {p : ω → Prop} {f g : Action σ ω} (hf : Silent p f) (hg : Silent p g) :
    Silent p (seq f g) := by
  intro s o ho
  rcases List.mem_append.mp ho with hf' | hg'
  · exact hf s o hf'
  · exact hg _ o hg'

theorem silent_seqAll {p : ω → Prop} : ∀ {fs : List (Action σ ω)},
    (∀ f ∈ fs, Silent p f) → Silent p (seqAll fs)
  | [], _ => silent_skip p
  | f :: _, h =>
      silent_seq (h f (List.mem_cons_self ..))
        (silent_seqAll (fun g hg => h g (List.mem_cons_of_mem _ hg)))

theorem silent_map {p : ω → Prop} {f : α → Action σ ω} {as : List α} (h : ∀ a ∈ as, Silent p (f a)) :
    Silent p (seqAll (as.map f)) := by
  refine silent_seqAll fun g hg => ?_
  obtain ⟨a, ha, rfl⟩ := List.mem_map.mp hg
  exact h a ha

theorem silent_guarded {p : ω → Prop} {f : Action σ ω} (b : σ → Bool) (hf : Silent p f) :
    Silent p (guarded b f) := by
  intro s o ho
  unfold guarded at ho
  split at ho
  · exact hf s o ho
  · cases ho

theorem silent_mono {p q : ω → Prop} {f : Action σ ω} (hpq : ∀ o, q o → p o) (hf : Silent p f) :
    Silent q f :=
  fun s o ho hq => hf s o ho (hpq o hq)

/-- What the predicate picks of the outputs of a list of actions, one for each element of a list. -/
theorem filterMap_seqAll {β γ : Type*} {f : β → Action σ ω} {p : ω → Option γ} {g : β → Option γ}
    (h : ∀ b s, (f b s).2.filterMap p = (g b).toList) : ∀ (bs : List β) (s : σ),
    (seqAll (bs.map f) s).2.filterMap p = bs.filterMap g
  | [], _ => rfl
  | b :: bs, s => by
      rw [List.map_cons, seqAll, seq_snd, List.filterMap_append, h, filterMap_seqAll h bs]
      cases hg : g b with
      | none => simp [hg]
      | some c => simp [hg]

/-- A machine of parts puts out what its parts do: to a reader of this part, what the part puts out. -/
theorem filterMap_own {f : α → ω} (p : ω → Option α) (h : ∀ a, p (f a) = some a) (out : List ω)
    (os : List α) : (out ++ os.map f).filterMap p = out.filterMap p ++ os := by
  have hown : (os.map f).filterMap p = os := by
    rw [List.filterMap_map, show p ∘ f = some from funext h, List.filterMap_some]
  rw [List.filterMap_append, hown]

/-- To a reader of another part, nothing. -/
theorem filterMap_other {β : Type*} {f : α → ω} (p : ω → Option β) (h : ∀ a, p (f a) = none)
    (out : List ω) (os : List α) : (out ++ os.map f).filterMap p = out.filterMap p := by
  have hnone : (os.map f).filterMap p = [] := by
    rw [List.filterMap_map]
    exact List.filterMap_eq_nil_iff.mpr fun a _ => h a
  rw [List.filterMap_append, hnone, List.append_nil]

/-! ### Conditions along a run -/

/-- Every step of the run meets the condition in the state it is taken from. -/
def Along (step : ε → Action σ ω) (C : σ → ε → Prop) : List ε → σ → Prop
  | [], _ => True
  | e :: es, s => C s e ∧ Along step C es (step e s).1

theorem along_append {step : ε → Action σ ω} {C : σ → ε → Prop} : ∀ {es fs : List ε} {s : σ},
    Along step C (es ++ fs) s ↔ Along step C es s ∧ Along step C fs (run step es s).1
  | [], _, _ => by simp [Along]
  | e :: es, fs, s => by
      rw [List.cons_append, Along, Along, along_append, and_assoc]
      rfl

/-- Two conditions along a run are one. -/
theorem along_and {step : ε → Action σ ω} {C D : σ → ε → Prop} : ∀ {es : List ε} {s : σ},
    Along step (fun s e => C s e ∧ D s e) es s ↔ Along step C es s ∧ Along step D es s
  | [], _ => by simp [Along]
  | e :: es, s => by
      rw [Along, Along, Along, along_and, and_and_and_comm]

/-- The condition holds at each split of the run. -/
theorem along_split {step : ε → Action σ ω} {C : σ → ε → Prop} {pre post : List ε} {e : ε} {s : σ}
    (h : Along step C (pre ++ e :: post) s) : C (run step pre s).1 e :=
  (along_append.mp h).2.1

theorem along_of_split {step : ε → Action σ ω} {C : σ → ε → Prop} {es : List ε} {s : σ}
    (h : ∀ pre e post, es = pre ++ e :: post → C (run step pre s).1 e) : Along step C es s := by
  induction es generalizing s with
  | nil => trivial
  | cons e es ih =>
    refine ⟨h [] e es rfl, ih fun pre e' post hes => ?_⟩
    have hC := h (e :: pre) e' post (by rw [hes, List.cons_append])
    simpa [run_cons] using hC

/-- A condition along a run is the condition at each of its splits. -/
theorem along_iff_split {step : ε → Action σ ω} {C : σ → ε → Prop} {es : List ε} {s : σ} :
    Along step C es s ↔ ∀ pre e post, es = pre ++ e :: post → C (run step pre s).1 e :=
  ⟨fun h _ _ _ hes => along_split (hes ▸ h), along_of_split⟩

/-- What holds of all events of a run is a condition along it. -/
theorem along_mem {step : ε → Action σ ω} {C : σ → ε → Prop} {p : ε → Prop} {es : List ε} {s : σ}
    (h : Along step C es s) (hp : ∀ e ∈ es, p e) : Along step (fun s e => C s e ∧ p e) es s := by
  refine along_and.mpr ⟨h, along_of_split fun pre e post hes => hp e ?_⟩
  simp [hes]

/-- All outputs of a run are of a kind if and only if those of each of its steps are. -/
theorem forall_run_iff {step : ε → Action σ ω} {p : ω → Prop} : ∀ {es : List ε} {s : σ},
    (∀ o ∈ (run step es s).2, p o) ↔ Along step (fun s e => ∀ o ∈ (step e s).2, p o) es s
  | [], s => by simp [Along]
  | e :: es, s => by
      rw [run_cons, seq_snd, List.forall_mem_append, Along, forall_run_iff]

/-- A run whose steps all meet the condition keeps what each such step keeps. -/
theorem keeps_along {I : List ω → σ → Prop} {step : ε → Action σ ω} {C : σ → ε → Prop}
    (h : ∀ out s e, I out s → C s e → I (out ++ (step e s).2) (step e s).1) :
    ∀ {es : List ε} {out : List ω} {s : σ}, I out s → Along step C es s →
      I (out ++ (run step es s).2) (run step es s).1
  | [], out, s, hI, _ => by simpa using hI
  | e :: es, out, s, hI, hC => by
      have hrest := keeps_along h (h out s e hI hC.1) hC.2
      rwa [List.append_assoc] at hrest

/-- Every step of the run meets the condition, which may look at what has been put out before. -/
def AlongWith (step : ε → Action σ ω) (C : List ω → σ → ε → Prop) : List ε → List ω → σ → Prop
  | [], _, _ => True
  | e :: es, out, s => C out s e ∧ AlongWith step C es (out ++ (step e s).2) (step e s).1

theorem keeps_alongWith {I : List ω → σ → Prop} {step : ε → Action σ ω} {C : List ω → σ → ε → Prop}
    (h : ∀ out s e, I out s → C out s e → I (out ++ (step e s).2) (step e s).1) :
    ∀ {es : List ε} {out : List ω} {s : σ}, I out s → AlongWith step C es out s →
      I (out ++ (run step es s).2) (run step es s).1
  | [], out, s, hI, _ => by simpa using hI
  | e :: es, out, s, hI, hC => by
      have hrest := keeps_alongWith h (h out s e hI hC.1) hC.2
      rwa [List.append_assoc] at hrest

/-- The exact condition. Let steps that meet `C` keep the invariant `I`, let `I` give the property
    `P`, and let a step that misses `C` lose `P`. Then `P` holds in every state a run reaches exactly
    when every step of the run meets `C`. -/
theorem exact_condition {I P : List ω → σ → Prop} {step : ε → Action σ ω} {C : σ → ε → Prop}
    (hkeep : ∀ out s e, I out s → C s e → I (out ++ (step e s).2) (step e s).1)
    (hprop : ∀ out s, I out s → P out s)
    (hlose : ∀ out s e, I out s → ¬ C s e → ¬ P (out ++ (step e s).2) (step e s).1)
    {s : σ} (hinit : I [] s) (es : List ε) :
    (∀ pre, pre <+: es → P (run step pre s).2 (run step pre s).1) ↔ Along step C es s := by
  constructor
  · intro hP
    induction es using List.reverseRecOn with
    | nil => trivial
    | append_singleton es e ih =>
      have hes : Along step C es s :=
        ih fun pre hpre => hP pre (hpre.trans (List.prefix_append es [e]))
      refine along_append.mpr ⟨hes, ?_, trivial⟩
      -- the invariant has survived up to `e`, so a miss at `e` would lose the property there
      have hI := keeps_along hkeep hinit hes
      rw [List.nil_append] at hI
      by_contra hC
      have hlast := hP (es ++ [e]) (List.prefix_refl _)
      rw [run_concat_fst, run_concat_snd] at hlast
      exact hlose _ _ e hI hC hlast
  · rintro hC pre ⟨post, rfl⟩
    have hI := keeps_along hkeep hinit (along_append.mp hC).1
    exact hprop _ _ (by simpa using hI)

/-! ### Machines that can die -/

/-- A machine that stops reacting at the first observation that kills it; the second component of the
    state says whether that has happened. -/
def mortal (kills : ω → Bool) (step : ε → Action σ ω) (e : ε) : Action (σ × Bool) ω := fun s =>
  if s.2 then (s, []) else (((step e s.1).1, (step e s.1).2.any kills), (step e s.1).2)

@[simp] theorem mortal_dead (kills : ω → Bool) (step : ε → Action σ ω) (e : ε) (s : σ) :
    mortal kills step e (s, true) = ((s, true), []) := rfl

@[simp] theorem mortal_alive (kills : ω → Bool) (step : ε → Action σ ω) (e : ε) (s : σ) :
    mortal kills step e (s, false)
      = (((step e s).1, (step e s).2.any kills), (step e s).2) := rfl

/-- A machine that can die keeps, dead or alive, what it keeps while it lives. -/
theorem keeps_mortal {I : List ω → σ → Prop} {kills : ω → Bool} {step : ε → Action σ ω} {e : ε}
    (h : Keeps I (step e)) : Keeps (fun out s => I out s.1) (mortal kills step e) := by
  rintro out ⟨s, dead⟩ hI
  cases dead with
  | true => simpa using hI
  | false => exact h out s hI

/-- In the states of an invariant two conditions agree; then they agree along every run from one. -/
theorem along_congr {I : σ → Prop} {step : ε → Action σ ω} {C D : σ → ε → Prop}
    (hkeep : ∀ s e, I s → I (step e s).1) (hiff : ∀ s e, I s → (C s e ↔ D s e)) :
    ∀ {es : List ε} {s : σ}, I s → (Along step C es s ↔ Along step D es s)
  | [], _, _ => Iff.rfl
  | e :: es, s, hI => by
      rw [Along, Along, hiff s e hI, along_congr hkeep hiff (hkeep s e hI)]

/-! ### Rounds

    A run may fall into rounds, one after the other, each of which brings the machine one step on.

        s ── round ─▶ s₁ ── round ─▶ s₂ ── round ─▶ …
        n            n + 1          n + 2

    What brings it on may be spread over the round, with anything in between. -/

/-- The run falls into so many rounds. -/
def Rounds (step : ε → Action σ ω) (Round : List ε → σ → Prop) : ℕ → List ε → σ → Prop
  | 0, es, _ => es = []
  | k + 1, es, s =>
    ∃ first rest, es = first ++ rest ∧ Round first s ∧ Rounds step Round k rest (run step first s).1

/-- What each round takes from one step to the next, a run of rounds takes as many steps. -/
theorem rounds_climb {step : ε → Action σ ω} {Round : List ε → σ → Prop} {C : σ → ε → Prop}
    {P : ℕ → List ω → σ → Prop}
    (hround : ∀ {n es out s}, P n out s → Round es s → Along step C es s →
      P (n + 1) (out ++ (run step es s).2) (run step es s).1) :
    ∀ {k n es out s}, P n out s → Rounds step Round k es s → Along step C es s →
      P (n + k) (out ++ (run step es s).2) (run step es s).1
  | 0, n, es, out, s, hP, hrounds, _ => by
      obtain rfl : es = [] := hrounds
      simpa using hP
  | k + 1, n, es, out, s, hP, hrounds, hC => by
      obtain ⟨first, rest, rfl, hfirst, hrest⟩ := hrounds
      obtain ⟨hCfirst, hCrest⟩ := along_append.mp hC
      have hnext := hround hP hfirst hCfirst
      have hlast := rounds_climb hround hnext hrest hCrest
      rw [run_append, seq_fst, seq_snd, ← List.append_assoc]
      rwa [Nat.add_assoc, Nat.add_comm 1 k] at hlast

/-- In a round something is begun, goes on for a while, and is looked at in the end. It takes the machine
    from `P` to `P'` if what is begun is kept up to the look, and the look finds it done. -/
theorem along_round {step : ε → Action σ ω} {C : σ → ε → Prop} {P P' : List ω → σ → Prop}
    (hP : ∀ out s e, P out s → C s e → P (out ++ (step e s).2) (step e s).1)
    (hP' : ∀ out s e, P' out s → C s e → P' (out ++ (step e s).2) (step e s).1)
    {before between after : List ε} {begins looks : ε} {out : List ω} {s : σ}
    (hround : let s₁ := (run step before s).1
      let s₂ := (run step between (step begins s₁).1).1
      ∀ out₁, P out₁ s₁ → C s₁ begins → P' out₁ s₁ ∨ ∃ K : List ω → σ → Prop,
        (∀ out s e, K out s → C s e → K (out ++ (step e s).2) (step e s).1) ∧
        K (out₁ ++ (step begins s₁).2) (step begins s₁).1 ∧
        ∀ out₂, K out₂ s₂ → C s₂ looks → P' (out₂ ++ (step looks s₂).2) (step looks s₂).1)
    (h : P out s) (hes : Along step C (before ++ begins :: (between ++ looks :: after)) s) :
    P' (out ++ (run step (before ++ begins :: (between ++ looks :: after)) s).2)
      (run step (before ++ begins :: (between ++ looks :: after)) s).1 := by
  obtain ⟨hbefore, hbegins, hrest⟩ := along_append.mp hes
  obtain ⟨hwhile, hlooks, hafter⟩ := along_append.mp hrest
  have hbegun := keeps_along hP h hbefore
  rw [run_append, seq_fst, seq_snd, ← List.append_assoc]
  rcases hround _ hbegun hbegins with hdone | ⟨K, hK, hstart, hlook⟩
  · exact keeps_along hP' hdone ⟨hbegins, hrest⟩
  · have hkept := keeps_along hK hstart hwhile
    have hlast := keeps_along hP' (hlook _ hkept hlooks) hafter
    rw [run_cons, seq_fst, seq_snd, run_append, seq_fst, seq_snd, run_cons, seq_fst, seq_snd]
    simpa only [List.append_assoc] using hlast

/-! ### Deadlines

    A machine has a deadline, or zero where there is none. What it announces comes with a deadline; a
    deadline that is there may be put off, and never goes away. So nothing that asks for a deadline to be
    put off asks in vain, if something has been announced before.

        deadline   0 ── announced ──▶ 20 ── put off ──▶ 50 ── put off ──▶ 60
                   └─ put off: in vain -/

section
variable {due : σ → ℕ} {announces vain : ω → Prop} {b : Prop}

/-- If there has been a deadline, or something has been announced, then there is one; and nothing has been
    in vain. -/
structure Dated (due : σ → ℕ) (announces vain : ω → Prop) (b : Prop) (out : List ω) (s : σ) : Prop where
  due_ne_zero : (b ∨ ∃ o ∈ out, announces o) → due s ≠ 0
  spared : ∀ o ∈ out, ¬ vain o

theorem dated_nil (s : σ) : Dated due announces vain (due s ≠ 0) [] s where
  due_ne_zero h := h.resolve_right (by simp)
  spared _ ho := by cases ho

theorem dated_append {out out' : List ω} {s s' : σ} (h : Dated due announces vain b out s)
    (h' : Dated due announces vain (due s ≠ 0) out' s') :
    Dated due announces vain b (out ++ out') s' where
  due_ne_zero := by
    rintro (hb | ⟨o, ho, hannounces⟩)
    · exact h'.due_ne_zero (Or.inl (h.due_ne_zero (Or.inl hb)))
    · rcases List.mem_append.mp ho with hold | hnew
      · exact h'.due_ne_zero (Or.inl (h.due_ne_zero (Or.inr ⟨o, hold, hannounces⟩)))
      · exact h'.due_ne_zero (Or.inr ⟨o, hnew, hannounces⟩)
  spared o ho := (List.mem_append.mp ho).elim (h.spared o) (h'.spared o)

/-- An action keeps a deadline if it does so from each state. -/
theorem keeps_dated {f : Action σ ω}
    (h : ∀ s, Dated due announces vain (due s ≠ 0) (f s).2 (f s).1) :
    Keeps (Dated due announces vain b) f :=
  fun _ s hs => dated_append hs (h s)

/-- An action that leaves the deadline alone, and announces nothing. -/
theorem keeps_dated_of_frame {f : Action σ ω} (hframe : Frame due f)
    (hsilent : Silent (fun o => announces o ∨ vain o) f) :
    Keeps (Dated due announces vain b) f := by
  refine keeps_dated fun s => ⟨?_, fun o ho hvain => hsilent s o ho (Or.inr hvain)⟩
  rintro (hdue | ⟨o, ho, hannounces⟩)
  · rw [hframe]
    exact hdue
  · exact absurd (Or.inl hannounces) (hsilent s o ho)

/-- An action that sets a deadline. -/
theorem keeps_dated_of_set {f : Action σ ω} (hset : ∀ s, due (f s).1 ≠ 0) (hsilent : Silent vain f) :
    Keeps (Dated due announces vain b) f :=
  keeps_dated fun s => ⟨fun _ => hset s, hsilent s⟩

end

end Machine
