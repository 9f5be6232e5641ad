import BinanceFutures.Basics
import BinanceFutures.Schemes.Machine
import Mathlib.Order.MinMax

/-! # Throttle

    The interceptor that every connection asks before it sends: nothing goes out before
    `suspend_until_`. A 403 suspends for ten minutes, a 429 for five seconds.

        403 ──▶ max(suspend_until_, now + 10min)
        429 ──▶ suspend_until_ = 0 ?  ──yes──▶ now + 5s
                                      ──no───▶ unchanged

    The deadline starts at zero and no step takes it back there, so the test of a 429 passes at most
    once in the life of the process. What the deadline is after a run is therefore a matter of the
    403s and of the first penalty alone (`le_deadline_iff`), and `keepsPenalties_iff` says which
    sequences of responses keep the promise of both penalties. -/

namespace BinanceFutures
open Machine

/-- note! maybe as low as 1 second -/
def defaultBackoff : Nanos := seconds 5

/-- note! very serious -/
def blockedBackoff : Nanos := seconds 600

structure Throttle where
  enabled : Bool
  suspendUntil : Nanos := 0

/-- The end of a REST response: its status, and the system clock when it is processed. -/
structure MessageEnd where
  status : ℕ
  now : Nanos
  deriving DecidableEq

/-- A 403 or a 429. -/
def MessageEnd.penalizes (m : MessageEnd) : Bool :=
  m.status == forbidden || m.status == tooManyRequests

namespace Throttle

/-- `operator()(MessageEnd)`; the response is put out as processed. -/
def messageEnd (m : MessageEnd) : Action Throttle MessageEnd := fun th =>
  if th.enabled = false then (th, [m])
  else if m.status = forbidden then
    ({ th with suspendUntil := max th.suspendUntil (m.now + blockedBackoff) }, [m])
  else if m.status = tooManyRequests then
    if th.suspendUntil = 0 then ({ th with suspendUntil := m.now + defaultBackoff }, [m])
    else (th, [m])
  else (th, [m])

/-- Both penalties of what was processed so far are in the deadline. -/
def Suspended (out : List MessageEnd) (th : Throttle) : Prop :=
  ∀ m ∈ out, (m.status = forbidden → m.now + blockedBackoff ≤ th.suspendUntil) ∧
    (m.status = tooManyRequests → m.now + defaultBackoff ≤ th.suspendUntil)

/-- The promise about a run of an enabled throttle: after every response both penalties hold, and no
    response moves the deadline back. -/
def KeepsPenalties (ms : List MessageEnd) : Prop :=
  (∀ pre, pre <+: ms → Suspended (run messageEnd pre ⟨true, 0⟩).2 (run messageEnd pre ⟨true, 0⟩).1) ∧
  ∀ pre m, pre ++ [m] <+: ms → (run messageEnd pre ⟨true, 0⟩).1.suspendUntil
    ≤ (run messageEnd (pre ++ [m]) ⟨true, 0⟩).1.suspendUntil

/-- What makes the five seconds of a 429 good after the responses `pre`: no penalty came before it, a
    403 came at most 595 seconds before it, or it is no later than a 429 that was the first penalty. -/
inductive Covered (pre : List MessageEnd) (m : MessageEnd) : Prop
  | first (h : ∀ p ∈ pre, p.penalizes = false)
  | banned (p : MessageEnd) (hmem : p ∈ pre) (h403 : p.status = forbidden)
      (hage : m.now ≤ p.now + seconds 595)
  | atFirst (p : MessageEnd) (hfirst : pre.find? MessageEnd.penalizes = some p)
      (h429 : p.status = tooManyRequests) (hage : m.now ≤ p.now)

/-- The deadline of an enabled throttle after the responses. -/
def deadline (ms : List MessageEnd) : Nanos := (run messageEnd ms ⟨true, 0⟩).1.suspendUntil

/-! ### What one response does -/

@[simp] theorem messageEnd_snd (m : MessageEnd) (th : Throttle) : (messageEnd m th).2 = [m] := by
  unfold messageEnd
  repeat' split
  all_goals rfl

@[simp] theorem messageEnd_enabled (m : MessageEnd) (th : Throttle) :
    (messageEnd m th).1.enabled = th.enabled := by
  unfold messageEnd
  repeat' split
  all_goals rfl

theorem forbidden_ne : forbidden ≠ tooManyRequests := by decide

/-- The deadline of an enabled throttle after a response, one case each. -/
theorem messageEnd_cases (m : MessageEnd) (th : Throttle) (hen : th.enabled = true) :
    (m.status = forbidden ∧
      (messageEnd m th).1.suspendUntil = max th.suspendUntil (m.now + blockedBackoff)) ∨
    (m.status = tooManyRequests ∧ th.suspendUntil = 0 ∧
      (messageEnd m th).1.suspendUntil = m.now + defaultBackoff) ∨
    (m.status = tooManyRequests ∧ th.suspendUntil ≠ 0 ∧
      (messageEnd m th).1.suspendUntil = th.suspendUntil) ∨
    (m.status ≠ forbidden ∧ m.status ≠ tooManyRequests ∧
      (messageEnd m th).1.suspendUntil = th.suspendUntil) := by
  have hon : ¬ th.enabled = false := by simp [hen]
  unfold messageEnd
  rw [if_neg hon]
  by_cases h403 : m.status = forbidden
  · exact Or.inl ⟨h403, by rw [if_pos h403]⟩
  · rw [if_neg h403]
    by_cases h429 : m.status = tooManyRequests
    · rw [if_pos h429]
      by_cases hz : th.suspendUntil = 0
      · exact Or.inr (Or.inl ⟨h429, hz, by rw [if_pos hz]⟩)
      · exact Or.inr (Or.inr (Or.inl ⟨h429, hz, by rw [if_neg hz]⟩))
    · exact Or.inr (Or.inr (Or.inr ⟨h403, h429, by rw [if_neg h429]⟩))

/-- No response moves the deadline back. -/
theorem suspendUntil_mono (m : MessageEnd) (th : Throttle) (hen : th.enabled = true) :
    th.suspendUntil ≤ (messageEnd m th).1.suspendUntil := by
  rcases messageEnd_cases m th hen with ⟨_, h⟩ | ⟨_, hz, h⟩ | ⟨_, _, h⟩ | ⟨_, _, h⟩
  · rw [h]; exact le_max_left _ _
  · rw [h, hz]; exact Nat.zero_le _
  · exact h.ge
  · exact h.ge

/-! ### Runs -/

theorem enabled_run (ms : List MessageEnd) : (run messageEnd ms ⟨true, 0⟩).1.enabled = true := by
  induction ms using List.reverseRecOn with
  | nil => rfl
  | append_singleton ms m ih => rw [run_concat_fst, messageEnd_enabled, ih]

/-- Every response is put out. -/
@[simp] theorem run_snd (ms : List MessageEnd) (th : Throttle) : (run messageEnd ms th).2 = ms := by
  induction ms generalizing th with
  | nil => rfl
  | cons m ms ih => rw [run_cons, seq_snd, messageEnd_snd, ih, List.singleton_append]

theorem deadline_mono (pre : List MessageEnd) (m : MessageEnd) :
    deadline pre ≤ deadline (pre ++ [m]) := by
  unfold deadline
  rw [run_concat_fst]
  exact suspendUntil_mono m _ (enabled_run pre)

/-- `messageEnd_cases` in the words of the deadline. -/
theorem deadline_concat (pre : List MessageEnd) (m : MessageEnd) :
    (m.status = forbidden ∧ deadline (pre ++ [m]) = max (deadline pre) (m.now + blockedBackoff)) ∨
    (m.status = tooManyRequests ∧ deadline pre = 0 ∧
      deadline (pre ++ [m]) = m.now + defaultBackoff) ∨
    (m.status = tooManyRequests ∧ deadline pre ≠ 0 ∧ deadline (pre ++ [m]) = deadline pre) ∨
    (m.status ≠ forbidden ∧ m.status ≠ tooManyRequests ∧
      deadline (pre ++ [m]) = deadline pre) := by
  unfold deadline
  rw [run_concat_fst]
  exact messageEnd_cases m _ (enabled_run pre)

theorem penalizes_iff {m : MessageEnd} :
    m.penalizes = true ↔ m.status = forbidden ∨ m.status = tooManyRequests := by
  simp [MessageEnd.penalizes]

/-- The first penalty after one more response: the one of before, or this one. -/
theorem first_concat_iff {pre : List MessageEnd} {m p : MessageEnd} :
    (pre ++ [m]).find? MessageEnd.penalizes = some p ↔
      pre.find? MessageEnd.penalizes = some p ∨
        pre.find? MessageEnd.penalizes = none ∧ m.penalizes = true ∧ p = m := by
  rw [List.find?_append]
  cases hpre : pre.find? MessageEnd.penalizes with
  | some q => simp
  | none =>
    rw [Option.none_or]
    by_cases hm : m.penalizes = true
    · simp [hm, eq_comm]
    · simp [hm]

theorem first_concat_eq_none_iff {pre : List MessageEnd} {m : MessageEnd} :
    (pre ++ [m]).find? MessageEnd.penalizes = none ↔
      pre.find? MessageEnd.penalizes = none ∧ m.penalizes = false := by
  simp [List.find?_append, Option.or_eq_none_iff]

theorem backoff_pos (now : Nanos) : 0 < now + blockedBackoff ∧ 0 < now + defaultBackoff :=
  ⟨Nat.add_pos_right _ (by decide), Nat.add_pos_right _ (by decide)⟩

/-- The deadline is zero as long as no penalty has come. -/
theorem deadline_eq_zero_iff (ms : List MessageEnd) :
    deadline ms = 0 ↔ ms.find? MessageEnd.penalizes = none := by
  induction ms using List.reverseRecOn with
  | nil => simp [deadline]
  | append_singleton pre m ih =>
    rw [first_concat_eq_none_iff, ← ih]
    rcases deadline_concat pre m with ⟨hs, h⟩ | ⟨hs, hz, h⟩ | ⟨hs, hz, h⟩ | ⟨h₁, h₂, h⟩
    · have hp : m.penalizes = true := penalizes_iff.mpr (Or.inl hs)
      have hpos := Nat.lt_of_lt_of_le (backoff_pos m.now).1 (le_max_right (deadline pre) _)
      simp only [h, hp, hpos.ne', Bool.true_eq_false, and_false]
    · have hp : m.penalizes = true := penalizes_iff.mpr (Or.inr hs)
      simp only [h, hp, (backoff_pos m.now).2.ne', Bool.true_eq_false, and_false]
    · simp only [h, hz, false_and]
    · have hp : m.penalizes = false := by simp [MessageEnd.penalizes, h₁, h₂]
      simp [h, hp]

/-- The deadline after a run is the latest of what its 403s ask for and of what its first penalty
    asks for where that is a 429. -/
theorem le_deadline_iff (ms : List MessageEnd) {t : Nanos} (ht : 0 < t) :
    t ≤ deadline ms ↔
      (∃ p ∈ ms, p.status = forbidden ∧ t ≤ p.now + blockedBackoff) ∨
      ∃ p, ms.find? MessageEnd.penalizes = some p ∧ p.status = tooManyRequests ∧
        t ≤ p.now + defaultBackoff := by
  induction ms using List.reverseRecOn with
  | nil => simp [deadline, ht.ne']
  | append_singleton pre m ih =>
    have hne := forbidden_ne
    simp only [first_concat_iff, List.mem_append, List.mem_singleton, or_and_right, exists_or,
      and_assoc, exists_eq_left]
    rcases deadline_concat pre m with ⟨hs, h⟩ | ⟨hs, hz, h⟩ | ⟨hs, hz, h⟩ | ⟨h₁, h₂, h⟩
    · -- a 403: the later of the two deadlines; it is not the first 429
      rw [h, le_max_iff, ih]
      have hnot : ¬ ∃ x, pre.find? MessageEnd.penalizes = none ∧ m.penalizes = true ∧ x = m ∧
          x.status = tooManyRequests ∧ t ≤ x.now + defaultBackoff := by
        rintro ⟨x, _, _, rfl, hx, _⟩
        exact hne (hs.symm.trans hx)
      simp only [hs, hnot, true_and, or_false]
      exact or_right_comm
    · -- the first penalty of all, a 429
      have hnone := (deadline_eq_zero_iff pre).mp hz
      have hno : ¬ t ≤ deadline pre := by rw [hz]; exact ht.not_ge
      rw [ih] at hno
      have hold : ¬ ∃ p ∈ pre, p.status = forbidden ∧ t ≤ p.now + blockedBackoff :=
        fun hp => hno (Or.inl hp)
      simp [h, hnone, hs, hne.symm, hold, MessageEnd.penalizes]
    · -- a later 429: nothing moves
      have hsome : pre.find? MessageEnd.penalizes ≠ none := fun hn =>
        hz ((deadline_eq_zero_iff pre).mpr hn)
      simp [h, ih, hsome, hs, hne.symm]
    · simp [h, ih, h₁, h₂]

theorem seconds_595 : seconds 595 + defaultBackoff = blockedBackoff := rfl

/-- After a prefix of a run whose 429s are all covered, both penalties are in the deadline. -/
theorem suspended_of_covered {ms : List MessageEnd}
    (h : ∀ pre m, pre ++ [m] <+: ms → m.status = tooManyRequests → Covered pre m) :
    ∀ m ∈ ms, (m.status = forbidden → m.now + blockedBackoff ≤ deadline ms) ∧
      (m.status = tooManyRequests → m.now + defaultBackoff ≤ deadline ms) := by
  intro m hm
  refine ⟨fun hs => ?_, fun hs => ?_⟩
  · exact (le_deadline_iff ms (backoff_pos m.now).1).mpr (Or.inl ⟨m, hm, hs, le_refl _⟩)
  · obtain ⟨pre, post, rfl⟩ := List.append_of_mem hm
    have hpre : pre ++ [m] <+: pre ++ m :: post := ⟨post, by simp⟩
    refine (le_deadline_iff _ (backoff_pos m.now).2).mpr ?_
    cases h pre m hpre hs with
    | first hnone =>
      refine Or.inr ⟨m, ?_, hs, le_refl _⟩
      rw [List.find?_append, List.find?_eq_none.mpr (by simpa using hnone), Option.none_or,
        List.find?_cons_of_pos (penalizes_iff.mpr (Or.inr hs))]
    | banned p hmem hp hage =>
      refine Or.inl ⟨p, List.mem_append_left _ hmem, hp, ?_⟩
      rw [← seconds_595, ← Nat.add_assoc]
      exact Nat.add_le_add_right hage _
    | atFirst p hfirst hp hage =>
      refine Or.inr ⟨p, ?_, hp, Nat.add_le_add_right hage _⟩
      rw [List.find?_append, hfirst, Option.some_or]

/-- A 429 whose five seconds are in the deadline is covered by what came before it. -/
theorem covered_of_suspended {pre : List MessageEnd} {m : MessageEnd} (hs : m.status = tooManyRequests)
    (h : m.now + defaultBackoff ≤ deadline (pre ++ [m])) : Covered pre m := by
  rcases (le_deadline_iff _ (backoff_pos m.now).2).mp h with ⟨p, hmem, hp, ht⟩ | ⟨p, hfirst, hp, ht⟩
  · rcases List.mem_append.mp hmem with hpre | hnew
    · rw [← seconds_595, ← Nat.add_assoc] at ht
      exact Covered.banned p hpre hp (Nat.le_of_add_le_add_right ht)
    · rw [List.mem_singleton.mp hnew, hs] at hp
      exact absurd hp.symm forbidden_ne
  · rcases first_concat_iff.mp hfirst with hpre | ⟨hnone, _, _⟩
    · exact Covered.atFirst p hpre hp (Nat.le_of_add_le_add_right ht)
    · exact Covered.first (by simpa using List.find?_eq_none.mp hnone)

/-- EXACT: a run keeps both penalties after every response, and its deadline never moves back,
    exactly when every 429 is the first penalty, comes at most 595 seconds after a 403, or is no later
    than the 429 that was the first penalty. -/
theorem keepsPenalties_iff (ms : List MessageEnd) :
    KeepsPenalties ms ↔
      ∀ pre m, pre ++ [m] <+: ms → m.status = tooManyRequests → Covered pre m := by
  constructor
  · rintro ⟨hkeep, _⟩ pre m hpre hs
    have hsusp := hkeep (pre ++ [m]) hpre m (by simp)
    exact covered_of_suspended hs (hsusp.2 hs)
  · intro hcov
    refine ⟨fun pre hpre => ?_, fun pre m _ => deadline_mono pre m⟩
    rw [run_snd]
    exact suspended_of_covered fun pre' m hm => hcov pre' m (hm.trans hpre)

/-- Two 429 responses a hundred seconds apart: the second one does not suspend anything. -/
theorem repeated_429_not_suspended :
    ¬ KeepsPenalties [⟨429, seconds 1⟩, ⟨429, seconds 101⟩] := by
  rintro ⟨h, _⟩
  have hlast := (h _ (List.prefix_refl _) ⟨429, seconds 101⟩ (by decide)).2 rfl
  revert hlast
  decide

end Throttle

end BinanceFutures
