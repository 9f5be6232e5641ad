import BinanceFutures.Schemes.Ledger
import BinanceFutures.Schemes.Machine

/-! # Desks

    A desk is what a client that sends many requests at a time should look like from outside: it keeps a
    table of the requests that have not been answered, and reports about an answer what the answer means
    for the request it belongs to.

        ask a ──▶ (n, a) in the table ── answer n b ──▶ report a b
                           └─────────── hang up ──▶ nothing

    A client that gets along without a table is compared with a desk over what both put out. -/

namespace Desk
open Machine

variable {α β γ δ : Type*}

inductive Event (α β : Type*) where
  | ask (a : α)
  | answer (n : ℕ) (b : β)
  | hangUp

def step (report : α → β → List γ) : Event α β → Action (Ledger α) γ
  | .ask a => modify (·.enter a)
  | .answer n b => fun l =>
    match l.find n with
    | none => (l, [])
    | some a => (l.settle n, report a b)
  | .hangUp => modify (·.clear)

/-- The client and the desk have the same requests in hand, and have reported the same. `owed` is what
    the client has still to report about the answer it is handling. -/
structure Agrees (report : α → β → List γ) (observe : δ → Option (Event α β))
    (reported : δ → Option γ) (owed : List γ) (out : List δ) (l : Ledger α) : Prop where
  table : (run (step report) (out.filterMap observe) .empty).1 = l
  reports : (run (step report) (out.filterMap observe) .empty).2 = out.filterMap reported ++ owed

variable {report : α → β → List γ} {observe : δ → Option (Event α β)} {reported : δ → Option γ}
  {owed : List γ} {out : List δ} {l : Ledger α}

theorem agrees_empty : Agrees report observe reported [] [] .empty := ⟨rfl, rfl⟩

/-- Outputs that the desk knows nothing about. -/
theorem agrees_append {os : List δ} (h : Agrees report observe reported owed out l)
    (hobserve : ∀ o ∈ os, observe o = none) (hreported : ∀ o ∈ os, reported o = none) :
    Agrees report observe reported owed (out ++ os) l := by
  have hevents : (out ++ os).filterMap observe = out.filterMap observe := by
    rw [List.filterMap_append, List.filterMap_eq_nil_iff.mpr hobserve, List.append_nil]
  have hreports : (out ++ os).filterMap reported = out.filterMap reported := by
    rw [List.filterMap_append, List.filterMap_eq_nil_iff.mpr hreported, List.append_nil]
  exact ⟨by rw [hevents]; exact h.table, by rw [hevents, hreports]; exact h.reports⟩

/-- An output that the desk observes. -/
theorem agrees_observe {o : δ} {e : Event α β} (h : Agrees report observe reported owed out l)
    (hobserve : observe o = some e) (hreported : reported o = none) :
    Agrees report observe reported (owed ++ (step report e l).2) (out ++ [o]) (step report e l).1 := by
  have hevents : (out ++ [o]).filterMap observe = out.filterMap observe ++ [e] := by
    rw [List.filterMap_append, List.filterMap_cons_some hobserve, List.filterMap_nil]
  have hreports : (out ++ [o]).filterMap reported = out.filterMap reported := by
    rw [List.filterMap_append, List.filterMap_cons_none hreported, List.filterMap_nil,
      List.append_nil]
  constructor
  · rw [hevents, run_concat_fst, h.table]
  · rw [hevents, run_concat_snd, h.table, h.reports, hreports, List.append_assoc]

/-- The client reports what it owes. -/
theorem agrees_report {o : δ} {c : γ} (h : Agrees report observe reported [c] out l)
    (hobserve : observe o = none) (hreported : reported o = some c) :
    Agrees report observe reported [] (out ++ [o]) l := by
  have hevents : (out ++ [o]).filterMap observe = out.filterMap observe := by
    rw [List.filterMap_append, List.filterMap_cons_none hobserve, List.filterMap_nil,
      List.append_nil]
  have hreports : (out ++ [o]).filterMap reported = out.filterMap reported ++ [c] := by
    rw [List.filterMap_append, List.filterMap_cons_some hreported, List.filterMap_nil]
  exact ⟨by rw [hevents]; exact h.table, by rw [hevents, hreports, h.reports, List.append_nil]⟩

end Desk
