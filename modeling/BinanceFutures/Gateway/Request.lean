import BinanceFutures.Gateway.Oms
import Mathlib.Logic.Function.Basic

/-! # Request

    The six slots through which a drop copy asks the order-entry stream of its account to download
    something. The drop copy opens a slot, the order-entry stream serves it and commits it.

        request ──▶ pending ── check_pending ──▶ in flight ── commit ──▶ has_response

    The slot itself is `core::limit::Request` of the client library. `LimitRequest` is any such object:
    its calls, and what the gateway relies on about being in flight. -/

namespace BinanceFutures

/-- `core::limit::Request`. The Boolean argument of `checkPending` is what the slot's handler answers
    (`ready` and `can_request`), the Boolean result says whether the callback is run. -/
structure LimitRequest where
  Obj : Type
  init : Obj
  request : Nanos → Obj → Obj
  checkPending : Bool → Nanos → Obj → Bool × Obj
  commit : Nanos → Obj → Obj
  hasResponse : Obj → Bool
  inFlight : Obj → Bool
  inFlight_init : inFlight init = false
  inFlight_request : ∀ t o, inFlight (request t o) = inFlight o
  inFlight_served : ∀ g t o, (checkPending g t o).1 = true →
    inFlight o = false ∧ inFlight (checkPending g t o).2 = true
  inFlight_unserved : ∀ g t o, (checkPending g t o).1 = false →
    inFlight (checkPending g t o).2 = inFlight o
  inFlight_commit : ∀ t o, inFlight (commit t o) = false

namespace LimitRequest

inductive Phase where | idle | pending | inFlight | responded
  deriving DecidableEq

/-- A slot that is served once for each request, and ignores requests while it is in flight. -/
def simple : LimitRequest where
  Obj := Phase
  init := .idle
  request _ o := if o = .inFlight then .inFlight else .pending
  checkPending gate _ o := if gate = true ∧ o = .pending then (true, .inFlight) else (false, o)
  commit _ _ := .responded
  hasResponse o := o = .responded
  inFlight o := o = .inFlight
  inFlight_init := rfl
  inFlight_request t o := by cases o <;> rfl
  inFlight_served gate t o h := by
    split at h
    next hp => simp [hp]
    next => simp at h
  inFlight_unserved gate t o h := by
    split at h
    next => simp at h
    next hp => simp [hp]
  inFlight_commit _ _ := rfl

end LimitRequest

inductive Slot where | balances | positions | positionsPm | openOrders | staleOrders | trades
  deriving DecidableEq

/-- `gateway::Request`, one for each account. -/
structure Request (R : LimitRequest) where
  slot : Slot → R.Obj := fun _ => R.init
  /-- A set: the stale orders to ask about, by user and order id. -/
  detailsStaleOrders : List (UserId × OrderId) := []

namespace Request

variable {R : LimitRequest} (q : Request R) (c c' : Slot) (t : Nanos) (gate : Bool)

def request : Request R := { q with slot := Function.update q.slot c (R.request t (q.slot c)) }

def commit : Request R := { q with slot := Function.update q.slot c (R.commit t (q.slot c)) }

/-- `check_pending`: the slots afterwards. -/
def checkPending : Request R :=
  { q with slot := Function.update q.slot c (R.checkPending gate t (q.slot c)).2 }

/-- `check_pending`: whether the callback runs. -/
def served : Bool := (R.checkPending gate t (q.slot c)).1

def hasResponse : Bool := R.hasResponse (q.slot c)

def inFlight : Bool := R.inFlight (q.slot c)

@[simp] theorem inFlight_new : ({} : Request R).inFlight c = false := R.inFlight_init

@[simp] theorem inFlight_request : (q.request c t).inFlight c' = q.inFlight c' := by
  by_cases h : c' = c
  · subst h; simp [request, inFlight, R.inFlight_request]
  · simp [request, inFlight, h]

theorem inFlight_commit : (q.commit c t).inFlight c' = (q.inFlight c' && decide (c' ≠ c)) := by
  by_cases h : c' = c
  · subst h; simp [commit, inFlight, R.inFlight_commit]
  · simp [commit, inFlight, h]

/-- Serving a slot takes it from not in flight to in flight, and touches no other slot. -/
theorem inFlight_checkPending :
    (q.checkPending c t gate).inFlight c'
      = (q.inFlight c' || (decide (c' = c) && q.served c t gate)) := by
  by_cases h : c' = c
  · subst h
    cases hs : q.served c' t gate with
    | true =>
      have hin := (R.inFlight_served gate t (q.slot c') hs).2
      simp [checkPending, inFlight, hin]
    | false =>
      have hin := R.inFlight_unserved gate t (q.slot c') hs
      simp [checkPending, inFlight, hin]
  · simp [checkPending, inFlight, h]

theorem not_inFlight_of_served (h : q.served c t gate = true) : q.inFlight c = false :=
  (R.inFlight_served gate t (q.slot c) h).1

end Request

end BinanceFutures
