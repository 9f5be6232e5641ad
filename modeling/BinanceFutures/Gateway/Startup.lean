import BinanceFutures.Gateway.DropCopy

/-! # Startup of a drop copy

    While its startup download waits, a drop copy is not ready. The classic class looks at its slots on
    every timer; the portfolio class looks only when it is ready.

        timer ──▶ classic:    check_request_queue, then the tasks of a ready stream
              ──▶ portfolio:  ready ? check_request_queue, … -/

namespace BinanceFutures.DropCopy
open Machine

section
variable {R : LimitRequest} (settings : Settings)

/-- The download waits for a slot that has been committed. -/
def Answered (w : World R) (c : Slot) : Prop :=
  w.dropCopy.waiting = true ∧ w.dropCopy.downloadState.slot = some c ∧
    w.request.hasResponse c = true

/-- EXACT: whatever run led to a download that waits for a slot with a response, the next timer on
    which the connection refreshes checks the download exactly if the class is the classic one. The
    portfolio class only looks at its slots once it is ready, and it is not ready while it waits. -/
theorem timer_checks_iff (variant : Variant) (account listenKey : String) (request : Request R)
    (es : List Turn) (c : Slot) (now : Nanos) (d : Dispatcher) (visits : List State)
    (h : Answered (run (turn settings) es (create variant account listenKey request)).1 c) :
    Output.downloadCheck
        (run (turn settings) es (create variant account listenKey request)).1.dropCopy.downloadState ∈
      (step settings (.timer now true d visits)
        (run (turn settings) es (create variant account listenKey request)).1).2
    ↔ variant = .classic := by
  have hrun := run_sound settings es [] _ (sound_create variant account listenKey request ⟨"", 0, 0⟩)
  generalize (run (turn settings) es (create variant account listenKey request)).1 = w at h hrun
  obtain ⟨hwait, hslot, hresponse⟩ := h
  have hstatus := hrun.downloading hwait
  simp only [step, guarded, if_true, timer, hrun.variant_eq]
  cases variant with
  | classic =>
    refine ⟨fun _ => rfl, fun _ => ?_⟩
    -- the queue is checked first, whatever the connection status
    refine List.mem_append_left _ ?_
    simp only [checkRequestQueue, hslot, hresponse, if_true]
    exact List.mem_append_right _ (List.mem_append_left _ (List.mem_singleton_self _))
  | portfolio =>
    refine iff_of_false ?_ (by decide)
    simp [timerPortfolio, guarded, isReady, hstatus]

/-- A drop copy that has asked for the balances, which the order-entry stream has downloaded. -/
def afterBalances (variant : Variant) : World LimitRequest.simple :=
  (run (turn {}) [.own (.ready 0 [.getBalances]), .served .balances true 1, .committed .balances 2]
    (create variant "A1" "key" {})).1

/-- The portfolio class leaves a response that has arrived where it is. -/
theorem portfolio_timer_ignores_response :
    ¬ (Answered (afterBalances .portfolio) .balances →
      Output.downloadCheck .getBalances ∈
        (step {} (.timer 3 true (.knowing none) []) (afterBalances .portfolio)).2) := by
  intro h
  have hmem := h ⟨rfl, rfl, rfl⟩
  revert hmem
  decide

/-- The classic class checks. -/
theorem classic_timer_checks :
    Output.downloadCheck .getBalances ∈
      (step {} (.timer 3 true (.knowing none) []) (afterBalances .classic)).2 :=
  (timer_checks_iff {} .classic "A1" "key" {} _ .balances 3 (.knowing none) []
    ⟨rfl, rfl, rfl⟩).mpr rfl

end

end BinanceFutures.DropCopy
