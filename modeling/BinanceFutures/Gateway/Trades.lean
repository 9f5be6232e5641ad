import BinanceFutures.Gateway.Batches
import BinanceFutures.Gateway.DropCopy

/-! # Downloads of trades

    The callback of `trades` asks for the trades of every configured symbol, and the drop copy waits for
    the slot's response before it is ready. Nobody counts the answers: each of them commits the slot.

        served ─▶ GET userTrades A, GET userTrades B
                  answer A ─▶ commit ─▶ the drop copy goes on, B outstanding

    `inOrder_iff` says that this goes wrong exactly where more than one symbol is configured. Its runs may
    open the slot at any time; the drop copy opens it only where there is a lookback. -/

namespace BinanceFutures

/-- A slot has a response only while it is not in flight. -/
def LimitRequest.Settles (R : LimitRequest) : Prop :=
  ∀ o, R.hasResponse o = true → R.inFlight o = false

theorem LimitRequest.simple_settles : LimitRequest.simple.Settles := by
  intro o ho
  cases o with
  | responded => rfl
  | idle | pending | inFlight => cases ho

namespace RestStream
open Machine

section
variable {R : LimitRequest} (settings : Settings)

/-- No answer about trades is outstanding. -/
def NoTrades (w : World R) : Prop := ∀ n symbol, (n, .userTrades symbol) ∉ w.stream.calls.entries

/-- The last batch has asked for the trades of every configured symbol, and all has been answered. -/
def AllAnswered (out : List Output) (w : World R) : Prop :=
  (∀ symbol ∈ settings.download.symbols, ∃ n ∈ lastBatch .trades out,
    Output.request n (.userTrades symbol) ∈ out) ∧ NoTrades w

/-- In every state that a run of the stream reaches while the process lives: the next turn commits the
    slot only if all trades have been answered then, and a drop copy of the account that waits for the
    trades goes on only if all have been answered. -/
def InOrder (R : LimitRequest) (kind : Kind) (account : String) : Prop :=
  ∀ es : List Turn,
    let s := run (mortal kills (turn settings)) es (create (R := R) kind account {}, false)
    s.1.2 = false →
      (∀ e, Committed .trades (turn settings e s.1.1).2 →
        AllAnswered settings s.2 (turn settings e s.1.1).1) ∧
      ∀ (dropCopy : DropCopy) now d visits,
        DropCopy.Output.downloadCheck .getTrades ∈
          (DropCopy.checkRequestQueue settings now d visits ⟨dropCopy, s.1.1.request⟩).2 →
        NoTrades s.1.1

theorem slot_trades {call : Call} : call.slot = some .trades ↔ ∃ symbol, call = .userTrades symbol := by
  constructor
  · intro h
    cases call with
    | userTrades symbol => exact ⟨symbol, rfl⟩
    | accountBalance polling => cases polling <;> cases h
    | _ => cases h
  · rintro ⟨symbol, rfl⟩
    rfl

theorem noTrades_iff {w : World R} :
    NoTrades w ↔ ∀ n call, (n, call) ∈ w.stream.calls.entries → call.slot ≠ some .trades := by
  constructor
  · intro h n call hmem hslot
    obtain ⟨symbol, rfl⟩ := slot_trades.mp hslot
    exact h n symbol hmem
  · exact fun h n symbol hmem => h n _ hmem rfl

theorem trades_mem_slots (kind : Kind) : .trades ∈ kind.slots := by cases kind <;> decide

/-! ### One symbol -/

/-- At most one request about trades is outstanding. -/
structure Single (kind : Kind) (owed : Option Slot) (out : List Output) (w : World R) : Prop where
  kind_eq : w.stream.kind = kind
  batched : Batched .trades owed out w
  few : (lastBatch .trades out).length ≤ 1
  /-- The answer that is being handled is to the only one. -/
  alone : owed = some .trades → NoTrades w
  asked : lastBatch .trades out ≠ [] → ∀ symbol ∈ settings.download.symbols,
    ∃ n ∈ lastBatch .trades out, Output.request n (.userTrades symbol) ∈ out

variable {settings} {kind : Kind} {owed : Option Slot} {out : List Output} {w : World R}

/-- Where nothing is asked for on the slot, only its batch has to be looked at. -/
theorem single_of_batched {os : List Output} {w' : World R} {owed' : Option Slot}
    (h : Single settings kind owed out w) (hkind : w'.stream.kind = w.stream.kind)
    (hbatched : Batched .trades owed' (out ++ os) w')
    (hbatch : lastBatch .trades (out ++ os) = lastBatch .trades out)
    (halone : owed' = some .trades → NoTrades w') : Single settings kind owed' (out ++ os) w' where
  kind_eq := hkind.trans h.kind_eq
  batched := hbatched
  few := by rw [hbatch]; exact h.few
  alone := halone
  asked := by
    rw [hbatch]
    intro hne symbol hsymbol
    obtain ⟨n, hn, hmem⟩ := h.asked hne symbol hsymbol
    exact ⟨n, hn, List.mem_append_left _ hmem⟩

theorem single_of_tame {loud : Bool} {f : Act R} (hf : Tame loud f) :
    Keeps (Single settings kind owed) f := by
  intro out w h
  have haside := hf.aside w
  refine single_of_batched h haside.kind_eq (batched_of_tame hf h.batched)
    (lastBatch_quiet _ fun o ho => quiet_of_ordinary (haside.ordinary o ho)) fun howed n symbol hmem => ?_
  rw [haside.calls_eq] at hmem
  rcases Ledger.mem_enterAll hmem with hold | ⟨-, hnew⟩
  · exact h.alone howed n symbol hold
  · cases slot_of_ordinary haside.ordinary hnew

/-- The answered call is the only one about trades. -/
theorem single_settle {n : ℕ} {call : Call} (h : Single settings kind none out w)
    (hmem : (n, call) ∈ w.stream.calls.entries) :
    Single settings kind call.slot out { w with stream.calls := w.stream.calls.settle n } := by
  refine ⟨h.kind_eq, batched_settle h.batched hmem, h.few, fun hslot n' symbol hmem' => ?_, h.asked⟩
  obtain ⟨hold, hne⟩ := Ledger.mem_settle.mp hmem'
  have hn := h.batched.batch n call hmem hslot
  have hn' := h.batched.batch n' _ hold rfl
  obtain ⟨m, hm⟩ := List.length_eq_one_iff.mp (le_antisymm h.few (List.length_pos_of_mem hn))
  rw [hm, List.mem_singleton] at hn hn'
  exact hne (hn'.trans hn.symm)

/-- A commit of the slot is of an answer to the only request, and other commits do not matter. -/
theorem single_commit (c : Slot) (call : Call) (now : Nanos) (howed : c = .trades → owed = some .trades)
    {w₁ : World R} (h : Single settings kind owed out w) (hkind : w₁.stream.kind = w.stream.kind)
    (hcalls : w₁.stream.calls = w.stream.calls) (hrequest : w₁.request = w.request) :
    Single settings kind none (out ++ (commit c call now w₁).2) (commit c call now w₁).1 := by
  refine single_of_batched h hkind ?_ (lastBatch_commit _ _ _ _) nofun
  refine batched_commit now (h.batched.congr hcalls hrequest) fun hc => ?_
  rw [hcalls]
  exact noTrades_iff.mp (h.alone (howed hc))

/-- Nothing is owed to the slot any more. -/
theorem single_skip {w₁ : World R} (h : Single settings kind owed out w)
    (hkind : w₁.stream.kind = w.stream.kind) (hcalls : w₁.stream.calls = w.stream.calls)
    (hrequest : w₁.request = w.request) : Single settings kind none (out ++ []) w₁ := by
  refine single_of_batched h hkind ?_ (by rw [List.append_nil]) nofun
  rw [List.append_nil]
  exact h.batched.unowed.congr hcalls hrequest

theorem single_closing (now : Nanos) (call : Call) :
    Triple (Single (R := R) settings kind call.slot) (closing kind now call)
      (Single settings kind none) := by
  intro out w h
  cases call with
  | accountBalance polling =>
    cases polling with
    | true => exact single_skip h rfl rfl rfl
    | false => exact single_commit _ _ now (by simp) h rfl rfl rfl
  | accountStatus | position | openOrders => exact single_commit _ _ now (by simp) h rfl rfl rfl
  | userTrades symbol => exact single_commit _ _ now (fun _ => rfl) h rfl rfl rfl
  | order clientOrderId =>
    simp only [closing, orderAnswered]
    split
    · exact single_commit .staleOrders _ now (by simp) h rfl rfl rfl
    · exact single_skip h rfl rfl rfl
  | listenKey | orderPlace | orderModify | orderCancel | allOpenOrders | countdownCancelAll =>
    exact single_skip h rfl rfl rfl

theorem single_kept : Kept (R := R) kind (Single settings kind) where
  kind_eq h := h.kind_eq
  tame hf _ := single_of_tame hf
  request h hin := ⟨h.kind_eq, batched_of_request h.batched (hin _ (trades_mem_slots kind)), h.few, h.alone,
    h.asked⟩
  settle := single_settle
  closing := single_closing

/-! ### Callbacks -/

/-- Requests that go out one after the other are entered one after the other. -/
theorem calls_sendAll (calls : List Call) (w : World R) :
    (seqAll (calls.map send) w).1.stream.calls = w.stream.calls.enterAll calls := by
  induction calls generalizing w with
  | nil => rfl
  | cons call calls ih => exact ih (send call w).1

/-- Each of them goes out under a number of its own. -/
theorem request_sendAll {call : Call} {calls : List Call} (hcall : call ∈ calls) (w : World R) :
    ∃ n, w.stream.calls.next ≤ n ∧ n < (seqAll (calls.map send) w).1.stream.calls.next ∧
      Output.request n call ∈ (seqAll (calls.map send) w).2 := by
  induction calls generalizing w with
  | nil => cases hcall
  | cons call' calls ih =>
    rcases List.mem_cons.mp hcall with rfl | htail
    · refine ⟨w.stream.calls.next, le_refl _, ?_, List.mem_cons_self ..⟩
      rw [calls_sendAll]
      exact Ledger.next_le_enterAll (w.stream.calls.enter call) calls
    · obtain ⟨n, hle, hlt, hmem⟩ := ih htail (send call' w).1
      exact ⟨n, Nat.le_of_succ_le hle, hlt, List.mem_cons_of_mem _ hmem⟩

theorem serve_trades (hkind : kind ≠ .restTrade) (d : Dispatcher) :
    serve (R := R) settings kind d .trades
      = seqAll ((settings.download.symbols.map Call.userTrades).map send) := by
  rw [List.map_map]
  cases kind with
  | restTrade => exact absurd rfl hkind
  | orderEntryClassic | orderEntryPortfolio => rfl

theorem single_steady (hkind : kind ≠ .restTrade) (hone : settings.download.symbols.length ≤ 1) :
    Steady (R := R) settings kind (Single settings kind) where
  toKept := single_kept
  served := by
    intro out w c now gate d h hserved r
    have hr := serve_served settings d c { w with request := w.request.checkPending c now gate }
    rw [h.kind_eq] at hr
    have hbatched := batched_served now gate h.batched hserved hr
    have hlast : lastBatch .trades (out ++ (r.2 ++ [.callback c (issued w.stream.calls r.1.stream.calls)]))
        = if c = .trades then issued w.stream.calls r.1.stream.calls else lastBatch .trades out := by
      rw [← List.append_assoc, lastBatch_callback, lastBatch_quiet _ hr.quiet]
    by_cases hc : c = .trades
    · -- the batch is one request for each symbol
      subst hc
      rw [if_pos rfl] at hlast
      have hserve : r = seqAll ((settings.download.symbols.map Call.userTrades).map send)
          { w with request := w.request.checkPending .trades now gate } :=
        congrFun (serve_trades hkind d) _
      have hnext : r.1.stream.calls.next = w.stream.calls.next + settings.download.symbols.length := by
        rw [hserve, calls_sendAll, Ledger.next_enterAll, List.length_map]
      refine ⟨hr.kind_eq.trans h.kind_eq, hbatched, ?_, nofun, fun _ symbol hsymbol => ?_⟩
      · rw [hlast, issued, List.length_range', hnext]
        omega
      · obtain ⟨n, hle, hlt, hmem⟩ := request_sendAll (List.mem_map.mpr ⟨symbol, hsymbol, rfl⟩)
          { w with request := w.request.checkPending .trades now gate }
        rw [← hserve] at hlt hmem
        refine ⟨n, ?_, List.mem_append_right _ (List.mem_append_left _ hmem)⟩
        rw [hlast, issued, List.mem_range'_1]
        exact ⟨hle, by omega⟩
    · rw [if_neg hc] at hlast
      exact single_of_batched h hr.kind_eq hbatched hlast nofun

/-- With one symbol the slot is committed once its trades have been answered. -/
theorem inOrder_of_single (hR : R.Settles) (hkind : kind ≠ .restTrade)
    (hone : settings.download.symbols.length ≤ 1) (account : String) :
    InOrder settings R kind account := by
  intro es s halive
  have hsteady := single_steady (R := R) hkind hone
  have hinit : Single settings kind none [] (create (R := R) kind account {}) :=
    ⟨rfl, batched_create kind account, by simp, nofun, fun hne => absurd rfl hne⟩
  have h : Single settings kind none s.2 s.1.1 :=
    (hsteady.run hinit es).resolve_left (by rw [halive]; nofun)
  refine ⟨fun e hcommitted => ⟨?_, ?_⟩, fun dropCopy now d visits hcheck => ?_⟩
  · obtain ⟨⟨n, call, r, env, d, rfl, hmem, hcloses⟩, -⟩ := committed_turn settings hcommitted
    have hslot : call.slot = some .trades := by
      rw [h.kind_eq] at hcloses
      cases call with
      | userTrades symbol => rfl
      | _ => exact hcloses
    exact h.asked (List.ne_nil_of_mem (h.batched.batch n call hmem hslot))
  · obtain ⟨-, hflight, hfatal⟩ := committed_turn settings hcommitted
    have hafter := (hsteady.step e s.2 s.1.1 h).resolve_left hfatal
    exact noTrades_iff.mpr (hafter.batched.idle hflight).2
  · have hflight := hR _ (DropCopy.hasResponse_of_check settings rfl hcheck)
    exact noTrades_iff.mpr (h.batched.idle hflight).2

/-! ### More symbols -/

section
variable (settings) (account : String)

/-- A process goes on after a turn without a fatal error. -/
theorem run_concat_alive {s₀ : World R × Bool} {es : List Turn} {e : Turn}
    (hrun : (run (mortal kills (turn settings)) es s₀).1 = (w, false))
    (hfatal : Output.fatal ∉ (turn settings e w).2) :
    (run (mortal kills (turn settings)) (es ++ [e]) s₀).1 = ((turn settings e w).1, false) := by
  rw [run_concat_fst, hrun, mortal_alive]
  refine Prod.ext rfl (List.any_eq_false.mpr fun o ho hkills => ?_)
  obtain rfl : o = .fatal := by simpa [kills] using hkills
  exact hfatal ho

/-- A slot whose handler refuses is left alone. -/
theorem checkPending_refused {w : World .simple} {gate : Slot → Bool} {c : Slot} (hgate : gate c = false)
    (now : Nanos) (d : Dispatcher) : checkPending settings kind now gate d c w = (w, []) := by
  have hserved : LimitRequest.simple.checkPending (gate c) now (w.request.slot c)
      = (false, w.request.slot c) := by simp [LimitRequest.simple, hgate]
  have hsame : w.request.checkPending c now (gate c) = w.request := by
    simp [Request.checkPending, hserved]
  unfold checkPending
  simp [Request.served, hserved, hsame]

/-- The trades are asked for, and the stream serves nothing else. -/
def tradesAsked : List Turn := [
  .own (.connected [.done]), .requested .trades 0,
  .own (.timer 0 true (fun c => c = .trades) (.knowing none))]

/-- What the callback of the trades issues, where the other slots are refused. -/
theorem calls_checkRequestQueue (hkind : kind ≠ .restTrade) (d : Dispatcher) {w : World .simple}
    (hslot : w.request.slot .trades = .pending) :
    (checkRequestQueue settings kind 0 (fun c => c = .trades) d w).1.stream.calls
      = w.stream.calls.enterAll (settings.download.symbols.map .userTrades) := by
  have hserved : w.request.served .trades 0 true = true := by
    simp [Request.served, hslot, LimitRequest.simple]
  have htrades : checkRequestQueue settings kind 0 (fun c => c = .trades) d w
      = checkPending settings kind 0 (fun c => c = .trades) d .trades w := by
    cases kind with
    | restTrade => exact absurd rfl hkind
    | orderEntryClassic | orderEntryPortfolio =>
      simp [checkRequestQueue, Kind.slots, seqAll, seq, checkPending_refused]
  rw [htrades]
  unfold checkPending
  simp only [decide_true, hserved, if_true, serve_trades hkind, calls_sendAll]

/-- Two requests about trades are outstanding. -/
theorem two_outstanding (hkind : kind ≠ .restTrade) (htwo : 1 < settings.download.symbols.length) :
    ∃ w n n' symbol symbol', (run (mortal kills (turn settings)) tradesAsked
        (create (R := .simple) kind account {}, false)).1 = (w, false) ∧
      (n, .userTrades symbol) ∈ w.stream.calls.entries ∧
      (n', .userTrades symbol') ∈ w.stream.calls.entries ∧ n' ≠ n := by
  obtain ⟨symbol, symbol', symbols, hsymbols⟩ : ∃ a b rest, settings.download.symbols = a :: b :: rest := by
    match settings.download.symbols, htwo with
    | a :: b :: rest, _ => exact ⟨a, b, rest, rfl⟩
  -- ready, and the slot is open
  obtain ⟨w, hrun, hready, hw, hslot⟩ : ∃ w, (run (mortal kills (turn settings))
      [.own (.connected [.done]), .requested .trades 0]
        (create (R := .simple) kind account {}, false)).1 = (w, false) ∧ isReady w = true ∧
      w.stream.kind = kind ∧ w.request.slot .trades = .pending := by
    cases kind with
    | restTrade => exact absurd rfl hkind
    | orderEntryClassic | orderEntryPortfolio => exact ⟨_, rfl, rfl, rfl, rfl⟩
  have haside := (tame_beforeQueue (R := .simple) settings false 0 kind).aside w
  have htimer : turn settings (.own (.timer 0 true (fun c => c = .trades) (.knowing none))) w
      = seq (beforeQueue settings 0 kind)
          (checkRequestQueue settings kind 0 (fun c => c = .trades) (.knowing none)) w := by
    simp only [turn, step, guarded, hready, hw, timer_eq, Bool.and_self, if_true]
  have hfatal : Output.fatal ∉
      (turn settings (.own (.timer 0 true (fun c => c = .trades) (.knowing none))) w).2 := by
    rw [htimer, ← timer_eq]
    exact fun hmem => timely_timer settings 0 _ _ kind w _ hmem rfl
  have hcalls := calls_checkRequestQueue settings hkind (.knowing none)
    (w := (beforeQueue settings 0 kind w).1) (by rw [haside.request_eq]; exact hslot)
  rw [hsymbols, ← seq_fst, ← htimer] at hcalls
  let l := (beforeQueue settings 0 kind w).1.stream.calls
  refine ⟨_, l.next, l.next + 1, symbol, symbol', run_concat_alive settings hrun hfatal, ?_, ?_,
    Nat.succ_ne_self _⟩
  · rw [hcalls]
    exact Ledger.mem_enterAll_head l _ _
  · rw [hcalls]
    exact Ledger.mem_enterAll_head (l.enter _) _ _

/-- Nobody counts the answers: the first one commits the slot. -/
theorem committed_userTrades (hkind : w.stream.kind ≠ .restTrade) {n : ℕ} {symbol : String}
    (hmem : (n, .userTrades symbol) ∈ w.stream.calls.entries) (text : String) (env : Answers)
    (d : Dispatcher) :
    Committed .trades (turn settings (.own (.answer n (.userTrades symbol) (.serverError text) env d)) w).2
    ∧ (turn settings (.own (.answer n (.userTrades symbol) (.serverError text) env d)) w).1.stream.calls
      = w.stream.calls.settle n := by
  have hslot : tradesSlot w.stream.kind = .trades := by
    cases hw : w.stream.kind <;> first | rfl | exact absurd hw hkind
  rw [turn, answer_of_mem settings hmem]
  simp only [acknowledge, getTradesAck, hslot]
  exact ⟨⟨.userTrades symbol, List.mem_append_right _ (List.mem_singleton_self _)⟩, rfl⟩

theorem not_inOrder (hkind : kind ≠ .restTrade) (htwo : 1 < settings.download.symbols.length) :
    ¬ InOrder settings .simple kind account := by
  intro h
  obtain ⟨w, n, n', symbol, symbol', hrun, hmem, hmem', hne⟩ :=
    two_outstanding settings account hkind htwo
  have hturns := h tradesAsked
  have htallied := run_tallied (R := .simple) settings kind account tradesAsked
  dsimp only at hturns htallied
  rw [hrun] at hturns htallied
  have hw : w.stream.kind ≠ .restTrade := by
    rw [(htallied.resolve_left nofun).kind_eq]
    exact hkind
  obtain ⟨hcommitted, hcalls⟩ := committed_userTrades settings hw hmem "" ⟨0, false, []⟩ (.knowing none)
  have hall := (hturns rfl).1 _ hcommitted
  refine hall.2 n' symbol' ?_
  rw [hcalls]
  exact Ledger.mem_settle.mpr ⟨hmem', hne⟩

end

/-- EXACT: whatever slots the client library provides, and in whatever order the exchange answers, the slot
    is committed only after the trades of all symbols have been answered, and the drop copy goes on only
    then, exactly if at most one symbol is configured. -/
theorem inOrder_iff (settings : Settings) (hkind : kind ≠ .restTrade) (account : String) :
    (∀ R : LimitRequest, R.Settles → InOrder settings R kind account)
      ↔ settings.download.symbols.length ≤ 1 := by
  constructor
  · intro h
    by_contra htwo
    exact not_inOrder settings account hkind (not_le.mp htwo) (h .simple LimitRequest.simple_settles)
  · exact fun hone R hR => inOrder_of_single hR hkind hone account

end

def downloadingFrom (symbols : List String) : Settings where
  download := { symbols, tradesLookback := seconds 3600 }

/-- With one symbol all is well. -/
theorem oneSymbol_inOrder : InOrder (downloadingFrom ["BTCUSDT"]) .simple .orderEntryClassic "A1" :=
  (inOrder_iff (downloadingFrom ["BTCUSDT"]) (by decide) "A1").mpr (by decide) .simple
    LimitRequest.simple_settles

/-- With two the first answer commits the slot. -/
theorem twoSymbols_not_inOrder :
    ¬ InOrder (downloadingFrom ["BTCUSDT", "ETHUSDT"]) .simple .orderEntryClassic "A1" :=
  not_inOrder (downloadingFrom ["BTCUSDT", "ETHUSDT"]) "A1" (by decide) (by decide)

end RestStream
end BinanceFutures
