import BinanceFutures.Schemes.Trace

/-! # Trays

    Clients put items on a tray, one client at a time collecting what it wants to hand over. A client
    clears the tray before it begins, and when it is done. Clients that take turns *within* a collection
    share the tray by accident:

        a clears ─ a puts x ─ b clears ─ b puts y ─ a hands over: y
                   own tray: x            on the tray: y

    `tray` is what lies on the tray; the tray that a client would have alone is the tray of its own
    entries. `Undisturbed` says from the order of the entries when the two agree: by what they hold, and
    exactly by what they hold and from whom, which is what `signed` keeps. -/

namespace Tray

/-- What a client does: it may clear the tray, and it puts items on it. -/
structure Entry (ι β : Type*) where
  client : ι
  clears : Bool := false
  items : List β := []

variable {ι β : Type*}

/-- What lies on the tray. -/
def tray (es : List (Entry ι β)) : List β := (Trace.since Entry.clears es).flatMap Entry.items

theorem tray_clears {e : Entry ι β} (es : List (Entry ι β)) (he : e.clears = true) :
    tray (es ++ [e]) = [] := by
  rw [tray, Trace.since_mark he]
  rfl

theorem tray_puts {e : Entry ι β} (es : List (Entry ι β)) (he : e.clears = false) :
    tray (es ++ [e]) = tray es ++ e.items := by
  rw [tray, Trace.since_append (by simpa using he), List.flatMap_append, tray, List.flatMap_singleton]

/-- The items of an entry, each with the client that has put it there. -/
def Entry.signed (e : Entry ι β) : List (ι × β) := e.items.map fun item => (e.client, item)

theorem signed_eq_nil {e : Entry ι β} : e.signed = [] ↔ e.items = [] := List.map_eq_nil_iff

/-- What lies on the tray, and from whom. -/
def signed (es : List (Entry ι β)) : List (ι × β) := (Trace.since Entry.clears es).flatMap Entry.signed

theorem map_signed (es : List (Entry ι β)) : (signed es).map Prod.snd = tray es := by
  rw [signed, List.map_flatMap, tray]
  refine List.flatMap_congr fun e _ => ?_
  rw [Entry.signed, List.map_map]
  exact List.map_id' _

variable [DecidableEq ι]

/-- The entries of a client. -/
def own (i : ι) (es : List (Entry ι β)) : List (Entry ι β) := es.filter fun e => e.client = i

/-- The client hands over nothing; or it finds nothing of the others on the tray, and nobody has cleared
    the tray since it began to put its items. -/
def Undisturbed (i : ι) (es : List (Entry ι β)) : Prop :=
  (∀ e ∈ Trace.since Entry.clears es, e.items = []) ∨
    (∀ e ∈ Trace.since Entry.clears es, e.client = i ∨ e.items = []) ∧
      ∀ before, Trace.since Entry.clears (own i es)
        = before ++ own i (Trace.since Entry.clears es) → ∀ e ∈ before, e.items = []

/-- What a client has done since the tray was cleared, it has done since it cleared the tray. -/
theorem own_since (i : ι) (es : List (Entry ι β)) :
    own i (Trace.since Entry.clears es) <:+ Trace.since Entry.clears (own i es) := by
  induction es using List.reverseRecOn with
  | nil => exact List.suffix_refl _
  | append_singleton es e ih =>
    cases hclears : e.clears with
    | true =>
      rw [Trace.since_mark hclears]
      exact List.nil_suffix
    | false =>
      rw [Trace.since_append (by simpa using hclears)]
      unfold own at ih ⊢
      rw [List.filter_append, List.filter_append,
        Trace.since_append fun o ho => by
          rw [List.mem_singleton.mp (List.mem_of_mem_filter ho)]
          exact hclears]
      exact List.suffix_append_self_iff.mpr ih

/-- Where the others put nothing, only the client's entries count. -/
theorem flatMap_own {i : ι} : ∀ {rest : List (Entry ι β)},
    (∀ e ∈ rest, e.client = i ∨ e.items = []) →
      rest.flatMap Entry.signed = (own i rest).flatMap Entry.signed
  | [], _ => rfl
  | e :: rest, hrest => by
      have ih := flatMap_own fun e' he' => hrest e' (List.mem_cons_of_mem _ he')
      unfold own at ih ⊢
      by_cases he : e.client = i
      · rw [List.filter_cons_of_pos (by simpa using he), List.flatMap_cons, List.flatMap_cons, ih]
      · have hitems := (hrest e (List.mem_cons_self ..)).resolve_left he
        rw [List.filter_cons_of_neg (by simpa using he), List.flatMap_cons, signed_eq_nil.mpr hitems,
          ih, List.nil_append]

/-- Undisturbed, a client hands over what would lie on a tray of its own. -/
theorem signed_undisturbed {i : ι} {es : List (Entry ι β)} (h : Undisturbed i es) :
    signed es = [] ∨ signed es = signed (own i es) := by
  rcases h with hnothing | ⟨hothers, hbefore⟩
  · exact Or.inl (List.flatMap_eq_nil_iff.mpr fun e he => signed_eq_nil.mpr (hnothing e he))
  · obtain ⟨before, hsplit⟩ := own_since i es
    have hnone : before.flatMap Entry.signed = [] :=
      List.flatMap_eq_nil_iff.mpr fun e he => signed_eq_nil.mpr (hbefore before hsplit.symm e he)
    rw [signed, signed, ← hsplit, List.flatMap_append, hnone, List.nil_append, flatMap_own hothers]
    exact Or.inr rfl

theorem client_of_signed_own {i : ι} {es : List (Entry ι β)} {x : ι × β} (h : x ∈ signed (own i es)) :
    x.1 = i := by
  obtain ⟨e, he, hx⟩ := List.mem_flatMap.mp h
  obtain ⟨item, -, rfl⟩ := List.mem_map.mp hx
  have hmem : e ∈ own i es := (List.rtakeWhile_suffix _ _).subset he
  exact of_decide_eq_true (List.mem_filter.mp hmem).2

/-- EXACT: a client hands over nothing, or what it has put on the tray itself and all of it, if and only
    if it is undisturbed. -/
theorem undisturbed_iff {i : ι} {es : List (Entry ι β)} :
    Undisturbed i es ↔ signed es = [] ∨ signed es = signed (own i es) := by
  refine ⟨signed_undisturbed, ?_⟩
  rintro (hnothing | hsame)
  · exact Or.inl fun e he => signed_eq_nil.mp (List.flatMap_eq_nil_iff.mp hnothing e he)
  · have hothers : ∀ e ∈ Trace.since Entry.clears es, e.client = i ∨ e.items = [] := by
      intro e he
      by_cases hitems : e.items = []
      · exact Or.inr hitems
      · obtain ⟨item, hitem⟩ := List.exists_mem_of_ne_nil _ hitems
        have hmem : (e.client, item) ∈ signed es :=
          List.mem_flatMap.mpr ⟨e, he, List.mem_map_of_mem hitem⟩
        rw [hsame] at hmem
        exact Or.inl (client_of_signed_own hmem)
    refine Or.inr ⟨hothers, fun before hsplit e he => ?_⟩
    -- what the client has put there before adds nothing
    rw [signed, signed, hsplit, List.flatMap_append, flatMap_own hothers,
      List.self_eq_append_left] at hsame
    exact signed_eq_nil.mp (List.flatMap_eq_nil_iff.mp hsame e he)

end Tray
