import BinanceFutures.Gateway.Market
import Mathlib.Data.List.Induction

/-! # Symbols

    `Rest` and the client feed the same set of symbols. What is new goes to `core::Symbols`, so that
    its list is the set in the order of arrival and no spelling is there twice. `Rest` lower-cases what
    it adds. The controller takes the client's spelling as it is: the instrument that `Rest` knows as
    `btcusdt` is subscribed once more when the client asks for `BTCUSDT`. -/

namespace BinanceFutures
open Machine

namespace Market

/-- The symbols are those of the set, each once. -/
structure Registered (w : World) : Prop where
  all : w.symbols = w.allSymbols
  nodup : w.symbols.Nodup

/-- No instrument is there twice, and every symbol is the name of a stream. -/
structure WellNamed (symbols : List String) : Prop where
  distinct : (symbols.map toLower).Nodup
  lower : ∀ s ∈ symbols, toLower s = s

/-- What the client asks for, it asks for in lower case. -/
def Event.InLowerCase : Event → Prop
  | .subscribe symbols => ∀ s ∈ symbols, toLower s = s
  | _ => True

/-- Symbols in lower case are distinct without regard to case when they are distinct. -/
theorem wellNamed_of_lower {symbols : List String} (hnodup : symbols.Nodup)
    (hlower : ∀ s ∈ symbols, toLower s = s) : WellNamed symbols := by
  refine ⟨?_, hlower⟩
  have hmap : symbols.map toLower = symbols := by
    conv_rhs => rw [← List.map_id symbols]
    exact List.map_congr_left hlower
  rwa [hmap]

theorem lower_createSymbols {discard : String → Bool} {items : List Json.Symbol} {s : String}
    (h : s ∈ createSymbols discard items) : toLower s = s := by
  obtain ⟨item, -, rfl⟩ := List.mem_map.mp h
  exact toLower_toLower _

section
variable (settings : Settings) (slices : Slices) {w : World} {e : Event}

theorem registered_start (streamId : UInt16) : Registered { streamId } := ⟨rfl, List.nodup_nil⟩

theorem registered_step (h : Registered w) : Registered (step settings slices e w).1 := by
  obtain ⟨hall, hsymbols, -⟩ := known_step settings slices e w
  refine ⟨by rw [hall, hsymbols, h.all], ?_⟩
  rw [hsymbols]
  refine h.nodup.append nodup_includeNew fun s hs hnew => ?_
  rw [h.all] at hs
  exact (mem_includeNew.mp hnew).2 hs

theorem registered_run (streamId : UInt16) (es : List Event) :
    Registered (run (step settings slices) es { streamId }).1 :=
  keeps_run (I := fun _ w => Registered w) (fun _ _ _ h => registered_step settings slices h) es [] _
    (registered_start streamId)

/-- The symbols are what has been asked for, and nothing else. -/
theorem mem_symbols_run (streamId : UInt16) (es : List Event) (symbol : String) :
    symbol ∈ (run (step settings slices) es { streamId }).1.symbols ↔ ∃ e ∈ es, symbol ∈ e.asked := by
  induction es using List.reverseRecOn with
  | nil => simp
  | append_singleton es e ih =>
    have hall := (registered_run settings slices streamId es).all
    rw [run_concat_fst, (known_step settings slices e _).2.1, List.mem_append, fresh, mem_includeNew,
      ← hall, ih]
    simp only [List.mem_append, List.mem_singleton]
    constructor
    · rintro (⟨e', he', hold⟩ | ⟨hnew, -⟩)
      · exact ⟨e', Or.inl he', hold⟩
      · exact ⟨e, Or.inr rfl, hnew⟩
    · rintro ⟨e', he' | rfl, hasked⟩
      · exact Or.inl ⟨e', he', hasked⟩
      · exact (em _).imp_right fun hnot => ⟨hasked, hnot⟩

/-- Events in lower case leave only stream names in the list. -/
theorem lower_step (hw : ∀ s ∈ w.symbols, toLower s = s) (he : e.InLowerCase) :
    ∀ s ∈ (step settings slices e w).1.symbols, toLower s = s := by
  intro s hs
  rw [(known_step settings slices e w).2.1] at hs
  rcases List.mem_append.mp hs with hold | hnew
  · exact hw s hold
  · have hasked : s ∈ e.asked := (mem_includeNew.mp hnew).1
    cases e with
    | exchangeInfoAck items discard => exact lower_createSymbols hasked
    | subscribe symbols => exact he s hasked
    | _ => cases hasked

/-- A symbol that is not in lower case is new to such a list, and stays in it. -/
theorem not_lower_step (hw : Registered w) (hlower : ∀ s ∈ w.symbols, toLower s = s)
    (he : ¬ e.InLowerCase) : ∃ s ∈ (step settings slices e w).1.symbols, toLower s ≠ s := by
  cases e with
  | subscribe symbols =>
    rw [Event.InLowerCase] at he
    push Not at he
    obtain ⟨s, hs, hupper⟩ := he
    have hknown : s ∉ w.allSymbols := fun hmem => hupper (hlower s (hw.all ▸ hmem))
    refine ⟨s, ?_, hupper⟩
    rw [(known_step settings slices _ w).2.1]
    exact List.mem_append_right _ (mem_includeNew.mpr ⟨hs, hknown⟩)
  | _ => exact absurd trivial he

/-- A condition on the events alone. -/
theorem along_iff_forall {C : Event → Prop} (es : List Event) (w : World) :
    Along (step settings slices) (fun _ e => C e) es w ↔ ∀ e ∈ es, C e := by
  rw [along_iff_split]
  constructor
  · intro h e he
    obtain ⟨pre, post, hes⟩ := List.append_of_mem he
    exact h pre e post hes
  · rintro h pre e post rfl
    exact h e (by simp)

/-- EXACT: no instrument is given out twice and only stream names are, in every state that a run
    reaches, if and only if the client asks for everything in lower case. -/
theorem wellNamed_iff (streamId : UInt16) (es : List Event) :
    (∀ pre, pre <+: es → WellNamed (run (step settings slices) pre { streamId }).1.symbols)
      ↔ ∀ e ∈ es, e.InLowerCase := by
  rw [← along_iff_forall settings slices es { streamId }]
  refine exact_condition (I := fun _ w => Registered w ∧ ∀ s ∈ w.symbols, toLower s = s)
    (P := fun _ w => WellNamed w.symbols) ?_ ?_ ?_ ⟨registered_start streamId, by simp⟩ es
  · rintro out w e ⟨hw, hlower⟩ he
    exact ⟨registered_step settings slices hw, lower_step settings slices hlower he⟩
  · rintro out w ⟨hw, hlower⟩
    exact wellNamed_of_lower hw.nodup hlower
  · rintro out w e ⟨hw, hlower⟩ he hnamed
    obtain ⟨s, hs, hupper⟩ := not_lower_step settings slices hw hlower he
    exact hupper (hnamed.lower s hs)

end

/-- The exchange lists an instrument, and the client asks for it under the name the exchange gave. -/
def listedAndAsked : List Event :=
  [.exchangeInfoAck [{ symbol := "BTCUSDT" }] fun _ => false, .subscribe ["BTCUSDT"]]

/-- It is given out twice, once under a name that is not that of a stream. -/
theorem listedAndAsked_twice : ¬ ∀ es : List Event,
    WellNamed (run (step {} (Slices.evenly 40 (by decide))) es {}).1.symbols := by
  intro h
  have hdistinct := (h listedAndAsked).distinct
  revert hdistinct
  decide

end Market
end BinanceFutures
