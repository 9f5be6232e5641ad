import BinanceFutures.Gateway.MarketData
import BinanceFutures.Schemes.Document

/-! # Wire

    What the exchange reads of the texts that a market data connection sends. A subscription is a JSON
    object that names streams; a stream is a symbol or an asset, and a channel of it.

        {"method":"SUBSCRIBE","params":["btcusdt@trade","ethusdt@trade"],"id":2000001}
                                         │       │
                                         name    channel

    A text is read back exactly if no name ends it early. -/

namespace BinanceFutures
open Machine

/-! ### Subscriptions -/

namespace Subscription

/-- The streams that a subscription asks for. -/
def streams (s : Subscription) : List (List Char) :=
  match s.channel with
  | .forceOrder => [s.channel.name.toList]
  | _ => s.names.map fun name => name.toList ++ '@' :: s.channel.name.toList

def document (s : Subscription) : Document :=
  .object [("method".toList, .text "SUBSCRIBE".toList), ("params".toList, .array (s.streams.map .text)),
    ("id".toList, .number (toString s.id).toList)]

/-- Something is asked for. -/
def Asks (s : Subscription) : Prop := s.channel = .forceOrder ∨ s.names ≠ []

theorem quoted_intercalate (channel : String) : ∀ {names : List String}, names ≠ [] →
    '"' :: ((("@" ++ channel ++ "\",\"").intercalate names ++ "@" ++ channel).toList ++ ['"'])
      = [','].intercalate ((names.map fun name => name.toList ++ '@' :: channel.toList).map
          Document.quoted)
  | [], h => absurd rfl h
  | [name], _ => by simp [Document.quoted]
  | name :: name' :: names, _ => by
      have hrest := quoted_intercalate channel (List.cons_ne_nil name' names)
      rw [String.intercalate_cons_cons, List.map_cons, List.map_cons, List.map_cons,
        List.map_cons, List.intercalate_cons_cons, ← List.map_cons,
        ← List.map_cons (f := fun name : String => name.toList ++ '@' :: channel.toList), ← hrest]
      simp [Document.quoted]

theorem params_of_ne {s : Subscription} (h : s.channel ≠ .forceOrder) :
    s.params = ("@" ++ s.channel.name ++ "\",\"").intercalate s.names ++ "@" ++ s.channel.name := by
  obtain ⟨id, channel, names⟩ := s
  cases channel <;> first | rfl | exact absurd rfl h

theorem streams_of_ne {s : Subscription} (h : s.channel ≠ .forceOrder) :
    s.streams = s.names.map fun name => name.toList ++ '@' :: s.channel.name.toList := by
  obtain ⟨id, channel, names⟩ := s
  cases channel <;> first | rfl | exact absurd rfl h

/-- What is formatted by hand is the document. -/
theorem toList_message {s : Subscription} (h : s.Asks) : s.message.toList = s.document.write := by
  have hparams : '"' :: (s.params.toList ++ ['"'])
      = [','].intercalate (s.streams.map Document.quoted) := by
    by_cases horder : s.channel = .forceOrder
    · simp [params, streams, horder, Document.quoted]
    · rw [params_of_ne horder, streams_of_ne horder]
      exact quoted_intercalate s.channel.name (h.resolve_left horder)
  have hitems : (s.streams.map Document.text).map Document.write = s.streams.map Document.quoted := by
    rw [List.map_map]
    rfl
  have harray : (Document.array (s.streams.map .text)).write
      = '[' :: '"' :: (s.params.toList ++ ['"']) ++ [']'] := by
    rw [Document.write_array, hitems, ← hparams]
  unfold message document
  generalize toString s.id = id
  simp only [Document.write_object, List.map_cons, Document.writeMember, harray]
  simp [Document.quoted, Document.write]

/-! ### What is read -/

/-- What stands before the first `@` of a stream, and what behind it. -/
def split (stream : List Char) : List Char × List Char :=
  (stream.takeWhile (· ≠ '@'), (stream.dropWhile (· ≠ '@')).tail)

/-- The names and channels that the exchange is asked for by a text. -/
def read (text : String) : List (List Char × List Char) :=
  match Document.parse text.toList with
  | none => []
  | some d =>
    match d.get "method", d.get "params" with
    | some (.text method), some (.array items) =>
      if method = "SUBSCRIBE".toList then (items.filterMap Document.asText).map split else []
    | _, _ => []

/-- The names and channels that the subscription is about. -/
def asked (s : Subscription) : List (List Char × List Char) :=
  match s.channel with
  | .forceOrder => [("!forceOrder".toList, "arr".toList)]
  | _ => s.names.map fun name => (name.toList, s.channel.name.toList)

theorem asked_of_ne {s : Subscription} (h : s.channel ≠ .forceOrder) :
    s.asked = s.names.map fun name => (name.toList, s.channel.name.toList) := by
  obtain ⟨id, channel, names⟩ := s
  cases channel <;> first | rfl | exact absurd rfl h

/-- The name of a symbol or an asset: it ends no text, and no name of a stream. -/
def IsName (name : String) : Prop := ∀ c ∈ name.toList, Document.isPlain c = true ∧ c ≠ '@'

instance (name : String) : Decidable (IsName name) :=
  List.decidableBAll (fun c => Document.isPlain c = true ∧ c ≠ '@') name.toList

theorem isName_toLower {name : String} (h : IsName name) : IsName (toLower name) := by
  intro c hc
  rw [toLower, String.toList_ofList] at hc
  obtain ⟨c', hc', rfl⟩ := List.mem_map.mp hc
  obtain ⟨hplain, hne⟩ := h c' hc'
  unfold Char.toLower
  split
  next hupper =>
    -- what it becomes is a letter
    have hletter : ∀ d : Char, 97 ≤ d.toNat → Document.isPlain d = true ∧ d ≠ '@' := by
      intro d hd
      have hother : ∀ e : Char, e.toNat < 97 → d ≠ e := by
        rintro e he rfl
        omega
      have hcontrol : 32 ≤ d.toNat := by omega
      exact ⟨by simp [Document.isPlain, hother '"' (by decide), hother '\\' (by decide), hcontrol],
        hother '@' (by decide)⟩
    refine hletter _ ?_
    simp only [ge_iff_le, UInt32.le_iff_toNat_le] at hupper
    simp only [Char.toNat, UInt32.toNat_add]
    have hlow : 65 ≤ c'.toNat := hupper.1
    have hhigh : c'.toNat ≤ 90 := hupper.2
    simp
    omega
  next => exact ⟨hplain, hne⟩

theorem plain_channel (channel : Channel) : ∀ c ∈ channel.name.toList, Document.isPlain c = true := by
  have happend : ∀ a b : String, (∀ c ∈ a.toList, Document.isPlain c = true) →
      (∀ c ∈ b.toList, Document.isPlain c = true) → ∀ c ∈ (a ++ b).toList, Document.isPlain c = true := by
    intro a b ha hb c hc
    rw [String.toList_append] at hc
    exact (List.mem_append.mp hc).elim (ha c) (hb c)
  have hnumber : ∀ n : ℕ, ∀ c ∈ (toString n).toList, Document.isPlain c = true :=
    fun n c hc => Document.isPlain_of_isDigit (Document.isDigit_of_mem_repr hc)
  cases channel with
  | depth freq =>
    exact happend ("depth@" ++ _) "ms"
      (happend "depth@" _ (Document.plain_text (by decide)) (hnumber _)) (Document.plain_text (by decide))
  | markPrice freq =>
    by_cases hfreq : freq ≠ 0
    · simp only [Channel.name, if_pos hfreq]
      exact happend ("markPrice@" ++ _) "s"
        (happend "markPrice@" _ (Document.plain_text (by decide)) (hnumber _))
        (Document.plain_text (by decide))
    · simp only [Channel.name, if_neg hfreq]
      exact Document.plain_text (by decide)
  | bookTicker | trade | aggTrade | miniTicker | kline1m | assetIndex | forceOrder =>
    exact Document.plain_text (by decide)

theorem split_stream {name : String} (h : IsName name) (channel : List Char) :
    split (name.toList ++ '@' :: channel) = (name.toList, channel) := by
  have hname : ∀ c ∈ name.toList, decide (c ≠ '@') = true := fun c hc => decide_eq_true (h c hc).2
  rw [split, List.takeWhile_append_of_pos hname, List.dropWhile_append_of_pos hname]
  simp

/-- The exchange reads what the subscription is about. -/
theorem read_message {s : Subscription} (h : s.Asks) (hnames : ∀ name ∈ s.names, IsName name) :
    read s.message = s.asked := by
  have hstreams : ∀ stream ∈ s.streams, ∀ c ∈ stream, Document.isPlain c = true := by
    intro stream hstream c hc
    by_cases horder : s.channel = .forceOrder
    · rw [streams, horder, List.mem_singleton] at hstream
      exact plain_channel .forceOrder c (hstream ▸ hc)
    · rw [streams_of_ne horder] at hstream
      obtain ⟨name, hname, rfl⟩ := List.mem_map.mp hstream
      rcases List.mem_append.mp hc with hfront | hback
      · exact (hnames name hname c hfront).1
      · rcases List.mem_cons.mp hback with rfl | hchannel
        · decide
        · exact plain_channel s.channel c hchannel
  have hclean : s.document.Clean := by
    have hmember : ∀ name ∈ ["method", "params", "id"], ∀ c ∈ name.toList,
        Document.isPlain c = true := Document.plain_names (by decide)
    rw [document, Document.clean_object_iff]
    intro m hm
    simp only [List.mem_cons, List.not_mem_nil, or_false] at hm
    rcases hm with rfl | rfl | rfl
    · exact ⟨hmember "method" (by simp), Document.clean_text_iff.mpr (Document.plain_text (by decide))⟩
    · refine ⟨hmember "params" (by simp), .array fun d hd => ?_⟩
      obtain ⟨stream, hstream, rfl⟩ := List.mem_map.mp hd
      exact Document.clean_text_iff.mpr (hstreams stream hstream)
    · exact ⟨hmember "id" (by simp), Document.clean_number_iff.mpr (Document.isNumeral_repr s.id.toNat)⟩
  have hitems : (s.streams.map Document.text).filterMap Document.asText = s.streams := by
    rw [List.filterMap_map]
    exact List.filterMap_some
  have hsplit : s.streams.map split = s.asked := by
    by_cases horder : s.channel = .forceOrder
    · simp only [streams, asked, horder]
      decide
    · rw [streams_of_ne horder, asked_of_ne horder, List.map_map]
      exact List.map_congr_left fun name hname => split_stream (hnames name hname) _
  rw [read, toList_message h, (Document.parse_write_iff _).mpr hclean]
  simp [document, Document.get, hitems, hsplit]

end Subscription

/-! ### Channels -/

namespace Channel

/-- What the name of a channel begins with. -/
def initials : Channel → List Char
  | .bookTicker => ['b', 'o']
  | .trade => ['t', 'r']
  | .depth _ => ['d', 'e']
  | .aggTrade => ['a', 'g']
  | .markPrice _ => ['m', 'a']
  | .miniTicker => ['m', 'i']
  | .kline1m => ['k', 'l']
  | .assetIndex => ['a', 's']
  | .forceOrder => ['!', 'f']

theorem take_name (channel : Channel) : channel.name.toList.take 2 = channel.initials := by
  cases channel with
  | depth freq => simp [name, initials]
  | markPrice freq => by_cases hfreq : freq = 0 <;> simp [name, initials, hfreq]
  | bookTicker | trade | aggTrade | miniTicker | kline1m | assetIndex | forceOrder =>
    unfold name initials
    decide

/-- The channels that connections may ask for. -/
def all (settings : Settings) : List Channel := [
  .bookTicker, .trade, .depth settings.ws.subscribeDepthFreq, .aggTrade,
  .markPrice settings.ws.markPriceFreq, .miniTicker, .kline1m, .assetIndex, .forceOrder]

theorem mem_all {settings : Settings} {kind : MarketData.Kind} {channel : Channel}
    (h : channel ∈ kind.channels settings) : channel ∈ all settings := by
  cases kind <;>
    simp only [MarketData.Kind.channels, MarketData.channels, MarketData.channels2, all, List.mem_append,
      List.mem_cons, List.not_mem_nil, or_false, List.mem_ite_nil_right] at h ⊢ <;>
    tauto

/-- Channels are told apart by their names. -/
theorem eq_of_name {settings : Settings} {channel channel' : Channel} (h : channel ∈ all settings)
    (h' : channel' ∈ all settings) (hname : channel.name = channel'.name) : channel = channel' := by
  have hinitials : channel.initials = channel'.initials := by
    rw [← take_name, ← take_name, hname]
  simp only [all, List.mem_cons, List.not_mem_nil, or_false] at h h'
  rcases h with rfl | rfl | rfl | rfl | rfl | rfl | rfl | rfl | rfl <;>
    rcases h' with rfl | rfl | rfl | rfl | rfl | rfl | rfl | rfl | rfl <;>
    first | rfl | simp [initials] at hinitials

/-- No channel is called what the channel of the forced orders is called behind the `@`. -/
theorem name_ne_arr (channel : Channel) : channel.name.toList ≠ "arr".toList := by
  intro hname
  have hinitials : channel.initials = ['a', 'r'] := by
    rw [← take_name, hname]
    decide
  cases channel <;> simp [initials] at hinitials

end Channel

end BinanceFutures
