import Mathlib.Algebra.GroupWithZero.Nat
import Mathlib.Data.List.Basic
import Mathlib.Data.List.DropRight
import Mathlib.Data.List.Infix

/-! # Query strings and forms

    The parameters of a request as one text: names and values joined by `=`, pairs by `&`. The reader
    splits at every `&`, and at the first `=` of each piece.

        symbol=BTC & side=BUY & price=2
        └─ name ┘└ value      └─ last
        └────── front ──────┘

    A server then decodes what it has read, as a form: a `+` is a blank, and `%` with two hexadecimal
    digits is the character of that code.

        a=1+2 & b=%41 & c=x=y
        a ↦ 1 2   b ↦ A    c ↦ x=y

    A writer that does not escape is read back as long as nothing that it writes splits, or decodes to
    something else; `Form.read_render_iff` says that this is all it takes, and that it takes all of it. -/

namespace Query

/-- One parameter. -/
def pair (field : List Char × List Char) : List Char := field.1 ++ '=' :: field.2

def render (fields : List (List Char × List Char)) : List Char :=
  ['&'].intercalate (fields.map pair)

/-- What stands before the first `=`, and what behind it. -/
def cut (text : List Char) : List Char × List Char :=
  (text.takeWhile (· ≠ '='), (text.dropWhile (· ≠ '=')).tail)

def read (text : List Char) : List (List Char × List Char) := (text.splitOn '&').map cut

/-- The name does not end early, and the pair does not. -/
def Clean (field : List Char × List Char) : Prop :=
  '=' ∉ field.1 ∧ '&' ∉ field.1 ∧ '&' ∉ field.2

theorem cut_pair {field : List Char × List Char} (h : '=' ∉ field.1) : cut (pair field) = field := by
  obtain ⟨name, value⟩ := field
  have hname : ∀ c ∈ name, decide (c ≠ '=') = true := by
    intro c hc
    rw [decide_eq_true_eq]
    rintro rfl
    exact h hc
  rw [cut, pair, List.takeWhile_append_of_pos hname, List.dropWhile_append_of_pos hname]
  simp

/-- What stands before the last parameter. -/
def front (text : List Char) : List Char := (text.rdropWhile (· ≠ '&')).dropLast

theorem front_append {last : List Char} (text : List Char) (h : '&' ∉ last) :
    front (text ++ '&' :: last) = text := by
  have hlast : ∀ c ∈ last.reverse, decide (c ≠ '&') = true := by
    intro c hc
    rw [decide_eq_true_eq]
    rintro rfl
    exact h (List.mem_reverse.mp hc)
  rw [front, List.rdropWhile, List.reverse_append, List.reverse_cons, List.append_assoc,
    List.dropWhile_append_of_pos hlast]
  simp

end Query

namespace Form
open Query (pair render cut)

/-! ### Escapes -/

/-- The value of a hexadecimal digit. -/
def hexValue (c : Char) : Option ℕ :=
  if '0' ≤ c ∧ c ≤ '9' then some (c.toNat - '0'.toNat)
  else if 'a' ≤ c ∧ c ≤ 'f' then some (c.toNat - 'a'.toNat + 10)
  else if 'A' ≤ c ∧ c ≤ 'F' then some (c.toNat - 'A'.toNat + 10)
  else none

/-- What stands for itself, or for a blank. -/
def plusToSpace (c : Char) : Char := if c = '+' then ' ' else c

/-- The character of an escape. -/
def unescape (a b : Char) : Option Char :=
  match hexValue a, hexValue b with
  | some x, some y => some (Char.ofNat (16 * x + y))
  | _, _ => none

def decode : List Char → List Char
  | '%' :: a :: b :: rest =>
    match unescape a b with
    | some c => c :: decode rest
    | none => '%' :: decode (a :: b :: rest)
  | c :: rest => plusToSpace c :: decode rest
  | [] => []

/-- Nothing in the text is decoded to something else. -/
def Literal (text : List Char) : Prop :=
  '+' ∉ text ∧ ∀ a b, ['%', a, b] <:+: text → unescape a b = none

theorem literal_nil : Literal [] :=
  ⟨List.not_mem_nil, fun _ _ h => absurd (List.infix_nil.mp h) (List.cons_ne_nil _ _)⟩

/-- A text without the two characters is literal. -/
theorem literal_of_notMem {text : List Char} (hplus : '+' ∉ text) (hpercent : '%' ∉ text) :
    Literal text :=
  ⟨hplus, fun _ _ h => absurd (h.subset List.mem_cons_self) hpercent⟩

theorem literal_cons_iff {c : Char} {text : List Char} (h : ∀ a b, ¬ ['%', a, b] <+: c :: text) :
    Literal (c :: text) ↔ c ≠ '+' ∧ Literal text := by
  have hinfix : ∀ a b, ['%', a, b] <:+: c :: text ↔ ['%', a, b] <:+: text := by
    intro a b
    rw [List.infix_cons_iff]
    exact or_iff_right (h a b)
  simp only [Literal, List.mem_cons, not_or, hinfix, and_assoc, ne_eq, eq_comm (a := '+')]

/-- Decoding never makes a text longer. -/
theorem length_decode_le (text : List Char) : (decode text).length ≤ text.length := by
  fun_induction decode text with
  | case1 a b rest c h ih =>
    simp only [List.length_cons]
    omega
  | case2 a b rest h ih => simpa using ih
  | case3 c rest h ih => simpa using ih
  | case4 => exact le_rfl

/-- A text is decoded to itself if and only if it is literal. -/
theorem decode_eq_iff (text : List Char) : decode text = text ↔ Literal text := by
  fun_induction decode text with
  | case1 a b rest c h ih =>
    -- the escape makes the text shorter
    refine iff_of_false (fun heq => ?_) fun hliteral => ?_
    · have hlength := congrArg List.length heq
      have hle := length_decode_le rest
      simp only [List.length_cons] at hlength
      omega
    · have hnone := hliteral.2 a b (List.infix_append [] ['%', a, b] rest)
      rw [h] at hnone
      cases hnone
  | case2 a b rest h ih =>
    rw [List.cons_inj_right, ih]
    refine ⟨fun hliteral => ⟨?_, fun x y hinfix => ?_⟩, fun hliteral => ⟨?_, fun x y hinfix => ?_⟩⟩
    · simpa using hliteral.1
    · rcases List.infix_cons_iff.mp hinfix with hprefix | hrest
      · obtain ⟨-, rfl, rfl⟩ : True ∧ x = a ∧ y = b := by simpa using hprefix
        exact h
      · exact hliteral.2 x y hrest
    · exact fun hmem => hliteral.1 (List.mem_cons_of_mem _ hmem)
    · exact hliteral.2 x y (List.infix_cons hinfix)
  | case3 c rest h ih =>
    have hstart : ∀ a b, ¬ ['%', a, b] <+: c :: rest := by
      rintro a b ⟨tail, htail⟩
      obtain ⟨rfl, rfl⟩ := List.cons.inj htail
      exact h a b tail rfl rfl
    have hplus : plusToSpace c = c ↔ c ≠ '+' := by
      unfold plusToSpace
      split
      next heq => simp [heq]
      next hne => simp [hne]
    rw [List.cons_eq_cons, ih, hplus, literal_cons_iff hstart]
  | case4 => exact iff_of_true rfl literal_nil

/-! ### Forms -/

/-- What a server reads. -/
def read (text : List Char) : List (List Char × List Char) :=
  (Query.read text).map (Prod.map decode decode)

/-- The name and the value end where the writer ends them, and are what they look like. -/
def Clean (field : List Char × List Char) : Prop :=
  Query.Clean field ∧ Literal field.1 ∧ Literal field.2

/-- There are as many pieces as separators, and one. -/
theorem length_splitOn (a : Char) (text : List Char) :
    (text.splitOn a).length = text.count a + 1 := by
  induction text with
  | nil => simp
  | cons c text ih =>
    rw [List.splitOn_cons_eq_if_modifyHead]
    by_cases hc : c = a
    · simp [hc, ih]
    · simp [hc, ih]

theorem render_cons_cons (field field' : List Char × List Char) (fields : List (List Char × List Char)) :
    render (field :: field' :: fields) = pair field ++ '&' :: render (field' :: fields) := by
  simp [render, List.intercalate]

theorem render_ne_nil {fields : List (List Char × List Char)} (hne : fields ≠ []) :
    render fields ≠ [] := by
  rcases fields with - | ⟨field, - | ⟨field', fields⟩⟩
  · exact absurd rfl hne
  · simp [render, pair]
  · simp [render_cons_cons, pair]

/-- Two forms, one behind the other. -/
theorem render_append {fields fields' : List (List Char × List Char)} (h : fields ≠ [])
    (h' : fields' ≠ []) : render (fields ++ fields') = render fields ++ '&' :: render fields' := by
  induction fields with
  | nil => exact absurd rfl h
  | cons field fields ih =>
    cases fields with
    | nil =>
      obtain ⟨field', rest, rfl⟩ := List.exists_cons_of_ne_nil h'
      simp [render, List.intercalate]
    | cons field' fields =>
      rw [List.cons_append, List.cons_append, render_cons_cons, ← List.cons_append,
        ih (List.cons_ne_nil _ _), render_cons_cons]
      simp

/-- The separators of a form are those between its fields, and those within. -/
theorem count_render {fields : List (List Char × List Char)} (hne : fields ≠ []) :
    (render fields).count '&' + 1 = fields.length + (fields.map fun f => (pair f).count '&').sum := by
  induction fields with
  | nil => exact absurd rfl hne
  | cons field fields ih =>
    cases fields with
    | nil => simp [render, List.intercalate, Nat.add_comm]
    | cons field' fields =>
      have hrest := ih (List.cons_ne_nil _ _)
      rw [render_cons_cons, List.count_append, List.count_cons_self]
      simp only [List.map_cons, List.sum_cons, List.length_cons] at hrest ⊢
      omega

/-- A form with as many pieces as fields has no separator within a field. -/
theorem separator_notMem_of_length {fields : List (List Char × List Char)} (hne : fields ≠ [])
    (hlength : (read (render fields)).length = fields.length) :
    ∀ field ∈ fields, '&' ∉ pair field := by
  have hcount := count_render hne
  rw [read, List.length_map, Query.read, List.length_map, length_splitOn, hcount] at hlength
  have hzero : (fields.map fun f => (pair f).count '&').sum = 0 := by omega
  intro field hfield
  rw [← List.count_eq_zero]
  exact List.sum_eq_zero_iff_forall_eq_nat.mp hzero _ (List.mem_map_of_mem hfield)

/-- Where no field has a separator, every field is read by itself. -/
theorem read_render_eq {fields : List (List Char × List Char)} (hne : fields ≠ [])
    (hclean : ∀ field ∈ fields, '&' ∉ pair field) :
    read (render fields) = fields.map fun field => Prod.map decode decode (cut (pair field)) := by
  have hpairs : ∀ l ∈ fields.map pair, '&' ∉ l := by
    intro l hl
    obtain ⟨field, hfield, rfl⟩ := List.mem_map.mp hl
    exact hclean field hfield
  rw [read, Query.read, render, List.splitOn_intercalate '&' hpairs (by simpa using hne),
    List.map_map, List.map_map]
  rfl

/-- One field is read back if and only if its name has no `=`, and both are literal. -/
theorem cut_pair_iff (field : List Char × List Char) :
    Prod.map decode decode (cut (pair field)) = field ↔
      '=' ∉ field.1 ∧ Literal field.1 ∧ Literal field.2 := by
  by_cases hname : '=' ∈ field.1
  · -- the name ends early, and decoding does not make up for it
    refine iff_of_false (fun heq => ?_) fun h => h.1 hname
    have hlength : (decode (cut (pair field)).1).length = field.1.length :=
      congrArg (fun f => f.1.length) heq
    have hle := length_decode_le (cut (pair field)).1
    have hshort : (cut (pair field)).1.length < field.1.length := by
      obtain ⟨front, back, hsplit, hfront⟩ := List.eq_append_cons_of_mem hname
      have hall : ∀ c ∈ front, decide (c ≠ '=') = true := by
        intro c hc
        rw [decide_eq_true_eq]
        rintro rfl
        exact hfront hc
      have htake : (cut (pair field)).1 = front := by
        rw [cut, pair, hsplit, List.append_assoc, List.takeWhile_append_of_pos hall]
        simp
      rw [htake, hsplit]
      simp
    omega
  · rw [Query.cut_pair hname, Prod.ext_iff, Prod.map_fst, Prod.map_snd, decode_eq_iff, decode_eq_iff]
    exact ⟨fun h => ⟨hname, h⟩, fun h => h.2⟩

/-- EXACT: a form is read back as it was written if and only if all of its fields are clean. -/
theorem read_render_iff {fields : List (List Char × List Char)} (hne : fields ≠ []) :
    read (render fields) = fields ↔ ∀ field ∈ fields, Clean field := by
  have hpair : ∀ field : List Char × List Char,
      '&' ∉ pair field ↔ '&' ∉ field.1 ∧ '&' ∉ field.2 := by
    intro field
    simp [pair]
  constructor
  · intro h field hfield
    have hseparator := separator_notMem_of_length hne (congrArg List.length h)
    rw [read_render_eq hne hseparator] at h
    have hread : Prod.map decode decode (cut (pair field)) = field := by
      obtain ⟨i, hi, rfl⟩ := List.getElem_of_mem hfield
      have hget := congrArg (fun l => l[i]?) h
      simpa [hi] using hget
    obtain ⟨hname, hliteral⟩ := (cut_pair_iff field).mp hread
    obtain ⟨hfirst, hsecond⟩ := (hpair field).mp (hseparator field hfield)
    exact ⟨⟨hname, hfirst, hsecond⟩, hliteral⟩
  · intro h
    rw [read_render_eq hne fun field hfield => (hpair field).mpr (h field hfield).1.2]
    refine (List.map_congr_left fun field hfield => ?_).trans (List.map_id fields)
    exact (cut_pair_iff field).mpr ⟨(h field hfield).1.1, (h field hfield).2⟩

/-- Text that is not escaped by its writer. -/
example : read "a=1+2&b=%41&c=x=y".toList
    = [("a", "1 2"), ("b", "A"), ("c", "x=y")].map (Prod.map String.toList String.toList) := by decide

/-- What a server reads of a text that may be empty. -/
def readAll (text : List Char) : List (List Char × List Char) :=
  if text.isEmpty then [] else read text

theorem readAll_render_iff (fields : List (List Char × List Char)) :
    readAll (render fields) = fields ↔ ∀ field ∈ fields, Clean field := by
  by_cases hnil : fields = []
  · simp [hnil, readAll, render]
  · have hrender : (render fields).isEmpty = false := by simpa using render_ne_nil hnil
    rw [readAll, hrender]
    exact read_render_iff hnil

/-! ### Safe characters -/

/-- Neither splits nor is decoded. -/
def isSafe (c : Char) : Bool := c ≠ '&' && c ≠ '=' && c ≠ '+' && c ≠ '%'

theorem isSafe_of_isDigit {c : Char} (h : c.isDigit = true) : isSafe c = true := by
  have hne : ∀ c', c'.isDigit = false → c ≠ c' := by
    rintro c' hc' rfl
    rw [h] at hc'
    cases hc'
  simp [isSafe, hne '&' (by decide), hne '=' (by decide), hne '+' (by decide), hne '%' (by decide)]

theorem notMem_of_safe {text : List Char} (h : ∀ c ∈ text, isSafe c = true) {c : Char}
    (hc : isSafe c = false) : c ∉ text := by
  intro hmem
  rw [h c hmem] at hc
  cases hc

theorem literal_of_safe {text : List Char} (h : ∀ c ∈ text, isSafe c = true) : Literal text :=
  literal_of_notMem (notMem_of_safe h (by decide)) (notMem_of_safe h (by decide))

/-- Under a safe name it is the value that matters. -/
theorem clean_iff {name value : List Char} (h : ∀ c ∈ name, isSafe c = true) :
    Clean (name, value) ↔ '&' ∉ value ∧ Literal value := by
  refine ⟨fun hclean => ⟨hclean.1.2.2, hclean.2.2⟩, fun hvalue => ⟨⟨?_, ?_, hvalue.1⟩, ?_, hvalue.2⟩⟩
  · exact notMem_of_safe h (by decide)
  · exact notMem_of_safe h (by decide)
  · exact literal_of_safe h

theorem clean_of_safe {name value : List Char} (h : ∀ c ∈ name, isSafe c = true)
    (h' : ∀ c ∈ value, isSafe c = true) : Clean (name, value) :=
  (clean_iff h).mpr ⟨notMem_of_safe h' (by decide), literal_of_safe h'⟩

end Form
