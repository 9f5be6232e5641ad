import Mathlib.Data.List.Basic
import Mathlib.Data.List.TakeWhile

/-! # Documents

    JSON texts without white space and without escapes: what a writer that formats its messages by hand
    puts out. The reader follows the grammar, one level of nesting for each unit of its fuel.

        {"id":7,"params":["a","b"]}
              │          └─ array: items, separated by commas
              └─ object: members, a name and a value each

    A document is clean if its texts do not end early and its numbers are numbers:

        ──┬───┬─┬─0────────┬─┬────────────┬─┬───────────────────────┬──
          └ - ┘ └─ digits ─┘ └─ . digits ─┘ └─ e ─┬───────┬─ digits ┘
                                                  └ + or -┘

    A clean document is read back as it was written. -/

/-- Texts and numbers are held as they stand in the document. -/
inductive Document where
  | text (s : List Char)
  | number (s : List Char)
  | array (items : List Document)
  | object (members : List (List Char × Document))

namespace Document

/-! ### Characters -/

/-- What numbers consist of. -/
def isNumber (c : Char) : Bool := c.isDigit || c = '-' || c = '+' || c = '.' || c = 'e' || c = 'E'

/-- What a text may contain: neither the quote that ends it, nor an escape or a control character. -/
def isPlain (c : Char) : Bool := c ≠ '"' && c ≠ '\\' && decide (32 ≤ c.toNat)

theorem isPlain_of_isDigit {c : Char} (h : c.isDigit = true) : isPlain c = true := by
  have hrange : 48 ≤ c.toNat := by
    have hunfold : c.isDigit = (decide (48 ≤ c.val) && decide (c.val ≤ 57)) := rfl
    simp only [hunfold, Bool.and_eq_true, decide_eq_true_eq, UInt32.le_iff_toNat_le] at h
    exact h.1
  have hquote : c ≠ '"' := by
    rintro rfl
    revert h
    decide
  have hescape : c ≠ '\\' := by
    rintro rfl
    revert h
    decide
  have hcontrol : 32 ≤ c.toNat := by omega
  simp [isPlain, hquote, hescape, hcontrol]

/-- Plain texts, as they are computed. -/
theorem plain_text {s : String} (h : s.toList.all isPlain = true) : ∀ c ∈ s.toList, isPlain c = true :=
  List.all_eq_true.mp h

theorem plain_names {names : List String} (h : (names.all fun name => name.toList.all isPlain) = true) :
    ∀ name ∈ names, ∀ c ∈ name.toList, isPlain c = true :=
  fun name hname => plain_text (List.all_eq_true.mp h name hname)

/-- The digits of a number, which there are. -/
theorem isDigit_of_mem_repr {n : ℕ} {c : Char} (h : c ∈ (toString n).toList) : c.isDigit = true :=
  Nat.isDigit_of_mem_toDigits (b := 10) (n := n) (by decide) (by decide) (by simpa using h)

/-- Nothing that follows belongs to a number. -/
def Stops (rest : List Char) : Prop := ∀ c ∈ rest.head?, isNumber c = false

@[simp] theorem stops_nil : Stops [] := by simp [Stops]

@[simp] theorem stops_cons {c : Char} {cs : List Char} : Stops (c :: cs) ↔ isNumber c = false := by
  simp [Stops]

/-! ### Numbers -/

/-- How far a number has been read. -/
inductive Numeral where
  | start
  | minus
  | zero
  | int
  | point
  | frac
  | exp
  | sign
  | power
  deriving DecidableEq, Repr

namespace Numeral

/-- A zero stands alone in front. -/
def lead (c : Char) : Option Numeral :=
  if c = '0' then some zero else if c.isDigit then some int else none

def digit (c : Char) (next : Numeral) : Option Numeral := if c.isDigit then some next else none

def toPower (c : Char) : Option Numeral := if c = 'e' ∨ c = 'E' then some exp else none

def next : Numeral → Char → Option Numeral
  | start, c => if c = '-' then some minus else lead c
  | minus, c => lead c
  | zero, c => if c = '.' then some point else toPower c
  | int, c => if c.isDigit then some int else if c = '.' then some point else toPower c
  | point, c => digit c frac
  | frac, c => if c.isDigit then some frac else toPower c
  | exp, c => if c = '+' ∨ c = '-' then some sign else digit c power
  | sign, c | power, c => digit c power

/-- The number may end here. -/
def complete : Numeral → Bool
  | zero | int | frac | power => true
  | start | minus | point | exp | sign => false

/-- Whatever is read on is part of a number. -/
theorem isNumber_of_next {state state' : Numeral} {c : Char} (h : state.next c = some state') :
    isNumber c = true := by
  have hzero : c = '0' → c.isDigit = true := fun h => h ▸ rfl
  cases state <;> grind [isNumber, next, lead, digit, toPower]

theorem isNumber_of_foldlM : ∀ {s : List Char} {state state' : Numeral},
    s.foldlM next state = some state' → ∀ c ∈ s, isNumber c = true
  | [], _, _, _ => by simp
  | c :: s, state, state', h => by
      rw [List.foldlM_cons] at h
      obtain ⟨state₁, hnext, hs⟩ := Option.bind_eq_some_iff.mp h
      exact List.forall_mem_cons.mpr ⟨isNumber_of_next hnext, isNumber_of_foldlM hs⟩

end Numeral

def isNumeral (s : List Char) : Bool := (s.foldlM Numeral.next .start).any Numeral.complete

theorem isNumber_of_isNumeral {s : List Char} (h : isNumeral s = true) :
    s ≠ [] ∧ ∀ c ∈ s, isNumber c = true := by
  obtain ⟨state, hstate, hcomplete⟩ := (Option.any_eq_true _ _).mp h
  refine ⟨?_, Numeral.isNumber_of_foldlM hstate⟩
  rintro rfl
  obtain rfl := Option.some.inj hstate
  cases hcomplete

/-- The digits of a number have no zero in front of them. -/
theorem foldlM_toDigits (n : ℕ) :
    (Nat.toDigits 10 n).foldlM Numeral.next .start = some (if n = 0 then .zero else .int) := by
  induction n using Nat.strong_induction_on with
  | h n ih =>
    by_cases hn : n < 10
    · have hsingle : ∀ d < 10, [Nat.digitChar d].foldlM Numeral.next .start
          = some (if d = 0 then .zero else .int) := by decide
      rw [Nat.toDigits_of_lt_base hn, hsingle n hn]
    · have hlast : (Nat.digitChar (n % 10)).isDigit = true := by
        rw [Nat.isDigit_digitChar]
        exact decide_eq_true (Nat.mod_lt n (by decide))
      rw [Nat.toDigits_of_base_le (by decide) (by omega), List.foldlM_append, ih (n / 10) (by omega),
        if_neg (by omega), if_neg (by omega)]
      simp [Numeral.next, hlast]

theorem isNumeral_repr (n : ℕ) : isNumeral (toString n).toList = true := by
  have hrepr : (toString n).toList = Nat.toDigits 10 n := Nat.toList_repr
  rw [isNumeral, hrepr, foldlM_toDigits]
  split <;> rfl

example : ["0", "-12", "1.5", "1e-7"].all (fun s => isNumeral s.toList) = true
    ∧ ["", "-", "1-2", "1.2.3", "01", "1.", "1e"].any (fun s => isNumeral s.toList) = false := by decide

/-! ### Writing -/

/-- A text between quotes. -/
def quoted (s : List Char) : List Char := '"' :: s ++ ['"']

mutual

def write : Document → List Char
  | .text s => quoted s
  | .number s => s
  | .array items => '[' :: writeItems items ++ [']']
  | .object members => '\x7b' :: writeMembers members ++ ['\x7d']

def writeItems : List Document → List Char
  | [] => []
  | [d] => write d
  | d :: e :: ds => write d ++ ',' :: writeItems (e :: ds)

def writeMembers : List (List Char × Document) → List Char
  | [] => []
  | [(name, d)] => quoted name ++ ':' :: write d
  | (name, d) :: e :: ds => quoted name ++ ':' :: write d ++ ',' :: writeMembers (e :: ds)

end

/-- A member of an object. -/
def writeMember (member : List Char × Document) : List Char :=
  quoted member.1 ++ ':' :: write member.2

theorem writeItems_eq : ∀ items : List Document,
    writeItems items = [','].intercalate (items.map write)
  | [] => rfl
  | [d] => by simp [writeItems]
  | d :: e :: ds => by
      rw [writeItems, writeItems_eq (e :: ds)]
      simp [List.intercalate_cons_cons]

theorem writeMembers_eq : ∀ members : List (List Char × Document),
    writeMembers members = [','].intercalate (members.map writeMember)
  | [] => rfl
  | [(name, d)] => by simp [writeMembers, writeMember]
  | (name, d) :: e :: ds => by
      rw [writeMembers, writeMembers_eq (e :: ds)]
      simp [List.intercalate_cons_cons, writeMember]

theorem write_array (items : List Document) :
    (Document.array items).write = '[' :: [','].intercalate (items.map write) ++ [']'] := by
  rw [write, writeItems_eq]

theorem write_object (members : List (List Char × Document)) :
    (Document.object members).write
      = '\x7b' :: [','].intercalate (members.map writeMember) ++ ['\x7d'] := by
  rw [write, writeMembers_eq]

/-! ### Reading -/

section
variable {α : Type*}

/-- What reads a part of the text leaves the rest. -/
abbrev Reader (α : Type*) := List Char → Option (α × List Char)

/-- One after the other, separated by commas, up to the closing bracket. -/
def readAll (item : Reader α) (close : Char) : ℕ → Reader (List α)
  | 0, _ => none
  | n + 1, cs => match item cs with
    | none => none
    | some (_, []) => none
    | some (a, c :: cs) =>
      if c = close then some ([a], cs)
      else if c = ',' then (readAll item close n cs).map fun (as, cs) => (a :: as, cs)
      else none

/-- What stands between brackets, of which the first has been read. -/
def readList (item : Reader α) (close : Char) (n : ℕ) : Reader (List α)
  | [] => none
  | c :: cs => if c = close then some ([], cs) else readAll item close n (c :: cs)

/-- What stands between quotes. -/
def readText : Reader (List Char)
  | '"' :: cs =>
    let s := cs.takeWhile isPlain
    match cs.dropWhile isPlain with
    | '"' :: rest => some (s, rest)
    | _ => none
  | _ => none

def readNumber : Reader (List Char) := fun cs =>
  if isNumeral (cs.takeWhile isNumber) then some (cs.takeWhile isNumber, cs.dropWhile isNumber) else none

def readMember (value : Reader α) : Reader (List Char × α) := fun cs =>
  match readText cs with
  | some (name, ':' :: cs) => (value cs).map fun (a, cs) => ((name, a), cs)
  | _ => none

end

def read : ℕ → Reader Document
  | 0, _ => none
  | _, [] => none
  | n + 1, c :: cs =>
    if c = '"' then (readText (c :: cs)).map fun (s, cs) => (.text s, cs)
    else if c = '[' then (readList (read n) ']' n cs).map fun (items, cs) => (.array items, cs)
    else if c = '\x7b' then
      (readList (readMember (read n)) '\x7d' n cs).map fun (members, cs) => (.object members, cs)
    else (readNumber (c :: cs)).map fun (s, cs) => (.number s, cs)

/-- The document that the text is, if it is one. -/
def parse (cs : List Char) : Option Document :=
  match read cs.length cs with
  | some (d, []) => some d
  | _ => none

/-! ### Reading what was written -/

inductive Clean : Document → Prop where
  | text {s : List Char} : (∀ c ∈ s, isPlain c = true) → Clean (.text s)
  | number {s : List Char} : isNumeral s = true → Clean (.number s)
  | array {items : List Document} : (∀ d ∈ items, Clean d) → Clean (.array items)
  | object {members : List (List Char × Document)} :
      (∀ m ∈ members, ∀ c ∈ m.1, isPlain c = true) → (∀ m ∈ members, Clean m.2) →
      Clean (.object members)

theorem isNumber_ne {c : Char} (h : isNumber c = true) :
    c ≠ '"' ∧ c ≠ '[' ∧ c ≠ ']' ∧ c ≠ '\x7b' ∧ c ≠ '\x7d' := by
  refine ⟨?_, ?_, ?_, ?_, ?_⟩ <;>
    · rintro rfl
      revert h
      decide

/-- What a document begins with closes nothing. -/
theorem head_write {d : Document} (h : Clean d) :
    ∃ c cs, d.write = c :: cs ∧ c ≠ ']' ∧ c ≠ '\x7d' := by
  cases h with
  | text _ => exact ⟨'"', _, rfl, by decide, by decide⟩
  | array _ => exact ⟨'[', _, rfl, by decide, by decide⟩
  | object _ _ => exact ⟨'\x7b', _, rfl, by decide, by decide⟩
  | @number s hs =>
    obtain ⟨hne, hnumber⟩ := isNumber_of_isNumeral hs
    obtain ⟨c, cs, rfl⟩ := List.exists_cons_of_ne_nil hne
    obtain ⟨-, -, hbracket, -, hbrace⟩ := isNumber_ne (hnumber c (by simp))
    exact ⟨c, cs, rfl, hbracket, hbrace⟩

theorem readText_quoted {s : List Char} (h : ∀ c ∈ s, isPlain c = true) (rest : List Char) :
    readText (quoted s ++ rest) = some (s, rest) := by
  have htake : (s ++ '"' :: rest).takeWhile isPlain = s := by
    rw [List.takeWhile_append_of_pos h]
    simp [isPlain]
  have hdrop : (s ++ '"' :: rest).dropWhile isPlain = '"' :: rest := by
    rw [List.dropWhile_append_of_pos h]
    simp [isPlain]
  simp [quoted, readText, htake, hdrop]

theorem readNumber_append {s rest : List Char} (hs : isNumeral s = true) (hrest : Stops rest) :
    readNumber (s ++ rest) = some (s, rest) := by
  have h := (isNumber_of_isNumeral hs).2
  have hstop : rest.takeWhile isNumber = [] ∧ rest.dropWhile isNumber = rest := by
    cases rest with
    | nil => simp
    | cons c cs => simp [stops_cons.mp hrest]
  rw [readNumber, List.takeWhile_append_of_pos h, List.dropWhile_append_of_pos h, hstop.1, hstop.2,
    List.append_nil, if_pos hs]

section
variable {α : Type*} {item : Reader α} {f : α → List Char} {close : Char}

/-- The rule of lists: where each item is read back, the whole list is. -/
theorem readAll_intercalate (hclose : isNumber close = false) (hcomma : close ≠ ',')
    (rest : List Char) : ∀ {as : List α} {n : ℕ}, as ≠ [] → as.length ≤ n →
      (∀ a ∈ as, ∀ rest, Stops rest → item (f a ++ rest) = some (a, rest)) →
      readAll item close n ([','].intercalate (as.map f) ++ close :: rest) = some (as, rest)
  | [], _, hne, _, _ => absurd rfl hne
  | _ :: _, 0, _, hlength, _ => by simp at hlength
  | [a], n + 1, _, _, hitem => by
      have ha := hitem a (by simp) (close :: rest) (stops_cons.mpr hclose)
      simp [readAll, ha]
  | a :: b :: as, n + 1, _, hlength, hitem => by
      have hall := readAll_intercalate hclose hcomma rest (List.cons_ne_nil b as)
        (by simpa using hlength) fun c hc => hitem c (List.mem_cons_of_mem a hc)
      have ha := hitem a (by simp)
        (',' :: ([','].intercalate ((b :: as).map f) ++ close :: rest)) (stops_cons.mpr (by decide))
      rw [List.map_cons, List.map_cons, List.intercalate_cons_cons, ← List.map_cons, List.append_assoc,
        List.append_assoc, List.singleton_append, readAll, ha]
      dsimp only
      rw [if_neg hcomma.symm, if_pos rfl, hall, Option.map_some]

theorem readList_intercalate (hclose : isNumber close = false) (hcomma : close ≠ ',')
    (rest : List Char) {as : List α} {n : ℕ} (hlength : as.length ≤ n)
    (hhead : ∀ a ∈ as, ∃ c cs, f a = c :: cs ∧ c ≠ close)
    (hitem : ∀ a ∈ as, ∀ rest, Stops rest → item (f a ++ rest) = some (a, rest)) :
    readList item close n ([','].intercalate (as.map f) ++ close :: rest) = some (as, rest) := by
  cases as with
  | nil => simp [readList]
  | cons a as =>
    have hall := readAll_intercalate hclose hcomma rest (List.cons_ne_nil a as) hlength hitem
    obtain ⟨c, cs, hfa, hne⟩ := hhead a (by simp)
    -- the first item keeps the list from being taken for an empty one
    have hcons : ∃ cs', [','].intercalate ((a :: as).map f) ++ close :: rest = c :: cs' := by
      cases as with
      | nil => exact ⟨cs ++ close :: rest, by simp [hfa]⟩
      | cons b as =>
        rw [List.map_cons, List.map_cons, List.intercalate_cons_cons, hfa]
        exact ⟨_, rfl⟩
    obtain ⟨cs', hcs'⟩ := hcons
    rw [hcs'] at hall ⊢
    rw [readList, if_neg hne, hall]

/-- As many items as there are, so many characters there are at least. -/
theorem length_le_intercalate {as : List α} (hne : ∀ a ∈ as, f a ≠ []) :
    as.length ≤ ([','].intercalate (as.map f)).length ∧
      ∀ a ∈ as, (f a).length ≤ ([','].intercalate (as.map f)).length := by
  induction as with
  | nil => simp
  | cons a as ih =>
    have ha : 0 < (f a).length := List.length_pos_iff.mpr (hne a (by simp))
    obtain ⟨hlength, hall⟩ := ih fun b hb => hne b (List.mem_cons_of_mem a hb)
    cases as with
    | nil =>
      simp only [List.map_cons, List.map_nil, List.intercalate_singleton, List.length_cons,
        List.length_nil, List.mem_singleton, forall_eq]
      omega
    | cons b as =>
      rw [List.map_cons, List.map_cons, List.intercalate_cons_cons, ← List.map_cons]
      simp only [List.length_append, List.length_cons, List.length_nil] at hlength ⊢
      refine ⟨by omega, fun c hc => ?_⟩
      rcases List.mem_cons.mp hc with rfl | hmem
      · omega
      · have hc := hall c hmem
        omega

end

theorem readMember_writeMember {value : Reader Document} {name : List Char} {d : Document}
    {rest : List Char} (hname : ∀ c ∈ name, isPlain c = true)
    (hvalue : value (d.write ++ rest) = some (d, rest)) :
    readMember value (writeMember (name, d) ++ rest) = some ((name, d), rest) := by
  have htext := readText_quoted hname (':' :: (d.write ++ rest))
  rw [readMember, writeMember, List.append_assoc, List.cons_append, htext]
  simp [hvalue]

theorem write_ne_nil {d : Document} (h : Clean d) : d.write ≠ [] := by
  obtain ⟨c, cs, hwrite, -⟩ := head_write h
  simp [hwrite]

/-- A clean document is read back, whatever follows it. -/
theorem read_write {d : Document} (h : Clean d) : ∀ {n : ℕ} {rest : List Char},
    d.write.length ≤ n → Stops rest → read n (d.write ++ rest) = some (d, rest) := by
  induction h with
  | @text s hs =>
    intro n rest hn hrest
    cases n with
    | zero => simp [write, quoted] at hn
    | succ n =>
      have htext := readText_quoted hs rest
      rw [quoted, List.cons_append] at htext
      simp [write, quoted, read] at htext ⊢
      simp [htext]
  | @number s hs =>
    intro n rest hn hrest
    have hread := readNumber_append hs hrest
    obtain ⟨hne, hnumber⟩ := isNumber_of_isNumeral hs
    obtain ⟨c, cs, rfl⟩ := List.exists_cons_of_ne_nil hne
    obtain ⟨hquote, hbracket, -, hbrace, -⟩ := isNumber_ne (hnumber c (by simp))
    cases n with
    | zero => simp [write] at hn
    | succ n =>
      rw [List.cons_append] at hread
      simp only [write, List.cons_append, read]
      rw [if_neg hquote, if_neg hbracket, if_neg hbrace, hread, Option.map_some]
  | @array items hclean ih =>
    intro n rest hn hrest
    rw [write_array] at hn ⊢
    obtain ⟨hlength, hitems⟩ := length_le_intercalate (f := write) fun d hd => write_ne_nil (hclean d hd)
    cases n with
    | zero => simp at hn
    | succ n =>
      simp only [List.length_append, List.length_cons, List.length_nil] at hn
      have hhead : ∀ d ∈ items, ∃ c cs, d.write = c :: cs ∧ c ≠ ']' := by
        intro d hd
        obtain ⟨c, cs, hwrite, hbracket, -⟩ := head_write (hclean d hd)
        exact ⟨c, cs, hwrite, hbracket⟩
      have hread : ∀ d ∈ items, ∀ rest, Stops rest → read n (d.write ++ rest) = some (d, rest) := by
        intro d hd rest hrest
        have hd' := hitems d hd
        exact ih d hd (by omega) hrest
      have hlist := readList_intercalate (by decide) (by decide) rest (n := n) (by omega) hhead hread
      simp only [List.cons_append, List.append_assoc, List.nil_append, read, Char.reduceEq, if_false,
        if_true, hlist, Option.map_some]
  | @object members hnames hclean ih =>
    intro n rest hn hrest
    rw [write_object] at hn ⊢
    obtain ⟨hlength, hmembers⟩ := length_le_intercalate (f := writeMember)
      fun (m : List Char × Document) (_ : m ∈ members) => by simp [writeMember, quoted]
    cases n with
    | zero => simp at hn
    | succ n =>
      simp only [List.length_append, List.length_cons, List.length_nil] at hn
      have hhead : ∀ m ∈ members, ∃ c cs, writeMember m = c :: cs ∧ c ≠ '\x7d' :=
        fun m _ => ⟨'"', _, rfl, by decide⟩
      have hread : ∀ m ∈ members, ∀ rest, Stops rest →
          readMember (read n) (writeMember m ++ rest) = some (m, rest) := by
        intro m hm rest hrest
        have hm' := hmembers m hm
        simp only [writeMember, List.length_append, List.length_cons] at hm'
        exact readMember_writeMember (hnames m hm) (ih m hm (by omega) hrest)
      have hlist := readList_intercalate (by decide) (by decide) rest (n := n) (by omega) hhead hread
      simp only [List.cons_append, List.append_assoc, List.nil_append, read, Char.reduceEq, if_false,
        if_true, hlist, Option.map_some]

/-! ### What is read -/

section
variable {α : Type*} {item : Reader α} {close : Char} {P : α → Prop}

theorem all_of_readAll (hitem : ∀ {cs a rest}, item cs = some (a, rest) → P a) :
    ∀ {n : ℕ} {cs : List Char} {as : List α} {rest : List Char},
      readAll item close n cs = some (as, rest) → ∀ a ∈ as, P a
  | 0, _, _, _, h => by simp [readAll] at h
  | n + 1, cs, as, rest, h => by
      rw [readAll] at h
      cases hread : item cs with
      | none => simp [hread] at h
      | some result =>
        obtain ⟨a, cs'⟩ := result
        have ha : P a := hitem hread
        cases cs' with
        | nil => simp [hread] at h
        | cons c cs' =>
          simp only [hread] at h
          split at h
          · obtain ⟨rfl, -⟩ := Prod.mk.inj (Option.some.inj h)
            simpa using ha
          · split at h
            · obtain ⟨⟨as', rest'⟩, hall, heq⟩ := Option.map_eq_some_iff.mp h
              obtain ⟨rfl, -⟩ := Prod.mk.inj heq
              exact List.forall_mem_cons.mpr ⟨ha, all_of_readAll hitem hall⟩
            · cases h

theorem all_of_readList (hitem : ∀ {cs a rest}, item cs = some (a, rest) → P a) {n : ℕ}
    {cs : List Char} {as : List α} {rest : List Char} (h : readList item close n cs = some (as, rest)) :
    ∀ a ∈ as, P a := by
  cases cs with
  | nil => simp [readList] at h
  | cons c cs =>
    rw [readList] at h
    split at h
    · obtain ⟨rfl, -⟩ := Prod.mk.inj (Option.some.inj h)
      simp
    · exact all_of_readAll hitem h

end

theorem plain_of_readText {cs s rest : List Char} (h : readText cs = some (s, rest)) :
    ∀ c ∈ s, isPlain c = true := by
  unfold readText at h
  split at h
  · dsimp only at h
    split at h
    · obtain ⟨rfl, -⟩ := Prod.mk.inj (Option.some.inj h)
      exact fun c hc => List.mem_takeWhile_imp hc
    · cases h
  · cases h

theorem clean_of_readNumber {cs s rest : List Char} (h : readNumber cs = some (s, rest)) :
    Clean (.number s) := by
  unfold readNumber at h
  split at h
  next hs =>
    obtain ⟨rfl, -⟩ := Prod.mk.inj (Option.some.inj h)
    exact .number hs
  · cases h

theorem clean_of_readMember {value : Reader Document} {P : Document → Prop}
    (hvalue : ∀ {cs d rest}, value cs = some (d, rest) → P d) {cs rest : List Char}
    {member : List Char × Document} (h : readMember value cs = some (member, rest)) :
    (∀ c ∈ member.1, isPlain c = true) ∧ P member.2 := by
  unfold readMember at h
  split at h
  next name cs' htext =>
    obtain ⟨⟨d, rest'⟩, hread, heq⟩ := Option.map_eq_some_iff.mp h
    obtain ⟨rfl, -⟩ := Prod.mk.inj heq
    exact ⟨plain_of_readText htext, hvalue hread⟩
  · cases h

/-- Whatever is read is clean. -/
theorem clean_of_read : ∀ {n : ℕ} {cs : List Char} {d : Document} {rest : List Char},
    read n cs = some (d, rest) → Clean d
  | 0, _, _, _, h => by simp [read] at h
  | n + 1, [], _, _, h => by simp [read] at h
  | n + 1, c :: cs, d, rest, h => by
      rw [read] at h
      split at h
      · obtain ⟨⟨s, rest'⟩, htext, heq⟩ := Option.map_eq_some_iff.mp h
        obtain ⟨rfl, -⟩ := Prod.mk.inj heq
        exact .text (plain_of_readText htext)
      · split at h
        · obtain ⟨⟨items, rest'⟩, hlist, heq⟩ := Option.map_eq_some_iff.mp h
          obtain ⟨rfl, -⟩ := Prod.mk.inj heq
          exact .array (all_of_readList (fun hread => clean_of_read hread) hlist)
        · split at h
          · obtain ⟨⟨members, rest'⟩, hlist, heq⟩ := Option.map_eq_some_iff.mp h
            obtain ⟨rfl, -⟩ := Prod.mk.inj heq
            have hall := all_of_readList
              (fun hread => clean_of_readMember (fun hread => clean_of_read hread) hread) hlist
            exact .object (fun m hm => (hall m hm).1) fun m hm => (hall m hm).2
          · obtain ⟨⟨s, rest'⟩, hnumber, heq⟩ := Option.map_eq_some_iff.mp h
            obtain ⟨rfl, -⟩ := Prod.mk.inj heq
            exact clean_of_readNumber hnumber

theorem clean_of_parse {cs : List Char} {d : Document} (h : parse cs = some d) : Clean d := by
  unfold parse at h
  split at h
  next d' hread =>
    obtain rfl := Option.some.inj h
    exact clean_of_read hread
  · cases h

/-- EXACT: a document is what its text is parsed as if and only if it is clean. -/
theorem parse_write_iff (d : Document) : parse d.write = some d ↔ Clean d := by
  constructor
  · exact clean_of_parse
  · intro h
    have hread := read_write h (Nat.le_refl d.write.length) stops_nil
    rw [List.append_nil] at hread
    rw [parse, hread]

/-! ### Looking up -/

/-- The value of the first member of the name. -/
def get (name : String) : Document → Option Document
  | .object members => (members.find? fun m => m.1 = name.toList).map Prod.snd
  | _ => none

/-- The text that the document is. -/
def asText : Document → Option (List Char)
  | .text s => some s
  | _ => none

theorem clean_text_iff {s : List Char} : Clean (.text s) ↔ ∀ c ∈ s, isPlain c = true :=
  ⟨fun h => by cases h; assumption, .text⟩

theorem clean_number_iff {s : List Char} : Clean (.number s) ↔ isNumeral s = true :=
  ⟨fun h => by cases h; assumption, .number⟩

theorem clean_object_iff {members : List (List Char × Document)} : Clean (.object members) ↔
    ∀ m ∈ members, (∀ c ∈ m.1, isPlain c = true) ∧ Clean m.2 := by
  constructor
  · intro h
    cases h with
    | object hnames hclean => exact fun m hm => ⟨hnames m hm, hclean m hm⟩
  · exact fun h => .object (fun m hm => (h m hm).1) fun m hm => (h m hm).2

theorem clean_of_get {name : String} {d d' : Document} (h : Clean d) (hget : d.get name = some d') :
    Clean d' := by
  cases h with
  | object _ hclean =>
    obtain ⟨m, hfind, rfl⟩ := Option.map_eq_some_iff.mp hget
    exact hclean m (List.mem_of_find?_eq_some hfind)
  | text _ | number _ | array _ => cases hget

end Document
