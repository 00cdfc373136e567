/-
**Event streams.**

The text format of server-sent events, as its readers take it: lines, which end in a carriage
return, a line feed or both; fields, one to a line; and events, which an empty line dispatches.  The
byte order mark that may stand at the beginning of a stream has been removed.

Main definitions:

* `EventStream.split`, `EventStream.lines` — the lines of a text;
* `EventStream.fields` — the fields of a text;
* `EventStream.State.feed` — a reader that is fed a text, and the events it dispatches.

Main results:

* `EventStream.lines_append_lf` — what ends in a line feed is read on its own;
* `EventStream.Label.fields` — a line that begins with the name of a field, and what follows when
  its value has more than one line.
-/

import Mathlib.Data.List.Basic
import Mathlib.Tactic.Common
import OxiHttp.Utf8

set_option relaxedAutoImplicit false
set_option autoImplicit false

namespace EventStream

/-! ### Lines -/

/-- The lines of a text, the last of which has no end. -/
def split : List Char → List (List Char)
  | [] => [[]]
  | '\r' :: '\n' :: s => [] :: split s
  | '\r' :: s => [] :: split s
  | '\n' :: s => [] :: split s
  | c :: s => (split s).modifyHead (c :: ·)

/-- The lines that have ended. -/
def lines (s : List Char) : List (List Char) := (split s).dropLast

/-- A text with a line feed at the end of every line. -/
def normalize : List Char → List Char
  | [] => []
  | '\r' :: '\n' :: s => '\n' :: normalize s
  | '\r' :: s => '\n' :: normalize s
  | c :: s => c :: normalize s

/-- Whether a text is a single line. -/
def OneLine (s : List Char) : Prop := '\r' ∉ s ∧ '\n' ∉ s

instance (s : List Char) : Decidable (OneLine s) := by
  unfold OneLine
  infer_instance

theorem oneLine_nil : OneLine [] := ⟨List.not_mem_nil, List.not_mem_nil⟩

theorem OneLine.cons {c : Char} {s : List Char} (h : OneLine s) (hr : c ≠ '\r') (hn : c ≠ '\n') :
    OneLine (c :: s) :=
  ⟨List.not_mem_cons_of_ne_of_not_mem (Ne.symm hr) h.1,
    List.not_mem_cons_of_ne_of_not_mem (Ne.symm hn) h.2⟩

/-- Induction along the ends of the lines. -/
@[elab_as_elim]
theorem lineInduction {P : List Char → Prop} (nil : P []) (crlf : ∀ s, P s → P ('\r' :: '\n' :: s))
    (cr : ∀ s, s.head? ≠ some '\n' → P s → P ('\r' :: s)) (lf : ∀ s, P s → P ('\n' :: s))
    (char : ∀ c s, c ≠ '\r' → c ≠ '\n' → P s → P (c :: s)) (s : List Char) : P s := by
  induction s using split.induct with
  | case1 => exact nil
  | case2 s ih => exact crlf s ih
  | case3 s h ih =>
      refine cr s (fun hhead => ?_) ih
      obtain ⟨t, rfl⟩ := List.head?_eq_some_iff.1 hhead
      exact h t rfl
  | case4 s ih => exact lf s ih
  | case5 c s h₁ h₂ h₃ ih => exact char c s h₂ h₃ ih

@[simp] theorem split_nil : split [] = [[]] := rfl

@[simp] theorem split_crlf (s : List Char) : split ('\r' :: '\n' :: s) = [] :: split s := rfl

theorem split_cr {s : List Char} (h : s.head? ≠ some '\n') : split ('\r' :: s) = [] :: split s := by
  rw [split]
  rintro t rfl
  exact h rfl

@[simp] theorem split_lf (s : List Char) : split ('\n' :: s) = [] :: split s := rfl

theorem split_char {c : Char} (hr : c ≠ '\r') (hn : c ≠ '\n') (s : List Char) :
    split (c :: s) = (split s).modifyHead (c :: ·) := by
  rw [split]
  · exact fun _ h _ => hr h
  · exact hr
  · exact hn

theorem split_ne_nil (s : List Char) : split s ≠ [] := by
  induction s using lineInduction with
  | nil => simp
  | crlf s ih => simp
  | cr s h ih => simp [split_cr h]
  | lf s ih => simp
  | char c s hr hn ih => simpa [split_char hr hn] using ih

theorem split_eq_cons (s : List Char) : split s = (split s).headD [] :: (split s).tail := by
  cases h : split s with
  | nil => exact absurd h (split_ne_nil s)
  | cons l ls => rfl

/-- Characters in front of a text belong to its first line. -/
theorem split_append_of_oneLine {p : List Char} (hp : OneLine p) (s : List Char) :
    split (p ++ s) = (split s).modifyHead (p ++ ·) := by
  induction p with
  | nil => cases h : split s <;> simp [h]
  | cons c p ih =>
      obtain ⟨hr, hn⟩ := hp
      rw [List.mem_cons, not_or] at hr hn
      rw [List.cons_append, split_char (Ne.symm hr.1) (Ne.symm hn.1), ih ⟨hr.2, hn.2⟩,
        List.modifyHead_modifyHead]
      rfl

theorem split_of_oneLine {s : List Char} (hs : OneLine s) : split s = [s] := by
  have := split_append_of_oneLine hs []
  simpa using this

theorem lines_crlf (s : List Char) : lines ('\r' :: '\n' :: s) = [] :: lines s := by
  rw [lines, split_crlf, List.dropLast_cons_of_ne_nil (split_ne_nil s), lines]

theorem lines_cr {s : List Char} (h : s.head? ≠ some '\n') : lines ('\r' :: s) = [] :: lines s := by
  rw [lines, split_cr h, List.dropLast_cons_of_ne_nil (split_ne_nil s), lines]

theorem lines_lf (s : List Char) : lines ('\n' :: s) = [] :: lines s := by
  rw [lines, split_lf, List.dropLast_cons_of_ne_nil (split_ne_nil s), lines]

theorem dropLast_modifyHead (f : List Char → List Char) (ls : List (List Char)) :
    (ls.modifyHead f).dropLast = ls.dropLast.modifyHead f := by
  match ls with
  | [] => rfl
  | [_] => rfl
  | _ :: _ :: _ => rfl

theorem lines_char {c : Char} (hr : c ≠ '\r') (hn : c ≠ '\n') (s : List Char) :
    lines (c :: s) = (lines s).modifyHead (c :: ·) := by
  rw [lines, split_char hr hn, dropLast_modifyHead, lines]

theorem lines_append_of_oneLine {p : List Char} (hp : OneLine p) (s : List Char) :
    lines (p ++ s) = (lines s).modifyHead (p ++ ·) := by
  rw [lines, split_append_of_oneLine hp, dropLast_modifyHead, lines]

theorem lines_append_lf_ne_nil (s : List Char) : lines (s ++ ['\n']) ≠ [] := by
  induction s using lineInduction with
  | nil => simp [lines]
  | crlf s ih => simp [lines_crlf]
  | cr s h ih =>
      cases s with
      | nil => simp [lines]
      | cons c s => simp [lines_cr (s := c :: (s ++ ['\n'])) h]
  | lf s ih => simp [lines_lf]
  | char c s hr hn ih => simpa [lines_char hr hn] using ih

theorem oneLine_of_mem_split {s l : List Char} (h : l ∈ split s) : OneLine l := by
  induction s using lineInduction generalizing l with
  | nil =>
      rw [split_nil, List.mem_singleton] at h
      exact h ▸ oneLine_nil
  | crlf s ih =>
      rw [split_crlf, List.mem_cons] at h
      rcases h with rfl | h
      · exact oneLine_nil
      · exact ih h
  | cr s hh ih =>
      rw [split_cr hh, List.mem_cons] at h
      rcases h with rfl | h
      · exact oneLine_nil
      · exact ih h
  | lf s ih =>
      rw [split_lf, List.mem_cons] at h
      rcases h with rfl | h
      · exact oneLine_nil
      · exact ih h
  | char c s hr hn ih =>
      rw [split_char hr hn, split_eq_cons s, List.modifyHead_cons, List.mem_cons] at h
      rcases h with rfl | h
      · have hhead : OneLine ((split s).headD []) := by
          apply ih
          rw [split_eq_cons s]
          exact List.mem_cons_self
        exact hhead.cons hr hn
      · exact ih (List.mem_of_mem_tail h)

/-- The first line of a text consists of its characters. -/
theorem mem_of_mem_headD_split {s : List Char} {c : Char} (h : c ∈ (split s).headD []) : c ∈ s := by
  induction s using lineInduction with
  | nil => exact absurd h List.not_mem_nil
  | crlf s ih => exact absurd h List.not_mem_nil
  | cr s hh ih =>
      rw [split_cr hh] at h
      exact absurd h List.not_mem_nil
  | lf s ih => exact absurd h List.not_mem_nil
  | char d s hr hn ih =>
      rw [split_char hr hn, split_eq_cons s, List.modifyHead_cons, List.headD_cons,
        List.mem_cons] at h
      rcases h with rfl | h
      · exact List.mem_cons_self
      · exact List.mem_cons_of_mem _ (ih h)

/-- A text without further lines is a single line. -/
theorem oneLine_of_tail_split {s : List Char} (h : (split s).tail = []) : OneLine s := by
  induction s using lineInduction with
  | nil => exact oneLine_nil
  | crlf s ih => exact absurd h (split_ne_nil s)
  | cr s hh ih =>
      rw [split_cr hh] at h
      exact absurd h (split_ne_nil s)
  | lf s ih => exact absurd h (split_ne_nil s)
  | char c s hr hn ih =>
      rw [split_char hr hn, split_eq_cons s, List.modifyHead_cons, List.tail_cons] at h
      exact (ih h).cons hr hn

/-- After a line feed a text is split on its own. -/
theorem split_append_lf (s t : List Char) :
    split (s ++ '\n' :: t) = lines (s ++ ['\n']) ++ split t := by
  induction s using lineInduction with
  | nil => rfl
  | crlf s ih => simp only [List.cons_append, split_crlf, lines_crlf, ih]
  | cr s h ih =>
      cases s with
      | nil => rfl
      | cons c s =>
          have hhead : ∀ u : List Char, (c :: u).head? ≠ some '\n' := fun _ => h
          simp only [List.cons_append] at ih
          simp only [List.cons_append, split_cr (hhead _), lines_cr (hhead _), ih]
  | lf s ih => simp only [List.cons_append, split_lf, lines_lf, ih]
  | char c s hr hn ih =>
      obtain ⟨l, ls, hl⟩ := List.exists_cons_of_ne_nil (lines_append_lf_ne_nil s)
      simp only [List.cons_append, split_char hr hn, lines_char hr hn, ih, hl, List.modifyHead_cons]

theorem lines_append_lf (s t : List Char) :
    lines (s ++ '\n' :: t) = lines (s ++ ['\n']) ++ lines t := by
  rw [lines, split_append_lf, List.dropLast_append_of_ne_nil (split_ne_nil t), ← lines]

/-- The lines of a text that a line feed ends: its own lines, up to an empty one that the line feed
joins with the carriage return before it. -/
theorem split_eq_lines (s : List Char) :
    split s = lines (s ++ ['\n']) ∨ split s = lines (s ++ ['\n']) ++ [[]] := by
  induction s using lineInduction with
  | nil => exact .inl rfl
  | crlf s ih =>
      rw [List.cons_append, List.cons_append, split_crlf, lines_crlf]
      rcases ih with ih | ih
      · exact .inl (by rw [ih])
      · exact .inr (by rw [ih, List.cons_append])
  | cr s h ih =>
      cases s with
      | nil => exact .inr rfl
      | cons c s =>
          have hhead : (c :: s ++ ['\n']).head? ≠ some '\n' := h
          rw [List.cons_append, split_cr h, lines_cr hhead]
          rcases ih with ih | ih
          · exact .inl (by rw [ih])
          · exact .inr (by rw [ih]; rfl)
  | lf s ih =>
      rw [List.cons_append, split_lf, lines_lf]
      rcases ih with ih | ih
      · exact .inl (by rw [ih])
      · exact .inr (by rw [ih, List.cons_append])
  | char c s hr hn ih =>
      rw [List.cons_append, split_char hr hn, lines_char hr hn]
      obtain ⟨l, ls, hl⟩ := List.exists_cons_of_ne_nil (lines_append_lf_ne_nil s)
      rcases ih with ih | ih <;> simp [ih, hl]

theorem normalize_char {c : Char} (hr : c ≠ '\r') (s : List Char) :
    normalize (c :: s) = c :: normalize s := by
  rw [normalize]
  · exact fun _ h _ => hr h
  · exact hr

theorem normalize_cr {s : List Char} (h : s.head? ≠ some '\n') :
    normalize ('\r' :: s) = '\n' :: normalize s := by
  rw [normalize]
  rintro t rfl
  exact h rfl

theorem normalize_eq_intercalate (s : List Char) :
    normalize s = List.intercalate ['\n'] (split s) := by
  have hline : ∀ ls : List (List Char), ls ≠ [] →
      List.intercalate ['\n'] ([] :: ls) = '\n' :: List.intercalate ['\n'] ls := by
    intro ls hls
    rw [List.intercalate_cons_of_ne_nil hls]
    rfl
  induction s using lineInduction with
  | nil => rfl
  | crlf s ih => rw [normalize, split_crlf, hline _ (split_ne_nil s), ih]
  | cr s h ih => rw [normalize_cr h, split_cr h, hline _ (split_ne_nil s), ih]
  | lf s ih => rw [normalize_char (by decide), split_lf, hline _ (split_ne_nil s), ih]
  | char c s hr hn ih =>
      rw [normalize_char hr, split_char hr hn, ih, split_eq_cons s, List.modifyHead_cons]
      cases (split s).tail <;> simp [List.intercalate]

/-! ### Fields -/

structure Field where
  name : List Char
  value : List Char
deriving DecidableEq

/-- What stands in a line: a name, and behind a colon and perhaps a blank the value. -/
def Field.ofLine (line : List Char) : Field where
  name := line.takeWhile (· ≠ ':')
  value :=
    match line.dropWhile (· ≠ ':') with
    | _ :: ' ' :: value => value
    | _ :: value => value
    | [] => []

/-- The name and the value of a line are no longer than the line. -/
theorem Field.length_ofLine (line : List Char) :
    (Field.ofLine line).name.length + (Field.ofLine line).value.length ≤ line.length := by
  have hlen := congrArg List.length (List.takeWhile_append_dropWhile (p := (· ≠ ':')) (l := line))
  rw [List.length_append] at hlen
  rw [← hlen, ofLine]
  apply Nat.add_le_add_left
  split <;> rename_i heq <;> rw [heq] <;> simp only [List.length_cons] <;> omega

/-- Whether a line has no field: an empty one, or a comment. -/
def Silent (line : List Char) : Prop := line = [] ∨ line.head? = some ':'

instance (line : List Char) : Decidable (Silent line) := by
  unfold Silent
  infer_instance

/-- The fields of lines. -/
def fieldsOf (ls : List (List Char)) : List Field :=
  ls.filterMap fun l => if Silent l then none else some (.ofLine l)

/-- The fields of a text. -/
def fields (s : List Char) : List Field := fieldsOf (lines s)

theorem fieldsOf_append (ls ls' : List (List Char)) :
    fieldsOf (ls ++ ls') = fieldsOf ls ++ fieldsOf ls' := List.filterMap_append

theorem fieldsOf_cons_of_silent {l : List Char} (h : Silent l) (ls : List (List Char)) :
    fieldsOf (l :: ls) = fieldsOf ls := by
  rw [fieldsOf, List.filterMap_cons_none (by rw [if_pos h]), fieldsOf]

theorem fieldsOf_cons_of_not_silent {l : List Char} (h : ¬ Silent l) (ls : List (List Char)) :
    fieldsOf (l :: ls) = Field.ofLine l :: fieldsOf ls := by
  rw [fieldsOf, List.filterMap_cons_some (by rw [if_neg h]), fieldsOf]

theorem fieldsOf_eq_nil_iff {ls : List (List Char)} : fieldsOf ls = [] ↔ ∀ l ∈ ls, Silent l := by
  simp [fieldsOf]

/-- A label is the name of a field: one line, not empty, without a colon. -/
structure Label (name : List Char) : Prop where
  oneLine : OneLine name
  ne_nil : name ≠ []
  colon : ':' ∉ name

theorem Label.oneLine_label {name : List Char} (h : Label name) :
    OneLine (name ++ [':', ' ']) := by
  have := h.oneLine
  simp only [OneLine, List.mem_append, List.mem_cons, List.not_mem_nil] at this ⊢
  simp [this]

theorem Label.ofLine {name : List Char} (h : Label name) (value : List Char) :
    Field.ofLine (name ++ [':', ' '] ++ value) = ⟨name, value⟩ := by
  have hall : ∀ c ∈ name, (decide (c ≠ ':')) = true := fun c hc =>
    decide_eq_true (fun heq => h.colon (heq ▸ hc))
  have htake : (name ++ ([':', ' '] ++ value)).takeWhile (· ≠ ':') = name := by
    rw [List.takeWhile_append_of_pos hall]
    simp
  have hdrop : (name ++ ([':', ' '] ++ value)).dropWhile (· ≠ ':') = ':' :: ' ' :: value := by
    rw [List.dropWhile_append_of_pos hall]
    simp
  rw [Field.ofLine, List.append_assoc, htake, hdrop]
  rfl

theorem Label.not_silent {name : List Char} (h : Label name) (value : List Char) :
    ¬ Silent (name ++ [':', ' '] ++ value) := by
  obtain ⟨c, cs, rfl⟩ := List.exists_cons_of_ne_nil h.ne_nil
  rintro (hnil | hhead)
  · cases hnil
  · have hc : c = ':' := by simpa using hhead
    exact h.colon (by simp [hc])

/-- The lines of a label and a value: the first line of the value follows the label, and the others
are lines of their own, up to an empty one. -/
theorem Label.lines {name : List Char} (h : Label name) (value rest : List Char) :
    ∃ ls, EventStream.lines (name ++ [':', ' '] ++ value ++ '\n' :: rest) =
        (name ++ [':', ' '] ++ (split value).headD []) :: ls ++ EventStream.lines rest ∧
      ((split value).tail = ls ∨ (split value).tail = ls ++ [[]]) := by
  obtain ⟨l, ls, hl⟩ := List.exists_cons_of_ne_nil (lines_append_lf_ne_nil value)
  have hlines : EventStream.lines (name ++ [':', ' '] ++ value ++ '\n' :: rest) =
      (name ++ [':', ' '] ++ l) :: ls ++ EventStream.lines rest := by
    rw [lines_append_lf, List.append_assoc (name ++ [':', ' ']),
      lines_append_of_oneLine h.oneLine_label, hl, List.modifyHead_cons]
  rw [hlines]
  rcases split_eq_lines value with heq | heq
  · rw [heq, hl]
    exact ⟨ls, rfl, .inl rfl⟩
  · rw [heq, hl]
    exact ⟨ls, rfl, .inr rfl⟩

/-- What a label and a value give: a field with the first line of the value, and the fields of its
other lines. -/
theorem Label.fields {name : List Char} (h : Label name) (value rest : List Char) :
    EventStream.fields (name ++ [':', ' '] ++ value ++ '\n' :: rest) =
      ⟨name, (split value).headD []⟩ :: fieldsOf (split value).tail ++ EventStream.fields rest := by
  obtain ⟨ls, hlines, htail⟩ := h.lines value rest
  have hfields : fieldsOf (split value).tail = fieldsOf ls := by
    rcases htail with heq | heq
    · rw [heq]
    · rw [heq, fieldsOf_append]
      simp [fieldsOf, Silent]
  rw [EventStream.fields, hlines, fieldsOf_append, fieldsOf_cons_of_not_silent (h.not_silent _),
    h.ofLine, hfields, EventStream.fields]

/-! ### Readers -/

/-- An event, as it is dispatched. -/
structure Event where
  data : List Char
  type : List Char
  lastEventId : List Char
deriving DecidableEq

/-- The buffers of a reader, and the reconnection time it has been told. -/
structure State where
  data : List Char
  type : List Char
  lastEventId : List Char
  retry : Option ℕ
deriving DecidableEq

namespace State

/-- The effect of a field. -/
def field (s : State) (f : Field) : State :=
  if f.name = "event".toList then { s with type := f.value }
  else if f.name = "data".toList then { s with data := s.data ++ f.value ++ ['\n'] }
  else if f.name = "id".toList then
    if f.value.contains '\x00' then s else { s with lastEventId := f.value }
  else if f.name = "retry".toList then
    if !f.value.isEmpty && f.value.all Char.isDigit then
      { s with retry := some (Nat.ofDigitChars 10 f.value 0) }
    else s
  else s

/-- The effect of an empty line: without data there is no event, and otherwise the line feed at the
end of the data does not belong to it. -/
def dispatch (s : State) : State × List Event :=
  ({ s with data := [], type := [] },
    if s.data = [] then []
    else [⟨s.data.dropLast, if s.type = [] then "message".toList else s.type, s.lastEventId⟩])

/-- The effect of a line. -/
def line (s : State) (l : List Char) : State × List Event :=
  if l = [] then s.dispatch
  else if l.head? = some ':' then (s, [])
  else (s.field (.ofLine l), [])

/-- The effect of lines. -/
def run (s : State) : List (List Char) → State × List Event
  | [] => (s, [])
  | l :: ls =>
    let (s₁, es) := s.line l
    let (s₂, es') := s₁.run ls
    (s₂, es ++ es')

/-- The effect of a text. -/
def feed (s : State) (text : List Char) : State × List Event := s.run (lines text)

/-- The effect of the bytes of a text. -/
def read (s : State) (bs : List UInt8) : State × List Event := s.feed (Utf8.fromUtf8Lossy bs).toList

theorem read_encode (s : State) (text : List Char) : s.read (Utf8.encode text) = s.feed text := by
  have hbytes : Utf8.encode text = Utf8.bytes (String.ofList text) := by
    rw [Utf8.bytes_eq_encode, String.toList_ofList]
  rw [read, hbytes, Utf8.fromUtf8Lossy_bytes, String.toList_ofList]

theorem field_event (s : State) (value : List Char) :
    s.field ⟨"event".toList, value⟩ = { s with type := value } := by
  rw [field, if_pos rfl]

theorem field_data (s : State) (value : List Char) :
    s.field ⟨"data".toList, value⟩ = { s with data := s.data ++ value ++ ['\n'] } := by
  simp only [field]
  rw [if_neg (by decide), if_pos trivial]

theorem field_id (s : State) {value : List Char} (h : '\x00' ∉ value) :
    s.field ⟨"id".toList, value⟩ = { s with lastEventId := value } := by
  simp only [field]
  rw [if_neg (by decide), if_neg (by decide), if_pos trivial, if_neg (by simpa using h)]

theorem field_retry (s : State) (n : ℕ) :
    s.field ⟨"retry".toList, Nat.toDigits 10 n⟩ = { s with retry := some n } := by
  have hdigits : (!(Nat.toDigits 10 n).isEmpty && (Nat.toDigits 10 n).all Char.isDigit) = true := by
    have hall : ∀ c ∈ Nat.toDigits 10 n, c.isDigit = true := fun _ hc =>
      Nat.isDigit_of_mem_toDigits (by decide) (by decide) hc
    simpa [Nat.toDigits_ne_nil] using hall
  simp only [field]
  rw [if_neg (by decide), if_neg (by decide), if_neg (by decide), if_pos trivial,
    if_pos hdigits, Nat.ofDigitChars_ten_toDigits]

theorem run_append (s : State) (ls ls' : List (List Char)) :
    s.run (ls ++ ls') =
      (((s.run ls).1.run ls').1, (s.run ls).2 ++ ((s.run ls).1.run ls').2) := by
  induction ls generalizing s with
  | nil => simp [run]
  | cons l ls ih => simp [run, ih, List.append_assoc]

/-- A text that ends in a line feed is read on its own. -/
theorem feed_append_lf (s : State) (t u : List Char) :
    s.feed (t ++ '\n' :: u) =
      (((s.feed (t ++ ['\n'])).1.feed u).1,
        (s.feed (t ++ ['\n'])).2 ++ ((s.feed (t ++ ['\n'])).1.feed u).2) := by
  rw [feed, lines_append_lf, run_append]
  rfl

theorem feed_lf (s : State) : s.feed ['\n'] = s.dispatch := by
  have hline : s.line [] = s.dispatch := by rw [line, if_pos rfl]
  change s.run [[]] = _
  simp only [run, hline, List.append_nil]

/-- A line with a field has the effect of the field. -/
theorem line_of_not_silent (s : State) {l : List Char} (h : ¬ Silent l) :
    s.line l = (s.field (.ofLine l), []) := by
  rw [Silent, not_or] at h
  rw [line, if_neg h.1, if_neg h.2]

/-- Lines without fields dispatch nothing while there is no data; they may clear the type. -/
theorem run_silent {s : State} (hs : s.data = []) {ls : List (List Char)} (h : ∀ l ∈ ls, Silent l) :
    s.run ls = (s, []) ∨ s.run ls = ({ s with type := [] }, []) := by
  induction ls generalizing s with
  | nil => exact .inl rfl
  | cons l ls ih =>
      obtain ⟨hl, hls⟩ := List.forall_mem_cons.1 h
      rcases hl with rfl | hcomment
      · have hline : s.line [] = ({ s with type := [] }, []) := by simp [line, dispatch, hs]
        have ih := @ih { s with type := [] } hs hls
        right
        rcases ih with ih | ih <;> simp [run, hline, ih]
      · have hne : l ≠ [] := by
          rintro rfl
          cases hcomment
        have hline : s.line l = (s, []) := by rw [line, if_neg hne, if_pos hcomment]
        rcases ih hs hls with ih | ih
        · exact .inl (by simp [run, hline, ih])
        · exact .inr (by simp [run, hline, ih])

/-- A label and a value of one line have the effect of the field. -/
theorem feed_label {name value : List Char} (h : Label name) (hv : OneLine value) (s : State)
    (rest : List Char) :
    s.feed (name ++ [':', ' '] ++ value ++ '\n' :: rest) = (s.field ⟨name, value⟩).feed rest := by
  rw [feed, List.append_assoc (name ++ [':', ' ']), lines_append_of_oneLine h.oneLine_label,
    lines_append_of_oneLine hv, lines_lf, List.modifyHead_cons, List.modifyHead_cons,
    List.append_nil, run, line_of_not_silent s (h.not_silent value), h.ofLine]
  rfl

/-- A value whose other lines have no fields has the effect of its first line, but for the type,
which is cleared by empty lines. -/
theorem feed_label_silent {name value : List Char} (h : Label name)
    (hv : ∀ l ∈ (split value).tail, Silent l) {s : State}
    (hs : (s.field ⟨name, (split value).headD []⟩).data = []) (rest : List Char) :
    ∃ s', s.feed (name ++ [':', ' '] ++ value ++ '\n' :: rest) = s'.feed rest ∧
      (s' = s.field ⟨name, (split value).headD []⟩ ∨
        s' = { s.field ⟨name, (split value).headD []⟩ with type := [] }) := by
  obtain ⟨ls, hlines, htail⟩ := h.lines value rest
  have hsilent : ∀ l ∈ ls, Silent l := by
    rcases htail with heq | heq
    · rwa [heq] at hv
    · rw [heq] at hv
      exact fun l hl => hv l (List.mem_append_left _ hl)
  rw [feed, hlines, List.cons_append, run, line_of_not_silent s (h.not_silent _), h.ofLine]
  simp only [run_append, List.nil_append]
  rcases run_silent hs hsilent with hrun | hrun <;> rw [hrun]
  · exact ⟨_, rfl, .inl rfl⟩
  · exact ⟨_, rfl, .inr rfl⟩

end State

end EventStream
