/-
**Encoding server-sent events.**

`SseEvent::encode` writes the fields of an event as lines, one `data` line for each line that
`str::lines` gives, and an empty line at the end.

Main definitions:

* `OxiHttp.SseEvent`, `OxiHttp.SseEvent.encode` — events and their encoding;
* `OxiHttp.LoneFree` — a text in which every carriage return comes before a line feed.

Main results:

* `OxiHttp.fields_text_ofData_iff` — when the `data` lines are the lines of the data;
* `OxiHttp.SseEvent.text_id`, `OxiHttp.SseEvent.text_event`, `OxiHttp.SseEvent.text_retry` — the
  lines in front of them.
-/

import OxiHttp.EventStream
import OxiHttp.Text
import OxiHttp.Utf8

set_option relaxedAutoImplicit false
set_option autoImplicit false

namespace OxiHttp

open EventStream

/-! ### The encoder -/

structure SseEvent where
  id : Option Str
  event : Option Str
  data : Str
  /-- In milliseconds. -/
  retry : Option UInt64
deriving DecidableEq

/-- `str::lines`: the lines end in a line feed, perhaps after a carriage return, and the end of the
last one is optional. -/
def strLines : Str → List Str
  | [] => []
  | '\r' :: '\n' :: s => [] :: strLines s
  | '\n' :: s => [] :: strLines s
  | c :: s =>
    match strLines s with
    | [] => [[c]]
    | l :: ls => (c :: l) :: ls

namespace SseEvent

/-- `SseEvent::data`. -/
def ofData (data : Str) : SseEvent where
  id := none
  event := none
  data := data
  retry := none

def withId (e : SseEvent) (id : Str) : SseEvent := { e with id := some id }

def withEvent (e : SseEvent) (event : Str) : SseEvent := { e with event := some event }

def withRetry (e : SseEvent) (ms : UInt64) : SseEvent := { e with retry := some ms }

/-- The text that `encode` collects. -/
def text (e : SseEvent) : Str :=
  (match e.id with
    | some id => "id: ".toList ++ id ++ ['\n']
    | none => []) ++
  (match e.event with
    | some event => "event: ".toList ++ event ++ ['\n']
    | none => []) ++
  (match e.retry with
    | some retry => "retry: ".toList ++ Nat.toDigits 10 retry.toNat ++ ['\n']
    | none => []) ++
  (strLines e.data).flatMap (fun line => "data: ".toList ++ line ++ ['\n']) ++
  (if e.data.isEmpty then "data: \n".toList else []) ++
  ['\n']

/-- `SseEvent::encode`. -/
def encode (e : SseEvent) : List UInt8 := Utf8.encode e.text

/-! ### The lines in front of the data -/

theorem text_id {e : SseEvent} {id : Str} (h : e.id = some id) :
    e.text = "id".toList ++ [':', ' '] ++ id ++ '\n' :: { e with id := none }.text := by
  have hlabel : "id: ".toList = "id".toList ++ [':', ' '] := by decide
  rw [text, text, h, hlabel]
  generalize "id".toList = label
  generalize "event: ".toList = a, "retry: ".toList = b, "data: ".toList = c, "data: \n".toList = d
  simp only [List.append_assoc, List.nil_append, List.cons_append]

theorem text_event {e : SseEvent} {event : Str} (hid : e.id = none) (h : e.event = some event) :
    e.text = "event".toList ++ [':', ' '] ++ event ++ '\n' :: { e with event := none }.text := by
  have hlabel : "event: ".toList = "event".toList ++ [':', ' '] := by decide
  rw [text, text, hid, h, hlabel]
  generalize "event".toList = label
  generalize "id: ".toList = a, "retry: ".toList = b, "data: ".toList = c, "data: \n".toList = d
  simp only [List.append_assoc, List.nil_append, List.cons_append]

theorem text_retry {e : SseEvent} {ms : UInt64} (hid : e.id = none) (hevent : e.event = none)
    (h : e.retry = some ms) :
    e.text = "retry".toList ++ [':', ' '] ++ Nat.toDigits 10 ms.toNat ++ '\n' ::
      { e with retry := none }.text := by
  have hlabel : "retry: ".toList = "retry".toList ++ [':', ' '] := by decide
  rw [text, text, hid, hevent, h, hlabel]
  generalize "retry".toList = label
  generalize "id: ".toList = a, "event: ".toList = b, "data: ".toList = c, "data: \n".toList = d
  simp only [List.append_assoc, List.nil_append, List.cons_append]

end SseEvent

/-! The names of the fields are labels. -/

theorem label_id : Label "id".toList := ⟨by decide, by decide, by decide⟩

theorem label_event : Label "event".toList := ⟨by decide, by decide, by decide⟩

theorem label_retry : Label "retry".toList := ⟨by decide, by decide, by decide⟩

theorem label_data : Label "data".toList := ⟨by decide, by decide, by decide⟩

/-! ### The lines of the data -/

/-- The `data` lines of an event: those of `str::lines`, or an empty one. -/
def dataLines (data : Str) : List Str := if data.isEmpty then [[]] else strLines data

theorem SseEvent.text_ofData (data : Str) :
    (ofData data).text =
      (dataLines data).flatMap (fun line => "data".toList ++ [':', ' '] ++ line ++ ['\n']) ++
        ['\n'] := by
  cases data with
  | nil => rfl
  | cons c s => simp [text, ofData, dataLines]

/-- A text in which every carriage return comes before a line feed. -/
def LoneFree (s : Str) : Prop := ∀ a b, s = a ++ '\r' :: b → b.head? = some '\n'

/-- The size of lines, with one for the end of each. -/
def size : List Str → ℕ
  | [] => 0
  | l :: ls => l.length + 1 + size ls

theorem strLines_lf (s : Str) : strLines ('\n' :: s) = [] :: strLines s := rfl

theorem strLines_crlf (s : Str) : strLines ('\r' :: '\n' :: s) = [] :: strLines s := rfl

/-- A character that ends no line is the first one of the first line. -/
theorem strLines_char {c : Char} {s : Str} (hn : c ≠ '\n') (hr : c = '\r' → s.head? ≠ some '\n') :
    strLines (c :: s) = (c :: (strLines s).headD []) :: (strLines s).tail := by
  rw [strLines]
  · cases strLines s <;> rfl
  · rintro t rfl ht
    subst ht
    exact hr rfl rfl
  · exact hn

theorem strLines_ne_nil {s : Str} (h : s ≠ []) : strLines s ≠ [] := by
  induction s using lineInduction with
  | nil => exact absurd rfl h
  | crlf s ih => simp [strLines_crlf]
  | cr s hh ih => simp [strLines_char (c := '\r') (by decide) (fun _ => hh)]
  | lf s ih => simp [strLines_lf]
  | char c s hr hn ih => simp [strLines_char hn (fun heq => absurd heq hr)]

theorem strLines_eq_nil_iff {s : Str} : strLines s = [] ↔ s = [] := by
  constructor
  · intro h
    by_contra hne
    exact strLines_ne_nil hne h
  · rintro rfl
    rfl

theorem size_cons (l : Str) (ls : List Str) : size (l :: ls) = l.length + 1 + size ls := rfl

theorem size_modifyHead_cons (c : Char) {ls : List Str} (h : ls ≠ []) :
    size (ls.modifyHead (c :: ·)) = size ls + 1 := by
  cases ls with
  | nil => exact absurd rfl h
  | cons l ls =>
      simp only [List.modifyHead_cons, size_cons, List.length_cons]
      omega

/-- The lines of `str::lines` lose the line that follows a last line feed, and nothing else. -/
theorem size_split (s : Str) :
    size (split s) = size (strLines s) + if s = [] ∨ s.getLast? = some '\n' then 1 else 0 := by
  induction s using lineInduction with
  | nil => rfl
  | crlf s ih =>
      rw [split_crlf, strLines_crlf, size_cons, size_cons, ih]
      cases s <;> simp [Nat.add_assoc]
  | cr s hh ih =>
      rw [split_cr hh, strLines_char (by decide) (fun _ => hh), size_cons, size_cons, ih]
      cases hs : strLines s with
      | nil =>
          obtain rfl := strLines_eq_nil_iff.1 hs
          rfl
      | cons l ls =>
          have hne : s ≠ [] := mt strLines_eq_nil_iff.2 (hs ▸ List.cons_ne_nil l ls)
          obtain ⟨c, t, rfl⟩ := List.exists_cons_of_ne_nil hne
          simp [size_cons]
          omega
  | lf s ih =>
      rw [split_lf, strLines_lf, size_cons, size_cons, ih]
      cases s <;> simp [Nat.add_assoc]
  | char c s hr hn ih =>
      rw [split_char hr hn, strLines_char hn (fun heq => absurd heq hr),
        size_modifyHead_cons c (split_ne_nil s), ih, size_cons]
      cases hs : strLines s with
      | nil =>
          obtain rfl := strLines_eq_nil_iff.1 hs
          simp [size, hn]
      | cons l ls =>
          have hne : s ≠ [] := mt strLines_eq_nil_iff.2 (hs ▸ List.cons_ne_nil l ls)
          obtain ⟨d, t, rfl⟩ := List.exists_cons_of_ne_nil hne
          simp [size_cons]
          omega

/-- The lines of a text are no larger than the text. -/
theorem size_split_le (s : Str) : size (split s) ≤ s.length + 1 := by
  induction s using lineInduction with
  | nil => exact le_rfl
  | crlf s ih =>
      rw [split_crlf, size_cons]
      simp only [List.length_nil, List.length_cons]
      omega
  | cr s hh ih =>
      rw [split_cr hh, size_cons]
      simp only [List.length_nil, List.length_cons]
      omega
  | lf s ih =>
      rw [split_lf, size_cons]
      simp only [List.length_nil, List.length_cons]
      omega
  | char c s hr hn ih =>
      rw [split_char hr hn, size_modifyHead_cons c (split_ne_nil s), List.length_cons]
      omega

/-- The size of the values of `data` fields. -/
def dataSize : List Field → ℕ
  | [] => 0
  | f :: fs => (if f.name = "data".toList then f.value.length + 1 else 0) + dataSize fs

theorem dataSize_append (fs fs' : List Field) :
    dataSize (fs ++ fs') = dataSize fs + dataSize fs' := by
  induction fs with
  | nil => simp [dataSize]
  | cons f fs ih => rw [List.cons_append, dataSize, dataSize, ih, Nat.add_assoc]

theorem dataSize_cons (f : Field) (fs : List Field) :
    dataSize (f :: fs) =
      (if f.name = "data".toList then f.value.length + 1 else 0) + dataSize fs := by
  rw [dataSize]

/-- A value is shorter than its line, by the name of the field at least. -/
theorem dataSize_fieldsOf_le (ls : List Str) : dataSize (fieldsOf ls) + ls.length ≤ size ls := by
  induction ls with
  | nil => exact le_rfl
  | cons l ls ih =>
      rw [size_cons, List.length_cons]
      by_cases hl : Silent l
      · rw [fieldsOf_cons_of_silent hl]
        omega
      · have hlen := Field.length_ofLine l
        rw [fieldsOf_cons_of_not_silent hl, dataSize_cons]
        split_ifs with hname
        · rw [hname] at hlen
          have hfour : "data".toList.length = 4 := by decide
          omega
        · omega

/-- What is read of a `data` line falls short of it by the further lines that it has. -/
theorem dataSize_label_le (line : Str) :
    dataSize (⟨"data".toList, (split line).headD []⟩ :: fieldsOf (split line).tail) +
      (split line).tail.length ≤ line.length + 1 := by
  have hsize := size_split_le line
  have htail := dataSize_fieldsOf_le (split line).tail
  rw [split_eq_cons line, size_cons] at hsize
  rw [dataSize_cons, if_pos rfl]
  dsimp only
  omega

/-- The fields of the data of an event. -/
theorem fields_text_ofData (data : Str) :
    fields (SseEvent.ofData data).text = (dataLines data).flatMap fun line =>
      ⟨"data".toList, (split line).headD []⟩ :: fieldsOf (split line).tail := by
  rw [SseEvent.text_ofData]
  induction dataLines data with
  | nil => rfl
  | cons line ls ih =>
      rw [List.flatMap_cons, List.flatMap_cons, List.append_assoc, List.append_assoc,
        List.singleton_append, label_data.fields, ih]

theorem loneFree_cons {c : Char} {s : Str} :
    LoneFree (c :: s) ↔ (c = '\r' → s.head? = some '\n') ∧ LoneFree s := by
  constructor
  · intro h
    refine ⟨?_, fun a b hs => h (c :: a) b (by rw [hs, List.cons_append])⟩
    rintro rfl
    exact h [] s rfl
  · rintro ⟨hc, hs⟩ a b heq
    cases a with
    | nil =>
        obtain ⟨hcr, rfl⟩ := List.cons.inj heq
        exact hc hcr
    | cons d a => exact hs a b (List.cons.inj heq).2

/-- A text whose lines have no carriage returns. -/
theorem loneFree_iff {s : Str} : LoneFree s ↔ ∀ l ∈ strLines s, '\r' ∉ l := by
  induction s using lineInduction with
  | nil => simp [LoneFree, strLines]
  | crlf s ih => simp [loneFree_cons, strLines_crlf, ih]
  | cr s hh ih =>
      rw [strLines_char (by decide) (fun _ => hh), loneFree_cons]
      simp [hh]
  | lf s ih => simp [loneFree_cons, strLines_lf, ih]
  | char c s hr hn ih =>
      rw [strLines_char hn (fun heq => absurd heq hr), loneFree_cons, ih]
      cases strLines s <;> simp [hr, Ne.symm hr]

/-- The lines of `str::lines` are the lines of a text that does not end in a line feed, when they
have no carriage returns. -/
theorem strLines_eq_split {s : Str} (hne : s ≠ []) (hlf : s.getLast? ≠ some '\n')
    (hcr : LoneFree s) : strLines s = split s := by
  induction s using lineInduction with
  | nil => exact absurd rfl hne
  | crlf s ih =>
      cases s with
      | nil => exact absurd rfl hlf
      | cons c s =>
          rw [strLines_crlf, split_crlf, ih (List.cons_ne_nil c s) (by simpa using hlf)
            (loneFree_cons.1 (loneFree_cons.1 hcr).2).2]
  | cr s hh ih => exact absurd ((loneFree_cons.1 hcr).1 rfl) hh
  | lf s ih =>
      cases s with
      | nil => exact absurd rfl hlf
      | cons c s =>
          rw [strLines_lf, split_lf, ih (List.cons_ne_nil c s) (by simpa using hlf)
            (loneFree_cons.1 hcr).2]
  | char c s hr hn ih =>
      rw [strLines_char hn (fun heq => absurd heq hr), split_char hr hn]
      cases s with
      | nil => rfl
      | cons d s =>
          rw [ih (List.cons_ne_nil d s) (by simpa using hlf) (loneFree_cons.1 hcr).2,
            split_eq_cons (d :: s)]
          rfl

theorem dataLines_eq_split {s : Str} (hlf : s.getLast? ≠ some '\n') (hcr : LoneFree s) :
    dataLines s = split s := by
  cases s with
  | nil => rfl
  | cons c s => exact strLines_eq_split (List.cons_ne_nil c s) hlf hcr

theorem size_split_dataLines (s : Str) :
    size (split s) = size (dataLines s) + if s.getLast? = some '\n' then 1 else 0 := by
  cases s with
  | nil => rfl
  | cons c s => simpa [dataLines] using size_split (c :: s)

/-- The `data` lines are the lines of the data exactly when every carriage return in it comes before
a line feed, and no line feed at its end. -/
theorem fields_text_ofData_iff {data : Str} :
    fields (SseEvent.ofData data).text = (split data).map (⟨"data".toList, ·⟩) ↔
      LoneFree data ∧ data.getLast? ≠ some '\n' := by
  rw [fields_text_ofData]
  constructor
  · intro h
    -- the values that are read must have the size of the lines of the data
    have hread : ∀ ls : List Str,
        dataSize (ls.flatMap fun line =>
          ⟨"data".toList, (split line).headD []⟩ :: fieldsOf (split line).tail) +
            (ls.map fun line => (split line).tail.length).sum ≤ size ls := by
      intro ls
      induction ls with
      | nil => exact le_rfl
      | cons line ls ih =>
          have hline := dataSize_label_le line
          rw [List.flatMap_cons, dataSize_append, List.map_cons, List.sum_cons, size_cons]
          omega
    have hmap : ∀ ls : List Str, dataSize (ls.map (⟨"data".toList, ·⟩)) = size ls := by
      intro ls
      induction ls with
      | nil => rfl
      | cons l ls ih => rw [List.map_cons, dataSize_cons, if_pos rfl, ih, size_cons]
    have hsize := hread (dataLines data)
    rw [h, hmap, size_split_dataLines] at hsize
    have hlf : data.getLast? ≠ some '\n' := by
      intro hlf
      rw [if_pos hlf] at hsize
      omega
    have htails : ((dataLines data).map fun line => (split line).tail.length).sum = 0 := by omega
    refine ⟨?_, hlf⟩
    cases data with
    | nil => exact loneFree_iff.2 (fun _ hl => nomatch hl)
    | cons c s =>
        refine loneFree_iff.2 fun l hl => ?_
        have hzero := List.sum_eq_zero_iff_forall_eq_nat.1 htails _ (List.mem_map_of_mem hl)
        exact (oneLine_of_tail_split (List.length_eq_zero_iff.1 hzero)).1
  · rintro ⟨hcr, hlf⟩
    rw [dataLines_eq_split hlf hcr]
    have hall : ∀ l ∈ split data, OneLine l := fun l hl => oneLine_of_mem_split hl
    generalize split data = ls at hall
    induction ls with
    | nil => rfl
    | cons l ls ih =>
        obtain ⟨hl, hls⟩ := List.forall_mem_cons.1 hall
        rw [List.flatMap_cons, split_of_oneLine hl, ih hls]
        rfl

end OxiHttp
