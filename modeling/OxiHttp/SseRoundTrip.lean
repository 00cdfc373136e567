/-
**What readers make of server-sent events.**

A reader that is fed the encoding of an event should dispatch that event and no other, and no text
in the event should be taken for a field of its own.

Main definitions:

* `OxiHttp.SseEvent.Reads`, `OxiHttp.SseEvent.RoundTrips` — what is expected of the encoding;
* `OxiHttp.OneField` — a text whose further lines have no fields.

Main results:

* `OxiHttp.SseEvent.feed_id`, `OxiHttp.SseEvent.feed_event`, `OxiHttp.SseEvent.feed_retry`,
  `OxiHttp.SseEvent.feed_ofData` — the effect of each part of the encoding on a reader;
* `OxiHttp.SseEvent.roundTrips_iff` — which events come back.
-/

import OxiHttp.Sse

set_option relaxedAutoImplicit false
set_option autoImplicit false

namespace OxiHttp

open EventStream

/-- A text whose further lines are empty or comments. -/
def OneField (s : Str) : Prop := ∀ l ∈ (split s).tail, Silent l

namespace SseEvent

/-- What a reader makes of an event: what it dispatches, and its state before and after. -/
structure Reads (e : SseEvent) (s s' : State) (ev : Event) : Prop where
  data : ev.data = normalize e.data
  id : ∀ id ∈ e.id, OneLine id → ev.lastEventId = id
  no_id : e.id = none → ev.lastEventId = s.lastEventId
  type : ∀ event ∈ e.event, OneLine event → ev.type = event
  no_type : e.event = none → ev.type = "message".toList
  retry : s'.retry = (e.retry.map UInt64.toNat).or s.retry
  idle : s'.data = [] ∧ s'.type = []

/-- An event comes back: a reader between two events dispatches it alone, and its texts make no
fields but those that they should. -/
structure RoundTrips (e : SseEvent) : Prop where
  reads : ∀ s : State, s.data = [] → s.type = [] →
    ∃ s' ev, s.read e.encode = (s', [ev]) ∧ e.Reads s s' ev
  id_alone : ∀ id ∈ e.id, ∃ value,
    fields e.text = ⟨"id".toList, value⟩ :: fields { e with id := none }.text
  event_alone : ∀ event ∈ e.event, ∃ value,
    fields { e with id := none }.text =
      ⟨"event".toList, value⟩ :: fields { e with id := none, event := none }.text
  data_lines : fields (ofData e.data).text = (split e.data).map (⟨"data".toList, ·⟩)

variable {e : SseEvent} {s : State}

theorem feed_id (hnul : ∀ id ∈ e.id, '\x00' ∉ id) (hid : ∀ id ∈ e.id, OneField id)
    (hdata : s.data = []) (htype : s.type = []) :
    ∃ i, s.feed e.text = { s with lastEventId := i }.feed { e with id := none }.text ∧
      (∀ id ∈ e.id, OneLine id → i = id) ∧ (e.id = none → i = s.lastEventId) := by
  cases h : e.id with
  | none =>
      have he : e = { e with id := none } := by rw [← h]
      refine ⟨s.lastEventId, by rw [← he], nofun, fun _ => rfl⟩
  | some id =>
      have hfirst : '\x00' ∉ (split id).headD [] := fun hmem =>
        hnul id h (mem_of_mem_headD_split hmem)
      obtain ⟨s', hfeed, hs'⟩ := State.feed_label_silent label_id (hid id h) (s := s)
        (by rw [State.field_id s hfirst]; exact hdata) { e with id := none }.text
      refine ⟨(split id).headD [], ?_, ?_, nofun⟩
      · rw [text_id h, hfeed]
        rcases hs' with rfl | rfl
        · rw [State.field_id s hfirst]
        · rw [State.field_id s hfirst, ← htype]
      · rintro _ ⟨⟩ hone
        rw [split_of_oneLine hone]
        rfl

theorem feed_event (hid : e.id = none) (hevent : ∀ event ∈ e.event, OneField event)
    (hdata : s.data = []) :
    ∃ t, s.feed e.text = { s with type := t }.feed { e with event := none }.text ∧
      (∀ event ∈ e.event, OneLine event → t = event) ∧ (e.event = none → t = s.type) := by
  cases h : e.event with
  | none =>
      have he : e = { e with event := none } := by rw [← h]
      refine ⟨s.type, by rw [← he], nofun, fun _ => rfl⟩
  | some event =>
      by_cases hone : OneLine event
      · refine ⟨event, ?_, ?_, nofun⟩
        · rw [text_event hid h, State.feed_label label_event hone, State.field_event]
        · rintro _ ⟨⟩ -
          rfl
      · obtain ⟨s', hfeed, hs'⟩ := State.feed_label_silent label_event (hevent event h) (s := s)
          (by rw [State.field_event]; exact hdata) { e with event := none }.text
        rw [text_event hid h, hfeed]
        rcases hs' with rfl | rfl <;> rw [State.field_event]
        · refine ⟨_, rfl, ?_, nofun⟩
          rintro _ ⟨⟩ hone'
          exact absurd hone' hone
        · refine ⟨_, rfl, ?_, nofun⟩
          rintro _ ⟨⟩ hone'
          exact absurd hone' hone

theorem oneLine_toDigits (n : ℕ) : OneLine (Nat.toDigits 10 n) := by
  have hdigit : ∀ c ∈ Nat.toDigits 10 n, c.isDigit = true := fun _ hc =>
    Nat.isDigit_of_mem_toDigits (by decide) (by decide) hc
  exact ⟨fun h => absurd (hdigit _ h) (by decide), fun h => absurd (hdigit _ h) (by decide)⟩

theorem feed_retry (hid : e.id = none) (hevent : e.event = none) :
    s.feed e.text = { s with retry := (e.retry.map UInt64.toNat).or s.retry }.feed
      (ofData e.data).text := by
  have hdata : { e with retry := none } = ofData e.data := by
    rw [ofData, hid, hevent]
  cases h : e.retry with
  | none =>
      have he : e = ofData e.data := by rw [← hdata, ← h]
      rw [← he]
      rfl
  | some ms =>
      rw [text_retry hid hevent h, State.feed_label label_retry (oneLine_toDigits _),
        State.field_retry, hdata]
      rfl

/-- Every line of the data is taken in. -/
theorem feed_dataLines {ls : List Str} (h : ∀ l ∈ ls, OneLine l) (s : State) (rest : Str) :
    s.feed (ls.flatMap (fun line => "data".toList ++ [':', ' '] ++ line ++ ['\n']) ++ rest) =
      { s with data := s.data ++ ls.flatMap (· ++ ['\n']) }.feed rest := by
  induction ls generalizing s with
  | nil => simp
  | cons l ls ih =>
      obtain ⟨hl, hls⟩ := List.forall_mem_cons.1 h
      rw [List.flatMap_cons, List.append_assoc, List.append_assoc, List.singleton_append,
        State.feed_label label_data hl, State.field_data, ih hls]
      simp [List.append_assoc]

theorem flatMap_lf {ls : List Str} (h : ls ≠ []) :
    ls.flatMap (· ++ ['\n']) = List.intercalate ['\n'] ls ++ ['\n'] := by
  induction ls with
  | nil => exact absurd rfl h
  | cons l ls ih =>
      cases ls with
      | nil => simp
      | cons l' ls =>
          rw [List.flatMap_cons, ih (List.cons_ne_nil _ _),
            List.intercalate_cons_of_ne_nil (List.cons_ne_nil _ _)]
          simp [List.append_assoc]

theorem feed_ofData {data : Str} (hcr : LoneFree data) (hlf : data.getLast? ≠ some '\n')
    (hs : s.data = []) :
    s.feed (ofData data).text = ({ s with data := [], type := [] },
      [⟨normalize data, if s.type = [] then "message".toList else s.type, s.lastEventId⟩]) := by
  rw [text_ofData, dataLines_eq_split hlf hcr,
    feed_dataLines (fun l hl => oneLine_of_mem_split hl), flatMap_lf (split_ne_nil data), hs,
    ← normalize_eq_intercalate, List.nil_append, State.feed_lf, State.dispatch]
  dsimp only
  rw [if_neg (List.append_ne_nil_of_right_ne_nil _ (List.cons_ne_nil _ _)), List.dropLast_concat]

/-- A text behind a label makes a field of its own and no other exactly when its further lines have
no fields. -/
theorem label_alone_iff {name : Str} (h : Label name) (value rest : Str) :
    (∃ v, fields (name ++ [':', ' '] ++ value ++ '\n' :: rest) = ⟨name, v⟩ :: fields rest) ↔
      OneField value := by
  rw [h.fields, OneField, ← fieldsOf_eq_nil_iff]
  constructor
  · rintro ⟨v, heq⟩
    exact List.self_eq_append_left.1 (List.cons.inj heq).2.symm
  · intro hnil
    exact ⟨(split value).headD [], by rw [hnil]; rfl⟩

theorem id_alone_iff {id : Str} (h : e.id = some id) :
    (∃ value, fields e.text = ⟨"id".toList, value⟩ :: fields { e with id := none }.text) ↔
      OneField id := by
  rw [text_id h]
  exact label_alone_iff label_id id _

theorem event_alone_iff {event : Str} (hid : e.id = none) (h : e.event = some event) :
    (∃ value, fields e.text = ⟨"event".toList, value⟩ :: fields { e with event := none }.text) ↔
      OneField event := by
  rw [text_event hid h]
  exact label_alone_iff label_event event _

/-- An event whose texts make no further fields is read as it was written. -/
theorem reads_of_oneField (hnul : ∀ id ∈ e.id, '\x00' ∉ id) (hne : ∀ event ∈ e.event, event ≠ [])
    (hid : ∀ id ∈ e.id, OneField id) (hevent : ∀ event ∈ e.event, OneField event)
    (hcr : LoneFree e.data) (hlf : e.data.getLast? ≠ some '\n') (hdata : s.data = [])
    (htype : s.type = []) : ∃ s' ev, s.read e.encode = (s', [ev]) ∧ e.Reads s s' ev := by
  obtain ⟨i, hfeed₁, hi, hnone₁⟩ := feed_id hnul hid hdata htype
  obtain ⟨t, hfeed₂, ht, hnone₂⟩ := feed_event (e := { e with id := none })
    (s := { s with lastEventId := i }) rfl hevent hdata
  have hfeed₃ := feed_retry (e := { e with id := none, event := none })
    (s := { s with lastEventId := i, type := t }) rfl rfl
  have hfeed₄ := feed_ofData (s := { s with
    lastEventId := i, type := t, retry := (e.retry.map UInt64.toNat).or s.retry }) hcr hlf hdata
  have hread := (State.read_encode s e.text).trans
    (hfeed₁.trans (hfeed₂.trans (hfeed₃.trans hfeed₄)))
  refine ⟨_, _, hread, ?_⟩
  constructor
  · rfl
  · exact hi
  · exact hnone₁
  · intro event hmem hone
    have heq : t = event := ht event hmem hone
    dsimp only
    rw [heq, if_neg (hne event hmem)]
  · intro hnone
    have heq : t = [] := (hnone₂ hnone).trans htype
    dsimp only
    rw [heq, if_pos rfl]
  · rfl
  · exact ⟨rfl, rfl⟩

/-- An event comes back exactly when the further lines of its id and its type are empty or comments,
and every carriage return of its data comes before a line feed, but no line feed at its end. -/
theorem roundTrips_iff (hnul : ∀ id ∈ e.id, '\x00' ∉ id)
    (hevent : ∀ event ∈ e.event, event ≠ [] ∧ '\x00' ∉ event) :
    e.RoundTrips ↔ (∀ id ∈ e.id, OneField id) ∧ (∀ event ∈ e.event, OneField event) ∧
      LoneFree e.data ∧ e.data.getLast? ≠ some '\n' := by
  constructor
  · intro h
    refine ⟨fun id hid => (id_alone_iff hid).1 (h.id_alone id hid), fun event hmem => ?_,
      fields_text_ofData_iff.1 h.data_lines⟩
    exact (event_alone_iff (e := { e with id := none }) rfl hmem).1 (h.event_alone event hmem)
  · rintro ⟨hid, hone, hcr, hlf⟩
    constructor
    · intro s hdata htype
      exact reads_of_oneField hnul (fun event hmem => (hevent event hmem).1) hid hone hcr hlf hdata
        htype
    · exact fun id hmem => (id_alone_iff hmem).2 (hid id hmem)
    · exact fun event hmem => (event_alone_iff (e := { e with id := none }) rfl hmem).2
        (hone event hmem)
    · exact fields_text_ofData_iff.2 ⟨hcr, hlf⟩

/-- An event with all its fields. -/
def updateEvent : SseEvent :=
  (((ofData "one\r\ntwo".toList).withId "7".toList).withEvent "update".toList).withRetry 3000

theorem roundTrips_iff_updateEvent :
    updateEvent.RoundTrips ↔ (∀ id ∈ updateEvent.id, OneField id) ∧
      (∀ event ∈ updateEvent.event, OneField event) ∧ LoneFree updateEvent.data ∧
      updateEvent.data.getLast? ≠ some '\n' :=
  roundTrips_iff (by decide) (by decide)

/-- An event whose id has a line that looks like data. -/
def forgedEvent : SseEvent := (ofData "hello".toList).withId "1\ndata: forged".toList

/-- The reader takes that line for data. -/
theorem not_roundTrips_forgedEvent : ¬ forgedEvent.RoundTrips := by
  intro h
  obtain ⟨s', ev, hread, hev⟩ := h.reads ⟨[], [], [], none⟩ rfl rfl
  have hfeed : State.feed ⟨[], [], [], none⟩ forgedEvent.text = (⟨[], [], "1".toList, none⟩,
      [⟨"forged\nhello".toList, "message".toList, "1".toList⟩]) := by
    decide +kernel
  rw [encode, State.read_encode, hfeed] at hread
  obtain ⟨-, rfl⟩ : _ ∧ _ = ev := by simpa using hread
  exact absurd hev.data (by decide +kernel)

end SseEvent

end OxiHttp
