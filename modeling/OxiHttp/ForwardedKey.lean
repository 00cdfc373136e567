/-
**Who chooses the key of the rate limiter.**

Behind a proxy that is trusted the key of a request is to be the last entry of `X-Forwarded-For`,
which is the proxy's own: it stands on the last line, be it the proxy's or one that it appended to.
The server looks at the first line, which is the client's when there are several, and it takes the
address of the peer when that line is not text.  So two requests that the proxy says the same of
have one key exactly when their first lines agree as well.

Main definitions:

* `OxiHttp.lastEntry` — the last entry of a list on several lines;
* `OxiHttp.NamesHop` — what the first line of a request names;
* `OxiHttp.KeepsRateLimitKey` — the client has no say in the key.

Main results:

* `OxiHttp.rateLimitKey_chosen` — the client has every say in it;
* `OxiHttp.keepsRateLimitKey_of_oneLine` — with one line that is text it has none;
* `OxiHttp.keepsRateLimitKey_iff` — when two requests have the key they are to have.
-/

import OxiHttp.Middleware

set_option relaxedAutoImplicit false
set_option autoImplicit false

namespace OxiHttp

/-! ### The entry of the proxy -/

/-- The lines of `X-Forwarded-For`. -/
def forwardedLines (headers : HeaderMap) : List HeaderValue :=
  headers.getAll "x-forwarded-for".toList

/-- The last entry of the list on these lines, which is empty when there is none. -/
def lastEntry (lines : List HeaderValue) : Str :=
  FieldList.trimOws (lastItem (", ".toList.intercalate (lines.map HeaderValue.latin1)))

/-- The first line is text, and this is its last entry. -/
def NamesHop (headers : HeaderMap) (hop : Str) : Prop :=
  hop ≠ [] ∧ ∃ v, (forwardedLines headers).head? = some v ∧ v.toStr.isSome = true ∧
    lastEntry [v] = hop

/-- The client has no say in the key: without trust the headers do not count, and with it they
count for the entry of the proxy alone. -/
def KeepsRateLimitKey (trustForwardedFor : Bool) (remoteIp : Str) (headers headers' : HeaderMap) :
    Prop :=
  (trustForwardedFor = false →
    rateLimitKey headers remoteIp false = rateLimitKey headers' remoteIp false) ∧
  (trustForwardedFor = true → lastEntry (forwardedLines headers) ≠ [] →
    lastEntry (forwardedLines headers) = lastEntry (forwardedLines headers') →
    rateLimitKey headers remoteIp true = rateLimitKey headers' remoteIp true)

/-! ### The last entry -/

theorem lastItem_append_cons (a b : Str) : lastItem (a ++ ',' :: b) = lastItem b := by
  unfold lastItem
  induction b using List.reverseRecOn with
  | nil => rw [List.rtakeWhile_concat_neg _ _ _ (by decide), List.rtakeWhile_nil]
  | append_singleton b x ih =>
      have hcut : a ++ ',' :: (b ++ [x]) = (a ++ ',' :: b) ++ [x] := by simp
      rw [hcut, List.rtakeWhile_concat, List.rtakeWhile_concat, ih]

theorem lastItem_of_notMem {s : Str} (h : ',' ∉ s) : lastItem s = s := by
  rw [lastItem, List.rtakeWhile_eq_self_iff]
  intro c hc
  exact decide_eq_true fun heq => h (heq ▸ hc)

/-- White space in front of a list does not belong to its last entry. -/
theorem trimOws_lastItem_space (s : Str) :
    FieldList.trimOws (lastItem (' ' :: s)) = FieldList.trimOws (lastItem s) := by
  by_cases hs : ',' ∈ s
  · obtain ⟨front, behind, rfl, -⟩ := List.eq_append_cons_of_mem hs
    rw [lastItem_append_cons, ← List.cons_append, lastItem_append_cons]
  · have hs' : ',' ∉ ' ' :: s := by
      rw [List.mem_cons, not_or]
      exact ⟨by decide, hs⟩
    have hspace : ∀ c ∈ [' '], FieldList.isOws c = true := List.forall_mem_singleton.2 rfl
    have haround := FieldList.trim_around hspace (List.forall_mem_nil _) s
    rw [List.append_nil] at haround
    rw [lastItem_of_notMem hs, lastItem_of_notMem hs']
    exact haround

theorem lastEntry_singleton (v : HeaderValue) :
    lastEntry [v] = FieldList.trimOws (lastItem v.latin1) := by
  rw [lastEntry, List.map_singleton, List.intercalate_singleton]

/-- The last entry stands on the last line. -/
theorem lastEntry_concat (lines : List HeaderValue) (v : HeaderValue) :
    lastEntry (lines ++ [v]) = lastEntry [v] := by
  induction lines with
  | nil => rfl
  | cons w lines ih =>
      have hne : (lines ++ [v]).map HeaderValue.latin1 ≠ [] := by simp
      rw [← ih, lastEntry, lastEntry, List.cons_append, List.map_cons,
        List.intercalate_cons_of_ne_nil hne, List.append_assoc]
      exact (congrArg FieldList.trimOws (lastItem_append_cons _ _)).trans
        (trimOws_lastItem_space _)

/-! ### The key -/

/-- The key of a request whose first line is text. -/
theorem rateLimitKey_of_toStr {headers : HeaderMap} {v : HeaderValue} {xff : Str}
    (hhead : (forwardedLines headers).head? = some v) (hv : v.toStr = some xff) (remoteIp : Str) :
    rateLimitKey headers remoteIp true
      = if (lastEntry [v]).isEmpty then remoteIp else lastEntry [v] := by
  have hlast : trim (lastItem xff) = lastEntry [v] := by
    rw [lastEntry_singleton, HeaderValue.latin1_of_toStr hv]
    refine HeaderValue.trim_eq_trimOws fun c hc => ?_
    refine (HeaderValue.isReadable_of_toStr hv).isWhitespace c ?_
    exact (List.rtakeWhile_suffix _ _).mem hc
  have hxff : (headers.get "x-forwarded-for".toList).bind HeaderValue.toStr = some xff := by
    rw [HeaderMap.get, ← forwardedLines, hhead, Option.bind_some, hv]
  rw [rateLimitKey, if_pos rfl, hxff]
  simp only [hlast]

/-- The key of one whose first line is not text, or that has none. -/
theorem rateLimitKey_of_unreadable {headers : HeaderMap}
    (h : ∀ v, (forwardedLines headers).head? = some v → v.toStr = none) (remoteIp : Str) :
    rateLimitKey headers remoteIp true = remoteIp := by
  have hxff : (headers.get "x-forwarded-for".toList).bind HeaderValue.toStr = none := by
    rw [Option.bind_eq_none_iff]
    exact h
  rw [rateLimitKey, if_pos rfl, hxff]

/-- What a line that is text names. -/
theorem namesHop_iff {headers : HeaderMap} {v : HeaderValue}
    (hhead : (forwardedLines headers).head? = some v) (hv : v.toStr.isSome = true) {hop : Str} :
    NamesHop headers hop ↔ hop ≠ [] ∧ lastEntry [v] = hop := by
  constructor
  · rintro ⟨hhop, w, hw, -, hlast⟩
    rw [hhead, Option.some_inj] at hw
    exact ⟨hhop, hw ▸ hlast⟩
  · rintro ⟨hhop, hlast⟩
    exact ⟨hhop, v, hhead, hv, hlast⟩

/-- Any key but the address of the peer is named by the first line. -/
theorem rateLimitKey_eq_iff {headers : HeaderMap} {remoteIp key : Str} (hne : key ≠ remoteIp) :
    rateLimitKey headers remoteIp true = key ↔ NamesHop headers key := by
  by_cases hread : ∃ v, (forwardedLines headers).head? = some v ∧ v.toStr.isSome = true
  · obtain ⟨v, hhead, hv⟩ := hread
    obtain ⟨xff, hxff⟩ := Option.isSome_iff_exists.1 hv
    rw [rateLimitKey_of_toStr hhead hxff, namesHop_iff hhead hv]
    split_ifs with hempty
    · rw [List.isEmpty_iff] at hempty
      rw [hempty]
      exact iff_of_false (Ne.symm hne) fun h => h.1 h.2.symm
    · rw [List.isEmpty_iff] at hempty
      exact ⟨fun h => ⟨h ▸ hempty, h⟩, fun h => h.2⟩
  · have hnone : ∀ v, (forwardedLines headers).head? = some v → v.toStr = none := by
      intro v hv
      rw [← Option.not_isSome_iff_eq_none]
      exact fun h => hread ⟨v, hv, h⟩
    rw [rateLimitKey_of_unreadable hnone]
    refine iff_of_false (Ne.symm hne) ?_
    rintro ⟨-, v, hv, hsome, -⟩
    exact hread ⟨v, hv, hsome⟩

/-- Two requests have one key when their first lines name the same, but for the address of the
peer. -/
theorem rateLimitKey_congr_iff {headers headers' : HeaderMap} {remoteIp : Str} :
    rateLimitKey headers remoteIp true = rateLimitKey headers' remoteIp true ↔
      ∀ hop, hop ≠ remoteIp → (NamesHop headers hop ↔ NamesHop headers' hop) := by
  constructor
  · intro h hop hne
    rw [← rateLimitKey_eq_iff hne, ← rateLimitKey_eq_iff hne, h]
  · intro h
    by_cases hkey : rateLimitKey headers remoteIp true = remoteIp
    · by_contra hother
      have hne : rateLimitKey headers' remoteIp true ≠ remoteIp := fun heq =>
        hother (hkey.trans heq.symm)
      have hnames := (h _ hne).2 ((rateLimitKey_eq_iff hne).1 rfl)
      exact hother ((rateLimitKey_eq_iff hne).2 hnames)
    · have hnames := (h _ hkey).1 ((rateLimitKey_eq_iff hkey).1 rfl)
      exact ((rateLimitKey_eq_iff hkey).2 hnames).symm

/-! ### The say of the client -/

/-- A line of the client in front of that of the proxy is the key. -/
theorem rateLimitKey_chosen {headers : HeaderMap} {own proxy : HeaderValue}
    {lines : List HeaderValue} {key : Str}
    (hlines : forwardedLines headers = own :: (lines ++ [proxy])) (hown : own.toStr = some key)
    (hkey : FieldList.IsElement key) (remoteIp : Str) :
    rateLimitKey headers remoteIp true = key ∧
      lastEntry (forwardedLines headers) = lastEntry [proxy] := by
  have hlast : lastEntry [own] = key := by
    rw [lastEntry_singleton, HeaderValue.latin1_of_toStr hown, lastItem_of_notMem hkey.comma_notMem,
      hkey.trim]
  refine ⟨?_, ?_⟩
  · have hhead : (forwardedLines headers).head? = some own := by rw [hlines, List.head?_cons]
    rw [rateLimitKey_of_toStr hhead hown, hlast, if_neg]
    simpa using hkey.ne_nil
  · rw [hlines, ← List.cons_append, lastEntry_concat]

/-- Two requests have the key they are to have exactly when the proxy does not say the same of both,
or their first lines name the same hop; one that names none names the peer. -/
theorem keepsRateLimitKey_iff (trustForwardedFor : Bool) (remoteIp : Str)
    (headers headers' : HeaderMap) :
    KeepsRateLimitKey trustForwardedFor remoteIp headers headers' ↔
      (trustForwardedFor = true → lastEntry (forwardedLines headers) ≠ [] →
        lastEntry (forwardedLines headers) = lastEntry (forwardedLines headers') →
        ∀ hop, hop ≠ remoteIp → (NamesHop headers hop ↔ NamesHop headers' hop)) := by
  constructor
  · rintro ⟨-, hkeeps⟩ htrust hne heq
    exact rateLimitKey_congr_iff.1 (hkeeps htrust hne heq)
  · intro h
    refine ⟨fun _ => rfl, fun htrust hne heq => ?_⟩
    exact rateLimitKey_congr_iff.2 (h htrust hne heq)

/-- Each request is its proxy's, but the first line is its client's. -/
theorem not_keepsRateLimitKey_twoLines :
    ¬ KeepsRateLimitKey true "10.0.0.1".toList
      ⟨[("x-forwarded-for".toList, ⟨Utf8.encode "1.2.3.4".toList⟩),
        ("x-forwarded-for".toList, ⟨Utf8.encode "203.0.113.5".toList⟩)]⟩
      ⟨[("x-forwarded-for".toList, ⟨Utf8.encode "5.6.7.8".toList⟩),
        ("x-forwarded-for".toList, ⟨Utf8.encode "203.0.113.5".toList⟩)]⟩ := by
  rintro ⟨-, hkeeps⟩
  exact absurd (hkeeps rfl (by decide +kernel) (by decide +kernel)) (by decide +kernel)

/-- With one line that is text the client has no say. -/
theorem keepsRateLimitKey_of_oneLine {headers headers' : HeaderMap} {v v' : HeaderValue}
    (hlines : forwardedLines headers = [v]) (hlines' : forwardedLines headers' = [v'])
    (hv : v.toStr.isSome = true) (hv' : v'.toStr.isSome = true) (trustForwardedFor : Bool)
    (remoteIp : Str) : KeepsRateLimitKey trustForwardedFor remoteIp headers headers' := by
  refine ⟨fun _ => rfl, fun _ _ heq => ?_⟩
  rw [hlines, hlines'] at heq
  refine rateLimitKey_congr_iff.2 fun hop _ => ?_
  rw [namesHop_iff (by rw [hlines, List.head?_cons]) hv,
    namesHop_iff (by rw [hlines', List.head?_cons]) hv', heq]

end OxiHttp
