/-
**What CORS adds to a response.**

A configuration that lists its origins lets the response depend on the origin of the request, so it
adds `Origin` to `Vary` for every request, allowed or not.  What else it adds it adds for an origin
of its list alone.  Both are done once: the headers are inserted under names of their own, and an
`Origin` that stands in `Vary` is found there.

Main definitions:

* `OxiHttp.varyTokens` — what a response varies on, over all of its lines;
* `OxiHttp.AddsCors` — what the headers of a response are to become.

Main results:

* `OxiHttp.varyTokens_addVaryOrigin` — no token is lost, and `Origin` is there once it was added;
* `OxiHttp.CorsConfig.allowHeaders_idem` — what is inserted for an origin is inserted once;
* `OxiHttp.CorsConfig.applyHeaders_addsCors` — the headers become what they are to become.
-/

import OxiHttp.Cors
import OxiHttp.KeyedList

set_option relaxedAutoImplicit false
set_option autoImplicit false

namespace OxiHttp

open HeaderValue (IsReadable)

/-! ### What a response varies on -/

/-- The elements of all lines of `Vary`. -/
def varyTokens (headers : HeaderMap) : List Str :=
  (headers.getAll "vary".toList).flatMap fun v => FieldList.items v.latin1

theorem varyTokens_congr {headers headers' : HeaderMap}
    (h : headers'.getAll "vary".toList = headers.getAll "vary".toList) :
    varyTokens headers' = varyTokens headers := by
  rw [varyTokens, h, varyTokens]

/-- Some token names the header `Origin`, whatever its case. -/
def variesOnOrigin (headers : HeaderMap) : Bool :=
  (varyTokens headers).any (eqIgnoreAsciiCase "origin".toList)

/-- The lines of `Vary` are text. -/
def ReadableVary (headers : HeaderMap) : Prop :=
  ∀ v ∈ headers.getAll "vary".toList, v.toStr.isSome = true

theorem mapM_toStr {vs : List HeaderValue} (h : ∀ v ∈ vs, v.toStr.isSome = true) :
    vs.mapM HeaderValue.toStr = some (vs.map HeaderValue.latin1) := by
  induction vs with
  | nil => rfl
  | cons v vs ih =>
      rw [List.forall_mem_cons] at h
      obtain ⟨s, hs⟩ := Option.isSome_iff_exists.1 h.1
      rw [List.mapM_cons, hs, ih h.2, List.map_cons, HeaderValue.latin1_of_toStr hs]
      rfl

/-- The server and the grammar of lists see the same elements in a readable line. -/
theorem listItems_eq_items {line : Str} (h : IsReadable line) :
    listItems line = FieldList.items line := by
  rw [FieldList.items_eq_tokens, listItems, FieldList.tokens]
  congr 1
  refine List.map_congr_left fun piece hpiece => ?_
  refine HeaderValue.trim_eq_trimOws fun c hc => h.isWhitespace c ?_
  exact Pieces.mem_of_mem_splitOn hpiece hc

/-- The tokens of readable lines are readable elements of a list. -/
theorem isReadable_of_mem_varyTokens {headers : HeaderMap} (h : ReadableVary headers) {t : Str}
    (ht : t ∈ varyTokens headers) : IsReadable t ∧ FieldList.IsElement t := by
  obtain ⟨v, hv, ht⟩ := List.mem_flatMap.1 ht
  obtain ⟨line, hline⟩ := Option.isSome_iff_exists.1 (h v hv)
  rw [HeaderValue.latin1_of_toStr hline, FieldList.items_eq_tokens] at ht
  refine ⟨fun c hc => HeaderValue.isReadable_of_toStr hline c ?_,
    FieldList.isElement_of_mem_tokens ht⟩
  obtain ⟨piece, hpiece, rfl⟩ := List.mem_map.1 (List.mem_filter.1 ht).1
  exact Pieces.mem_of_mem_splitOn hpiece (FieldList.mem_of_mem_trimOws hc)

/-- A line of readable items is readable. -/
theorem isReadable_joinComma {items : List Str} (h : ∀ t ∈ items, IsReadable t) :
    IsReadable (joinComma items) := by
  induction items with
  | nil => exact List.forall_mem_nil _
  | cons t items ih =>
      rw [List.forall_mem_cons] at h
      cases items with
      | nil => simpa [joinComma] using h.1
      | cons t' items =>
          have hcomma : IsReadable ", ".toList := by decide
          intro c hc
          rw [joinComma, List.intercalate_cons_cons, List.mem_append, List.mem_append] at hc
          rcases hc with (hc | hc) | hc
          · exact h.1 c hc
          · exact hcomma c hc
          · exact ih h.2 c hc

/-- The tokens with `Origin` behind them. -/
theorem isReadable_of_mem_withOrigin {headers : HeaderMap} (h : ReadableVary headers) {t : Str}
    (ht : t ∈ varyTokens headers ++ ["Origin".toList]) : IsReadable t ∧ FieldList.IsElement t := by
  rcases List.mem_append.1 ht with ht | ht
  · exact isReadable_of_mem_varyTokens h ht
  · rw [List.mem_singleton.1 ht]
    exact ⟨by decide, by decide, by decide, by decide⟩

theorem isReadable_withOrigin {headers : HeaderMap} (h : ReadableVary headers) :
    IsReadable (joinComma (varyTokens headers ++ ["Origin".toList])) :=
  isReadable_joinComma fun _ ht => (isReadable_of_mem_withOrigin h ht).1

/-- What becomes of readable lines. -/
theorem addVaryOrigin_eq {headers : HeaderMap} (h : ReadableVary headers) :
    addVaryOrigin headers = if variesOnOrigin headers then headers else
      headers.insert "vary".toList
        ⟨Utf8.encode (joinComma (varyTokens headers ++ ["Origin".toList]))⟩ := by
  have htokens : ((headers.getAll "vary".toList).map HeaderValue.latin1).flatMap listItems
      = varyTokens headers := by
    rw [List.flatMap_map]
    refine List.flatMap_congr fun v hv => listItems_eq_items ?_
    obtain ⟨line, hline⟩ := Option.isSome_iff_exists.1 (h v hv)
    rw [HeaderValue.latin1_of_toStr hline]
    exact HeaderValue.isReadable_of_toStr hline
  rw [addVaryOrigin, mapM_toStr h]
  simp only [htokens, HeaderValue.fromStr_of_isReadable (isReadable_withOrigin h)]
  rfl

/-- The tokens stay as they are, and `Origin` comes behind them when it is not among them. -/
theorem varyTokens_addVaryOrigin {headers : HeaderMap} (h : ReadableVary headers) :
    varyTokens (addVaryOrigin headers)
      = varyTokens headers ++ if variesOnOrigin headers then [] else ["Origin".toList] := by
  rw [addVaryOrigin_eq h]
  cases hvaries : variesOnOrigin headers with
  | true => simp
  | false =>
      have hread := HeaderValue.toStr_of_isReadable (isReadable_withOrigin h)
      rw [if_neg Bool.false_ne_true, if_neg Bool.false_ne_true, varyTokens,
        HeaderMap.getAll_insert, if_pos rfl, List.flatMap_singleton,
        HeaderValue.latin1_of_toStr hread, FieldList.items_eq_tokens]
      exact FieldList.tokens_intercalate fun t ht => (isReadable_of_mem_withOrigin h ht).2

theorem readableVary_addVaryOrigin {headers : HeaderMap} (h : ReadableVary headers) :
    ReadableVary (addVaryOrigin headers) := by
  rw [addVaryOrigin_eq h]
  split_ifs
  · exact h
  · intro v hv
    rw [HeaderMap.getAll_insert, if_pos rfl, List.mem_singleton] at hv
    rw [hv, HeaderValue.toStr_of_isReadable (isReadable_withOrigin h)]
    rfl

theorem variesOnOrigin_addVaryOrigin {headers : HeaderMap} (h : ReadableVary headers) :
    variesOnOrigin (addVaryOrigin headers) = true := by
  have horigin : eqIgnoreAsciiCase "origin".toList "Origin".toList = true := by decide
  rw [variesOnOrigin, varyTokens_addVaryOrigin h, List.any_append]
  cases hvaries : variesOnOrigin headers with
  | true => rw [← variesOnOrigin, hvaries, Bool.true_or]
  | false => rw [if_neg Bool.false_ne_true, List.any_cons, horigin, Bool.true_or, Bool.or_true]

/-- A response that varies on the origin is left as it is. -/
theorem addVaryOrigin_of_variesOnOrigin {headers : HeaderMap} (h : ReadableVary headers)
    (hvaries : variesOnOrigin headers = true) : addVaryOrigin headers = headers := by
  rw [addVaryOrigin_eq h, if_pos hvaries]

/-- `Vary` is the only header that is touched. -/
theorem getAll_addVaryOrigin_of_ne {headers : HeaderMap} (h : ReadableVary headers) {name : Str}
    (hname : name ≠ "vary".toList) : (addVaryOrigin headers).getAll name = headers.getAll name := by
  rw [addVaryOrigin_eq h]
  split_ifs
  · rfl
  · rw [HeaderMap.getAll_insert, if_neg hname.symm]

/-! ### The headers of an origin that is allowed -/

/-- The map of headers is a table by the name. -/
theorem HeaderMap.insertFields_eq (headers : HeaderMap) (fields : List (Str × HeaderValue)) :
    headers.insertFields fields
      = ⟨fields.foldl (fun l p => KeyedList.put Prod.fst p l) headers.fields⟩ := by
  induction fields generalizing headers with
  | nil => rfl
  | cons p fields ih => exact ih _

namespace CorsConfig

variable (config : CorsConfig)

/-- What is inserted for an origin is inserted once. -/
theorem allowHeaders_idem (headers : HeaderMap) (origin : Str) :
    config.allowHeaders (config.allowHeaders headers origin) origin
      = config.allowHeaders headers origin := by
  have hdistinct : KeyedList.Distinct Prod.fst (config.allowFields origin) :=
    List.pairwise_map.1 (List.Nodup.sublist (config.allowFields_sublist origin) (by decide))
  rw [allowHeaders_eq, allowHeaders_eq, HeaderMap.insertFields_eq, HeaderMap.insertFields_eq,
    KeyedList.foldl_put_idem hdistinct]

/-- No other header is touched. -/
theorem getAll_allowHeaders_of_notMem (headers : HeaderMap) (origin : Str) {name : Str}
    (h : name ∉ allowNames) :
    (config.allowHeaders headers origin).getAll name = headers.getAll name := by
  rw [allowHeaders_eq]
  exact HeaderMap.getAll_insertFields_of_notMem fun hmem =>
    h ((config.allowFields_sublist origin).mem hmem)

end CorsConfig

/-! ### The whole of it -/

/-- What the headers of a response are to become: the tokens of `Vary` stay and `Origin` is among
them, the headers of CORS are those of an origin that is allowed, and nothing else changes. -/
structure AddsCors (config : CorsConfig) (origin : Option Str) (headers headers' : HeaderMap) :
    Prop where
  vary : varyTokens headers'
    = varyTokens headers ++ if variesOnOrigin headers then [] else ["Origin".toList]
  other : ∀ name, name ≠ "vary".toList → ¬ "access-control-".toList <+: name →
    headers'.getAll name = headers.getAll name
  denied : (∀ o ∈ origin, o ∉ config.allowedOrigins) → ∀ name, "access-control-".toList <+: name →
    headers'.getAll name = headers.getAll name
  allowed : ∀ o ∈ origin, o ∈ config.allowedOrigins → ∃ v, HeaderValue.fromStr o = some v ∧
    headers'.getAll "access-control-allow-origin".toList = [v]

namespace CorsConfig

theorem accessControl_of_mem_allowNames : ∀ name ∈ allowNames, "access-control-".toList <+: name := by
  decide

theorem ne_vary_of_accessControl {name : Str} (h : "access-control-".toList <+: name) :
    name ≠ "vary".toList := by
  rintro rfl
  revert h
  decide

theorem getAll_vary_allowHeaders (config : CorsConfig) (headers : HeaderMap) (origin : Str) :
    (config.allowHeaders headers origin).getAll "vary".toList = headers.getAll "vary".toList :=
  config.getAll_allowHeaders_of_notMem headers origin (by decide)

/-- For an origin that is not allowed `Vary` is all there is. -/
theorem addsCors_of_denied {config : CorsConfig} {origin : Option Str}
    (hdenied : ∀ o ∈ origin, o ∉ config.allowedOrigins) {headers : HeaderMap}
    (hvary : ReadableVary headers) : AddsCors config origin headers (addVaryOrigin headers) where
  vary := varyTokens_addVaryOrigin hvary
  other _ hname _ := getAll_addVaryOrigin_of_ne hvary hname
  denied _ _ hpre := getAll_addVaryOrigin_of_ne hvary (ne_vary_of_accessControl hpre)
  allowed o ho hallowed := absurd hallowed (hdenied o ho)

/-- For one that is allowed its headers come as well. -/
theorem addsCors_of_allowed {config : CorsConfig} {origin : Str}
    (hallowed : origin ∈ config.allowedOrigins) {v : HeaderValue}
    (hv : HeaderValue.fromStr origin = some v) {headers : HeaderMap}
    (hvary : ReadableVary headers) :
    AddsCors config (some origin) headers
      (config.allowHeaders (addVaryOrigin headers) origin) where
  vary := by
    rw [varyTokens_congr (config.getAll_vary_allowHeaders _ _)]
    exact varyTokens_addVaryOrigin hvary
  other name hname hpre := by
    have hmem : name ∉ allowNames := fun hmem => hpre (accessControl_of_mem_allowNames name hmem)
    rw [config.getAll_allowHeaders_of_notMem _ _ hmem]
    exact getAll_addVaryOrigin_of_ne hvary hname
  denied hdenied := absurd hallowed (hdenied origin rfl)
  allowed o ho _ := by
    obtain rfl := Option.some_inj.1 ho
    exact ⟨v, hv, getAll_allowHeaders_of_fromStr hv⟩

/-- The headers of a response become what they are to become, once and for all. -/
theorem applyHeaders_addsCors (config : CorsConfig) (hlist : "*".toList ∉ config.allowedOrigins)
    (debugAssertions : Bool) (origin : Option Str)
    (horigin : ∀ o ∈ origin, (HeaderValue.fromStr o).isSome = true) (headers : HeaderMap)
    (hvary : ReadableVary headers) :
    ∃ headers', config.applyHeaders debugAssertions headers origin = some headers' ∧
      AddsCors config origin headers headers' ∧
      config.applyHeaders debugAssertions headers' origin = some headers' := by
  -- `Origin` stands in `Vary` now
  have hread := readableVary_addVaryOrigin hvary
  have hvaries := variesOnOrigin_addVaryOrigin hvary
  by_cases hallowed : ∃ o ∈ origin, o ∈ config.allowedOrigins
  · obtain ⟨o, rfl, ho⟩ := hallowed
    obtain ⟨v, hv⟩ := Option.isSome_iff_exists.1 (horigin o rfl)
    refine ⟨_, applyHeaders_of_allowed hlist ho debugAssertions headers,
      addsCors_of_allowed ho hv hvary, ?_⟩
    have hsame := config.getAll_vary_allowHeaders (addVaryOrigin headers) o
    have hvary' : addVaryOrigin (config.allowHeaders (addVaryOrigin headers) o)
        = config.allowHeaders (addVaryOrigin headers) o := by
      refine addVaryOrigin_of_variesOnOrigin ?_ ?_
      · rw [ReadableVary, hsame]
        exact hread
      · rw [variesOnOrigin, varyTokens_congr hsame]
        exact hvaries
    rw [applyHeaders_of_allowed hlist ho, hvary', allowHeaders_idem]
  · have hdenied : ∀ o ∈ origin, o ∉ config.allowedOrigins :=
      fun o ho hmem => hallowed ⟨o, ho, hmem⟩
    refine ⟨_, applyHeaders_of_denied hlist hdenied debugAssertions headers,
      addsCors_of_denied hdenied hvary, ?_⟩
    rw [applyHeaders_of_denied hlist hdenied, addVaryOrigin_of_variesOnOrigin hread hvaries]

/-- A page of a listed origin, behind a layer that compresses. -/
theorem applyHeaders_addsCors_compressed : ∃ headers',
    (withOrigins ["https://a.example".toList]).applyHeaders true
      ⟨[("vary".toList, ⟨Utf8.encode "Accept-Encoding,, accept".toList⟩),
        ("vary".toList, ⟨Utf8.encode "Accept".toList⟩)]⟩ (some "https://a.example".toList)
        = some headers' ∧
      AddsCors (withOrigins ["https://a.example".toList]) (some "https://a.example".toList)
        ⟨[("vary".toList, ⟨Utf8.encode "Accept-Encoding,, accept".toList⟩),
          ("vary".toList, ⟨Utf8.encode "Accept".toList⟩)]⟩ headers' ∧
      (withOrigins ["https://a.example".toList]).applyHeaders true headers'
        (some "https://a.example".toList) = some headers' :=
  applyHeaders_addsCors _ (by decide) true _
    (by intro o ho; rw [← Option.some_inj.1 ho]; decide +kernel) _
    (by unfold ReadableVary; decide +kernel)

end CorsConfig

end OxiHttp
