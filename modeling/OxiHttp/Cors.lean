/-
**CORS headers.**

`CorsConfig::apply_headers` says which origins may read a response.  A list of origins without `*`
is compared with the `Origin` of the request, and the response then depends on it, which `Vary` has
to say; the lines of `Vary` become one, and `Origin` is added when it is not among them.

A configuration that allows every origin and credentials is refused by a debug assertion, which
panics in a build that has them.

Main definitions:

* `OxiHttp.CorsConfig`, `OxiHttp.CorsConfig.applyHeaders` — the configuration and what it does;
* `OxiHttp.addVaryOrigin` — the `Vary` header;
* `OxiHttp.CorsConfig.allowFields` — the headers that are inserted for an origin, as a list.

Main results:

* `OxiHttp.CorsConfig.allowHeaders_eq` — they are inserted one after the other;
* `OxiHttp.CorsConfig.getAll_allowOrigin` — an origin of the list is named in the response.
-/

import OxiHttp.Http

set_option relaxedAutoImplicit false
set_option autoImplicit false

namespace OxiHttp

/-- `Method::as_str`. -/
def Method.asStr : Method → Str
  | .get => "GET".toList
  | .post => "POST".toList
  | .put => "PUT".toList
  | .delete => "DELETE".toList
  | .patch => "PATCH".toList
  | .head => "HEAD".toList
  | .options => "OPTIONS".toList
  | .connect => "CONNECT".toList
  | .trace => "TRACE".toList
  | .extension name => name

/-- `join(", ")`. -/
def joinComma (items : List Str) : Str := ", ".toList.intercalate items

/-! ### `Vary` -/

/-- The items of a line of a list header. -/
def listItems (line : Str) : List Str :=
  ((line.splitOn ',').map trim).filter fun tok => !tok.isEmpty

/-- `add_vary_origin`. -/
def addVaryOrigin (headers : HeaderMap) : HeaderMap :=
  match (headers.getAll "vary".toList).mapM HeaderValue.toStr with
  | none => headers
  | some lines =>
      let tokens := lines.flatMap listItems
      if tokens.any (eqIgnoreAsciiCase "origin".toList) then headers
      else
        match HeaderValue.fromStr (joinComma (tokens ++ ["Origin".toList])) with
        | some v => headers.insert "vary".toList v
        | none => headers

/-! ### The configuration -/

/-- `CorsConfig`. -/
structure CorsConfig where
  allowedOrigins : List Str
  allowedMethods : List Method
  allowedHeaders : List Str
  exposedHeaders : List Str
  allowCredentials : Bool
  maxAge : Option ℕ
deriving DecidableEq

/-- The header is inserted when the text is a header value. -/
def HeaderMap.insertText (headers : HeaderMap) (name text : Str) : HeaderMap :=
  match HeaderValue.fromStr text with
  | some v => headers.insert name v
  | none => headers

namespace CorsConfig

/-- `permissive`. -/
def permissive : CorsConfig where
  allowedOrigins := ["*".toList]
  allowedMethods := [.get, .post, .put, .delete, .patch, .head, .options]
  allowedHeaders := ["*".toList]
  exposedHeaders := []
  allowCredentials := false
  maxAge := some 86400

/-- `with_origins`. -/
def withOrigins (origins : List Str) : CorsConfig := { permissive with allowedOrigins := origins }

variable (config : CorsConfig)

/-- Every origin is allowed. -/
def isWildcardOnly : Bool := config.allowedOrigins.contains "*".toList

/-- The origin the response names, if any. -/
def originValue (origin : Option Str) : Option Str :=
  if config.isWildcardOnly then some "*".toList
  else origin.filter fun o => config.allowedOrigins.any fun a => a = o

/-- What is inserted for an origin that is allowed. -/
def allowHeaders (headers : HeaderMap) (origin : Str) : HeaderMap :=
  let headers := headers.insertText "access-control-allow-origin".toList origin
  let headers :=
    if config.allowCredentials then
      headers.insert "access-control-allow-credentials".toList ⟨Utf8.encode "true".toList⟩
    else headers
  let headers :=
    if !config.allowedMethods.isEmpty then
      headers.insertText "access-control-allow-methods".toList
        (joinComma (config.allowedMethods.map Method.asStr))
    else headers
  let headers :=
    if !config.allowedHeaders.isEmpty then
      headers.insertText "access-control-allow-headers".toList (joinComma config.allowedHeaders)
    else headers
  let headers :=
    if !config.exposedHeaders.isEmpty then
      headers.insertText "access-control-expose-headers".toList (joinComma config.exposedHeaders)
    else headers
  match config.maxAge with
  | some maxAge => headers.insertText "access-control-max-age".toList (toString maxAge).toList
  | none => headers

/-- `apply_headers`, in a build with or without debug assertions; `none` is a panic. -/
def applyHeaders (debugAssertions : Bool) (headers : HeaderMap) (origin : Option Str) :
    Option HeaderMap :=
  let headers := if config.isWildcardOnly then headers else addVaryOrigin headers
  match config.originValue origin with
  | none => some headers
  | some o =>
      if debugAssertions && (o = "*".toList && config.allowCredentials) then none
      else some (config.allowHeaders headers o)

end CorsConfig

/-! ### The headers that are inserted -/

namespace HeaderMap

/-- Headers that are inserted one after the other. -/
def insertFields (headers : HeaderMap) (fields : List (Str × HeaderValue)) : HeaderMap :=
  fields.foldl (fun headers p => headers.insert p.1 p.2) headers

/-- A field, when its text is a header value. -/
def textField (name text : Str) : List (Str × HeaderValue) :=
  ((HeaderValue.fromStr text).map (Prod.mk name)).toList

variable (headers : HeaderMap)

theorem insertFields_append (a b : List (Str × HeaderValue)) :
    headers.insertFields (a ++ b) = (headers.insertFields a).insertFields b := List.foldl_append

theorem insertFields_textField (name text : Str) :
    headers.insertFields (textField name text) = headers.insertText name text := by
  unfold textField insertText
  cases HeaderValue.fromStr text <;> rfl

theorem insertFields_ite (b : Bool) (fields : List (Str × HeaderValue)) :
    headers.insertFields (if b then fields else [])
      = if b then headers.insertFields fields else headers := by
  cases b <;> rfl

variable {headers}

/-- Fields under other names leave a name as it was. -/
theorem getAll_insertFields_of_notMem {fields : List (Str × HeaderValue)} {name : Str}
    (h : name ∉ fields.map Prod.fst) :
    (headers.insertFields fields).getAll name = headers.getAll name := by
  induction fields generalizing headers with
  | nil => rfl
  | cons p fields ih =>
      rw [List.map_cons, List.mem_cons, not_or] at h
      exact (ih h.2).trans (by rw [getAll_insert, if_neg (Ne.symm h.1)])

theorem textField_sublist (name text : Str) :
    ((textField name text).map Prod.fst).Sublist [name] := by
  unfold textField
  cases HeaderValue.fromStr text with
  | none => exact List.nil_sublist _
  | some v => exact List.Sublist.refl _

theorem ite_sublist {b : Bool} {fields : List (Str × HeaderValue)} {name : Str}
    (h : (fields.map Prod.fst).Sublist [name]) :
    ((if b then fields else []).map Prod.fst).Sublist [name] := by
  cases b with
  | true => exact h
  | false => exact List.nil_sublist _

end HeaderMap

namespace CorsConfig

open HeaderMap (insertFields_append insertFields_ite insertFields_textField textField
  textField_sublist ite_sublist)

/-- The names of the headers for an origin, but for that of the origin. -/
def otherNames : List Str :=
  ["access-control-allow-credentials".toList, "access-control-allow-methods".toList,
    "access-control-allow-headers".toList, "access-control-expose-headers".toList,
    "access-control-max-age".toList]

def allowNames : List Str := "access-control-allow-origin".toList :: otherNames

variable (config : CorsConfig)

/-- The headers themselves, in the order in which they are inserted. -/
def otherFields : List (Str × HeaderValue) :=
  (if config.allowCredentials then
    [("access-control-allow-credentials".toList, ⟨Utf8.encode "true".toList⟩)] else []) ++
  ((if !config.allowedMethods.isEmpty then textField "access-control-allow-methods".toList
      (joinComma (config.allowedMethods.map Method.asStr)) else []) ++
  ((if !config.allowedHeaders.isEmpty then textField "access-control-allow-headers".toList
      (joinComma config.allowedHeaders) else []) ++
  ((if !config.exposedHeaders.isEmpty then textField "access-control-expose-headers".toList
      (joinComma config.exposedHeaders) else []) ++
  config.maxAge.elim [] fun maxAge =>
    textField "access-control-max-age".toList (toString maxAge).toList)))

def allowFields (origin : Str) : List (Str × HeaderValue) :=
  textField "access-control-allow-origin".toList origin ++ config.otherFields

theorem allowHeaders_eq (headers : HeaderMap) (origin : Str) :
    config.allowHeaders headers origin = headers.insertFields (config.allowFields origin) := by
  unfold allowFields otherFields
  simp only [insertFields_append, insertFields_ite, insertFields_textField]
  unfold allowHeaders
  cases config.maxAge with
  | none => rfl
  | some maxAge => exact (insertFields_textField _ _ _).symm

theorem otherFields_sublist : (config.otherFields.map Prod.fst).Sublist otherNames := by
  have hage : ((config.maxAge.elim [] fun maxAge => textField "access-control-max-age".toList
      (toString maxAge).toList).map Prod.fst).Sublist ["access-control-max-age".toList] := by
    cases config.maxAge with
    | none => exact List.nil_sublist _
    | some maxAge => exact textField_sublist _ _
  unfold otherFields
  simp only [List.map_append]
  exact (ite_sublist (List.Sublist.refl _)).append
    ((ite_sublist (textField_sublist _ _)).append ((ite_sublist (textField_sublist _ _)).append
      ((ite_sublist (textField_sublist _ _)).append hage)))

/-- Every header has a name of its own. -/
theorem allowFields_sublist (origin : Str) :
    ((config.allowFields origin).map Prod.fst).Sublist allowNames := by
  rw [allowFields, List.map_append]
  exact (textField_sublist _ _).append config.otherFields_sublist

/-! ### The origin of a response -/

/-- Only one of the headers of an origin names it. -/
theorem getAll_allowHeaders (headers : HeaderMap) (origin : Str) :
    (config.allowHeaders headers origin).getAll "access-control-allow-origin".toList
      = (headers.insertText "access-control-allow-origin".toList origin).getAll
          "access-control-allow-origin".toList := by
  have hother : "access-control-allow-origin".toList ∉ config.otherFields.map Prod.fst :=
    fun hmem => absurd (config.otherFields_sublist.mem hmem) (by decide)
  rw [allowHeaders_eq, allowFields, insertFields_append,
    HeaderMap.getAll_insertFields_of_notMem hother, insertFields_textField]

variable {config}

theorem getAll_allowHeaders_of_fromStr {headers : HeaderMap} {origin : Str}
    {v : HeaderValue} (hv : HeaderValue.fromStr origin = some v) :
    (config.allowHeaders headers origin).getAll "access-control-allow-origin".toList = [v] := by
  rw [getAll_allowHeaders, HeaderMap.insertText, hv]
  simp only [HeaderMap.getAll_insert, if_pos]

variable (hlist : "*".toList ∉ config.allowedOrigins)
include hlist

theorem isWildcardOnly_eq_false : config.isWildcardOnly = false := by
  rw [isWildcardOnly, List.contains_eq_mem, decide_eq_false_iff_not]
  exact hlist

/-- For an origin that is not in the list, or none, `Vary` is all there is. -/
theorem applyHeaders_of_denied {origin : Option Str}
    (hdenied : ∀ o ∈ origin, o ∉ config.allowedOrigins) (debugAssertions : Bool)
    (headers : HeaderMap) :
    config.applyHeaders debugAssertions headers origin = some (addVaryOrigin headers) := by
  have hvalue : config.originValue origin = none := by
    rw [originValue, isWildcardOnly_eq_false hlist, if_neg Bool.false_ne_true,
      Option.filter_eq_none_iff]
    intro o ho
    simpa using hdenied o ho
  rw [applyHeaders, isWildcardOnly_eq_false hlist, hvalue]
  rfl

/-- For an origin of the list its headers are inserted as well. -/
theorem applyHeaders_of_allowed {origin : Str} (hallowed : origin ∈ config.allowedOrigins)
    (debugAssertions : Bool) (headers : HeaderMap) :
    config.applyHeaders debugAssertions headers (some origin)
      = some (config.allowHeaders (addVaryOrigin headers) origin) := by
  have hvalue : config.originValue (some origin) = some origin := by
    rw [originValue, isWildcardOnly_eq_false hlist, if_neg Bool.false_ne_true,
      Option.filter_some, if_pos]
    simpa using hallowed
  have hstar : ¬ (debugAssertions && (decide (origin = "*".toList) && config.allowCredentials))
      = true := by
    have hne : origin ≠ "*".toList := fun h => hlist (h ▸ hallowed)
    rw [decide_eq_false hne, Bool.false_and, Bool.and_false]
    exact Bool.false_ne_true
  rw [applyHeaders, isWildcardOnly_eq_false hlist, hvalue]
  exact if_neg hstar

/-- An origin of a list without `*` is named in the response, whatever its headers were. -/
theorem getAll_allowOrigin {v : HeaderValue} {origin : Str} (hv : v.toStr = some origin)
    (hallowed : origin ∈ config.allowedOrigins) (debugAssertions : Bool) (headers : HeaderMap) :
    ∃ headers', config.applyHeaders debugAssertions headers (some origin) = some headers' ∧
      headers'.getAll "access-control-allow-origin".toList = [v] := by
  refine ⟨_, applyHeaders_of_allowed hlist hallowed debugAssertions headers, ?_⟩
  exact getAll_allowHeaders_of_fromStr (HeaderValue.fromStr_of_toStr hv)

end CorsConfig

end OxiHttp
