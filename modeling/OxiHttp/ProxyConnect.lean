/-
**The HTTP proxy connector.**

`ProxyConnector::call` opens a connection to the proxy, asks it for a tunnel and reads the reply
byte by byte up to the first empty line.  It takes the reply for a success when the text of its
first line has `200` anywhere in it, so also in the reason phrase of a refusal.

Main definitions:

* `OxiHttp.ProxyConnector` — the connector;
* `OxiHttp.readResponse`, `OxiHttp.firstLine` — the reply and its first line;
* `OxiHttp.ProxyConnector.call` — the whole call;
* `OxiHttp.IsHead`, `OxiHttp.IsSuccess` — the head of a reply, and one that is a success;
* `OxiHttp.ProxyConnector.TunnelsOnSuccess` — a tunnel is returned on a success only;
* `OxiHttp.Misjudged` — the replies that are taken for one.

Main results:

* `OxiHttp.readResponse_eq_ok` — what is read is the head of the reply, when it is short enough;
* `OxiHttp.ProxyConnector.tunnelsOnSuccess_iff` — the replies with which the connector is right.
-/

import OxiHttp.Base64
import OxiHttp.ByteStream
import OxiHttp.Proxy

set_option relaxedAutoImplicit false
set_option autoImplicit false

namespace OxiHttp

/-- `ProxyConnector`.  The time limit is in milliseconds. -/
structure ProxyConnector where
  proxyUri : Uri
  connectTimeout : Option ℕ
  auth : Option (Str × Str)

/-- `ProxyConnector::new`. -/
def ProxyConnector.new (proxyUri : Uri) (connectTimeout : Option ℕ) : ProxyConnector where
  proxyUri
  connectTimeout
  auth := extractAuth proxyUri

/-- The connection to the proxy: its stream, and the I/O error behind the last byte of it when its
side is not closed in order. -/
structure ProxyStream where
  stream : ByteStream
  reset : Option String := none

/-- What the network does when a connection to the proxy is opened: whether it takes longer than the
time limit, and what comes of it otherwise. -/
structure ProxyOpening where
  late : Bool
  outcome : Except String ProxyStream

/-! ### The reply -/

/-- The end of a head: the end of a line and an empty line. -/
def headEnd : List UInt8 := [0x0D, 0x0A, 0x0D, 0x0A]

/-- The loop that reads the reply: what it has read, and what is left. -/
def readResponse (reset : Option String) :
    List UInt8 → List UInt8 → Except OxiHttpError (List UInt8 × List UInt8)
  | [], _ =>
    match reset with
    | some e => .error (.io e)
    | none => .error (.connectionPool "proxy closed connection during CONNECT handshake")
  | b :: input, responseBuf =>
    let responseBuf := responseBuf ++ [b]
    if headEnd.isSuffixOf responseBuf then .ok (responseBuf, input)
    else if 8192 < responseBuf.length then
      .error (.connectionPool "proxy CONNECT response too large")
    else readResponse reset input responseBuf

/-- The first line of the reply, which is empty when it is no text. -/
def firstLine (responseBuf : List UInt8) : String :=
  (Utf8.fromUtf8 (responseBuf.takeWhile (· ≠ 0x0A))).getD ""

/-- `first_line.contains("200")`. -/
def saysOk (line : String) : Bool := line.toList.tails.any fun t => "200".toList.isPrefixOf t

/-! ### The call -/

namespace ProxyConnector

/-- The request for a tunnel. -/
def connectRequest (c : ProxyConnector) (targetAuthority : Str) : List UInt8 :=
  Utf8.encode ("CONNECT ".toList ++ targetAuthority ++ " HTTP/1.1\r\nHost: ".toList ++
    targetAuthority ++ "\r\n".toList ++
    (match c.auth with
      | some (user, pass) => "Proxy-Authorization: Basic ".toList ++
          Base64.encode (Utf8.encode (user ++ ':' :: pass)) ++ "\r\n".toList
      | none => []) ++ "\r\n".toList)

/-- The connection to the proxy, and the target. -/
def connect (c : ProxyConnector) (network : Str → ProxyOpening) (uri : Uri) :
    Except OxiHttpError (ProxyStream × Str) := do
  let (proxyHost, proxyPort) ← uriHostPort c.proxyUri
  let (targetHost, targetPort) ← uriHostPort uri
  let opening := network (proxyHost ++ ':' :: Nat.toDigits 10 proxyPort.toNat)
  match c.connectTimeout, opening.late, opening.outcome with
  | some ms, true, _ =>
      .error (.timeout ("proxy connect timeout after " ++ toString ms ++ "ms"))
  | _, _, .error e => .error (.io e)
  | _, _, .ok opened => .ok (opened, targetHost ++ ':' :: Nat.toDigits 10 targetPort.toNat)

/-- What is said and heard on the connection: the request, and the reply to it. -/
def tunnel (c : ProxyConnector) (opened : ProxyStream) (targetAuthority : Str) :
    Except OxiHttpError ByteStream := do
  let req := c.connectRequest targetAuthority
  if ¬ opened.stream.Fits req.length then .error (.io opened.stream.writeErr)
  else
    let (responseBuf, input) ← readResponse opened.reset opened.stream.input []
    if saysOk (firstLine responseBuf) then .ok { opened.stream.push req with input }
    else .error (.connectionPool ("proxy CONNECT rejected: " ++ firstLine responseBuf))

/-- `call`. -/
def call (c : ProxyConnector) (network : Str → ProxyOpening) (uri : Uri) :
    Except OxiHttpError ByteStream := do
  let (opened, targetAuthority) ← c.connect network uri
  c.tunnel opened targetAuthority

end ProxyConnector

/-! ### Heads -/

/-- The bytes up to the first empty line, and that line. -/
def IsHead (block : List UInt8) : Prop :=
  headEnd <:+ block ∧ ∀ p, p <+: block → headEnd <:+ p → p = block

/-- A head whose status line has the status 200. -/
def IsSuccess (block : List UInt8) : Prop :=
  ∃ version delimiter rest, block = Utf8.encode "HTTP/1.".toList ++
      version :: Utf8.encode " 200".toList ++ delimiter :: rest ∧
    0x30 ≤ version ∧ version ≤ 0x39 ∧ (delimiter = 0x20 ∨ delimiter = 0x0D ∨ delimiter = 0x0A)

/-- A head that says `200` in its first line, is not too long, and is no success. -/
def Misjudged (input : List UInt8) : Prop :=
  ∃ block rest, input = block ++ rest ∧ IsHead block ∧ block.length ≤ 8193 ∧
    saysOk (firstLine block) = true ∧ ¬ IsSuccess block

/-- When a stream is returned, the head of the reply was a success, and it is what was read. -/
def ProxyConnector.TunnelsOnSuccess (c : ProxyConnector) (network : Str → ProxyOpening)
    (uri : Uri) : Prop :=
  ∀ s, c.call network uri = .ok s →
    ∃ opened target block, c.connect network uri = .ok (opened, target) ∧
      opened.stream.input = block ++ s.input ∧ IsHead block ∧ IsSuccess block

/-- Two heads of the same bytes are one. -/
theorem IsHead.unique {a b s : List UInt8} (ha : IsHead a) (hb : IsHead b) (has : a <+: s)
    (hbs : b <+: s) : a = b := by
  rcases List.prefix_or_prefix_of_prefix has hbs with h | h
  · exact hb.2 a h ha.1
  · exact (ha.2 b h hb.1).symm

/-- No empty line yet. -/
def IsOpen (responseBuf : List UInt8) : Prop := ∀ p, p <+: responseBuf → ¬ headEnd <:+ p

theorem IsOpen.concat {responseBuf : List UInt8} (hopen : IsOpen responseBuf) {b : UInt8}
    (hend : ¬ headEnd <:+ responseBuf ++ [b]) : IsOpen (responseBuf ++ [b]) := by
  intro p hp
  rcases List.prefix_concat_iff.1 hp with rfl | hp
  · exact hend
  · exact hopen p hp

theorem IsOpen.isHead_concat {responseBuf : List UInt8} (hopen : IsOpen responseBuf) {b : UInt8}
    (hend : headEnd <:+ responseBuf ++ [b]) : IsHead (responseBuf ++ [b]) := by
  refine ⟨hend, fun p hp hpend => ?_⟩
  rcases List.prefix_concat_iff.1 hp with rfl | hp
  · rfl
  · exact absurd hpend (hopen p hp)

/-- A head that is still open has the next byte in it. -/
theorem IsOpen.next {responseBuf block read rest input : List UInt8} {b : UInt8}
    (hopen : IsOpen responseBuf) (hblock : block = responseBuf ++ read)
    (hinput : b :: input = read ++ rest) (hhead : IsHead block) :
    ∃ read', read = b :: read' ∧ block = responseBuf ++ [b] ++ read' ∧ input = read' ++ rest := by
  cases read with
  | nil =>
      rw [List.append_nil] at hblock
      exact absurd hhead.1 (hopen block (by subst hblock; exact List.prefix_rfl))
  | cons c read =>
      rw [List.cons_append, List.cons.injEq] at hinput
      obtain ⟨rfl, rfl⟩ := hinput
      exact ⟨read, rfl, by rw [hblock, List.append_assoc]; rfl, rfl⟩

/-- The loop reads up to the first empty line, unless that comes too late. -/
theorem readResponse_loop {reset : Option String} {input responseBuf block rest : List UInt8}
    (hopen : IsOpen responseBuf) (hlen : responseBuf.length ≤ 8192) :
    readResponse reset input responseBuf = .ok (block, rest) ↔
      ∃ read, block = responseBuf ++ read ∧ input = read ++ rest ∧ IsHead block ∧
        block.length ≤ 8193 := by
  induction input generalizing responseBuf with
  | nil =>
      constructor
      · intro h
        cases reset <;> cases h
      · rintro ⟨read, hblock, hinput, hhead, -⟩
        obtain ⟨rfl, -⟩ := List.append_eq_nil_iff.1 hinput.symm
        rw [List.append_nil] at hblock
        exact absurd hhead.1 (hopen block (by subst hblock; exact List.prefix_rfl))
  | cons b input ih =>
      have hlength : (responseBuf ++ [b]).length = responseBuf.length + 1 := by simp
      rw [readResponse]
      by_cases hend : headEnd <:+ responseBuf ++ [b]
      · rw [if_pos (List.isSuffixOf_iff_suffix.2 hend), Except.ok.injEq, Prod.mk.injEq]
        constructor
        · rintro ⟨rfl, rfl⟩
          exact ⟨[b], rfl, rfl, hopen.isHead_concat hend, by omega⟩
        · rintro ⟨read, hblock, hinput, hhead, -⟩
          obtain ⟨read', -, hblock', rfl⟩ := hopen.next hblock hinput hhead
          -- the first empty line ends the head
          have hall := hhead.2 (responseBuf ++ [b]) (by rw [hblock']; exact List.prefix_append _ _)
            hend
          rw [hblock', List.self_eq_append_right] at hall
          rw [hblock', hall]
          exact ⟨(List.append_nil _).symm, rfl⟩
      · rw [if_neg fun h => hend (List.isSuffixOf_iff_suffix.1 h)]
        by_cases hlong : 8192 < (responseBuf ++ [b]).length
        · rw [if_pos hlong]
          constructor
          · intro h
            cases h
          · rintro ⟨read, hblock, hinput, hhead, hshort⟩
            obtain ⟨read', -, hblock', -⟩ := hopen.next hblock hinput hhead
            cases read' with
            | nil =>
                rw [List.append_nil] at hblock'
                exact absurd (hblock' ▸ hhead.1) hend
            | cons c read' =>
                rw [hblock', List.length_append, List.length_cons] at hshort
                omega
        · rw [if_neg hlong, ih (hopen.concat hend) (by omega)]
          constructor
          · rintro ⟨read, hblock, hinput, hrest⟩
            exact ⟨b :: read, by rw [hblock, List.append_assoc]; rfl, by rw [hinput]; rfl, hrest⟩
          · rintro ⟨read, hblock, hinput, hhead, hshort⟩
            obtain ⟨read', -, hblock', hinput'⟩ := hopen.next hblock hinput hhead
            exact ⟨read', hblock', hinput', hhead, hshort⟩

/-- What is read is the head of the reply, when it is short enough. -/
theorem readResponse_eq_ok {reset : Option String} {input block rest : List UInt8} :
    readResponse reset input [] = .ok (block, rest) ↔
      input = block ++ rest ∧ IsHead block ∧ block.length ≤ 8193 := by
  have hopen : IsOpen [] := by
    intro p hp hend
    rw [List.prefix_nil.1 hp] at hend
    exact absurd (List.suffix_nil.1 hend) (List.cons_ne_nil _ _)
  rw [readResponse_loop hopen (Nat.zero_le _)]
  constructor
  · rintro ⟨read, rfl, hinput, hrest⟩
    exact ⟨hinput, hrest⟩
  · rintro ⟨hinput, hrest⟩
    exact ⟨block, rfl, hinput, hrest⟩

/-! ### The tunnel -/

namespace ProxyConnector

variable {c : ProxyConnector} {network : Str → ProxyOpening} {uri : Uri}

/-- When a stream is returned: the request was sent, and the first line of the reply says `200`. -/
theorem tunnel_eq_ok {opened : ProxyStream} {target : Str} {s : ByteStream} :
    c.tunnel opened target = .ok s ↔ opened.stream.Fits (c.connectRequest target).length ∧
      ∃ block rest, opened.stream.input = block ++ rest ∧ IsHead block ∧ block.length ≤ 8193 ∧
        saysOk (firstLine block) = true ∧
        s = { opened.stream.push (c.connectRequest target) with input := rest } := by
  have hbind : c.tunnel opened target =
      if ¬ opened.stream.Fits (c.connectRequest target).length then
        .error (.io opened.stream.writeErr)
      else (readResponse opened.reset opened.stream.input []).bind fun r =>
        if saysOk (firstLine r.1) then
          .ok { opened.stream.push (c.connectRequest target) with input := r.2 }
        else .error (.connectionPool ("proxy CONNECT rejected: " ++ firstLine r.1)) := rfl
  rw [hbind]
  constructor
  · intro h
    by_cases hfits : opened.stream.Fits (c.connectRequest target).length
    · rw [if_neg (not_not.2 hfits)] at h
      cases hread : readResponse opened.reset opened.stream.input [] with
      | error e =>
          rw [hread] at h
          cases h
      | ok r =>
          obtain ⟨hinput, hhead, hshort⟩ := readResponse_eq_ok.1 hread
          rw [hread, Except.bind] at h
          by_cases hsays : saysOk (firstLine r.1) = true
          · rw [if_pos hsays, Except.ok.injEq] at h
            exact ⟨hfits, r.1, r.2, hinput, hhead, hshort, hsays, h.symm⟩
          · rw [if_neg hsays] at h
            cases h
    · rw [if_pos hfits] at h
      cases h
  · rintro ⟨hfits, block, rest, hinput, hhead, hshort, hsays, rfl⟩
    rw [if_neg (not_not.2 hfits), readResponse_eq_ok.2 ⟨hinput, hhead, hshort⟩, Except.bind,
      if_pos hsays]

theorem call_eq_ok {s : ByteStream} :
    c.call network uri = .ok s ↔
      ∃ opened target, c.connect network uri = .ok (opened, target) ∧
        c.tunnel opened target = .ok s := by
  have hbind : c.call network uri =
      (c.connect network uri).bind fun r => c.tunnel r.1 r.2 := rfl
  rw [hbind]
  cases c.connect network uri with
  | error e =>
      constructor
      · intro h
        cases h
      · rintro ⟨opened, target, h, -⟩
        cases h
  | ok r =>
      constructor
      · intro h
        exact ⟨r.1, r.2, rfl, h⟩
      · rintro ⟨opened, target, h, htunnel⟩
        cases h
        exact htunnel

/-- **A tunnel is returned on a success only, exactly when the reply is not misjudged**: when its
head, if it comes in time, does not say `200` in the first line, or is a success. -/
theorem tunnelsOnSuccess_iff (c : ProxyConnector) (network : Str → ProxyOpening) (uri : Uri) :
    c.TunnelsOnSuccess network uri ↔ ∀ opened target, c.connect network uri = .ok (opened, target) →
      opened.stream.Fits (c.connectRequest target).length → ¬ Misjudged opened.stream.input := by
  constructor
  · rintro h opened target hconnect hfits ⟨block, rest, hinput, hhead, hshort, hsays, hno⟩
    -- the stream is returned, and what was read of it is that head
    have hcall := call_eq_ok.2 ⟨opened, target, hconnect,
      tunnel_eq_ok.2 ⟨hfits, block, rest, hinput, hhead, hshort, hsays, rfl⟩⟩
    obtain ⟨opened', target', block', hconnect', hinput', hhead', hsuccess⟩ := h _ hcall
    rw [hconnect, Except.ok.injEq, Prod.mk.injEq] at hconnect'
    obtain ⟨rfl, rfl⟩ := hconnect'
    have heq : block = block' := hhead.unique hhead' ⟨_, hinput.symm⟩ ⟨_, hinput'.symm⟩
    exact hno (heq ▸ hsuccess)
  · intro h s hcall
    obtain ⟨opened, target, hconnect, htunnel⟩ := call_eq_ok.1 hcall
    obtain ⟨hfits, block, rest, hinput, hhead, hshort, hsays, rfl⟩ := tunnel_eq_ok.1 htunnel
    refine ⟨opened, target, block, hconnect, hinput, hhead, ?_⟩
    by_contra hno
    exact h opened target hconnect hfits ⟨block, rest, hinput, hhead, hshort, hsays, hno⟩

end ProxyConnector

/-! ### A refusal that is taken for a success -/

/-- A connector for a proxy. -/
def exampleProxy : ProxyConnector := .new
  { scheme := some "http".toList
    authority := some ⟨"proxy.test:3128".toList, "proxy.test".toList, some 3128, by decide⟩
    path := "/".toList
    path_delimited := root_delimited
    query_delimited := noQuery_delimited } none

/-- A target behind the proxy. -/
def exampleTarget : Uri where
  scheme := some "https".toList
  authority := some ⟨"target.test".toList, "target.test".toList, none, by decide⟩
  path := "/".toList
  path_delimited := root_delimited
  query_delimited := noQuery_delimited

/-- A reply that refuses the tunnel. -/
def refusal : List UInt8 := Utf8.encode "HTTP/1.1 403 Denied 200\r\n\r\n".toList

/-- A proxy that gives this reply. -/
def replying (reply : List UInt8) : Str → ProxyOpening := fun _ =>
  ⟨false, .ok { stream := { input := reply } }⟩

/-- The refusal is taken for a success. -/
theorem not_tunnelsOnSuccess_refusal :
    ¬ exampleProxy.TunnelsOnSuccess (replying refusal) exampleTarget := by
  intro h
  have hconnect : exampleProxy.connect (replying refusal) exampleTarget =
      .ok ({ stream := { input := refusal } }, "target.test:443".toList) := by rfl
  have hcall : ∃ s, exampleProxy.call (replying refusal) exampleTarget = .ok s ∧ s.input = [] := by
    refine ⟨_, ProxyConnector.call_eq_ok.2 ⟨_, _, hconnect, by rfl⟩, rfl⟩
  obtain ⟨s, hs, hnil⟩ := hcall
  obtain ⟨opened, target, block, hconnect', hinput, -, version, delimiter, rest, rfl, -⟩ := h s hs
  rw [hconnect, Except.ok.injEq, Prod.mk.injEq] at hconnect'
  obtain ⟨rfl, -⟩ := hconnect'
  rw [hnil, List.append_nil] at hinput
  -- the first digit of the status is a four
  have hdigit : (0x34 : UInt8) = 0x32 := congrArg (fun l => l.getD 9 0) hinput
  exact absurd hdigit (by decide)

end OxiHttp
