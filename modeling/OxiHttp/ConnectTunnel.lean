/-
**A tunnel through an HTTP proxy.**

The connector asks a proxy for a tunnel with a CONNECT request and reads the reply byte by byte.  The
proxy here reads the request as it is meant and is free in what it replies, as long as the reply is a
head that the connector does not misjudge.  The two talk over a connection on which what is written
arrives in pieces at some time.

Whatever the order in which things happen, both come to an end and agree: the proxy has been asked
for the host and the port of the URI with the credentials of the connector, and a stream is returned
if and only if it has replied with 200; what is read from that is what the target says.

Main definitions:

* `ConnectProxy.parse` — what a proxy reads off a request;
* `ConnectProxy.Policy`, `ConnectProxy.server` — the proxy;
* `OxiHttp.ProxyConnector.party` — the connector as a party of the connection;
* `OxiHttp.ProxyConnector.Tunnels` — how their talk is to end.

Main results:

* `OxiHttp.isHead_lines` — lines make a head;
* `OxiHttp.ProxyConnector.parse_connectRequest` — the request says what is asked;
* `OxiHttp.connect_tunnels` — every talk ends as it should.
-/

import OxiHttp.Duplex
import OxiHttp.MimeLines
import OxiHttp.ProxyConnect

set_option relaxedAutoImplicit false
set_option autoImplicit false

open Duplex (Ends Party Program Side)
open Duplex.Program (Hears hears_hear hears_pure hears_hearUntil)

namespace OxiHttp

/-! ### Heads -/

/-- The bytes of a head with some lines. -/
def headBytes (ls : List (List UInt8)) : List UInt8 := ls.flatMap (· ++ Mime.crlf) ++ Mime.crlf

/-- Lines of a head. -/
def HeadLines (ls : List (List UInt8)) : Prop := ls ≠ [] ∧ ∀ l ∈ ls, l ≠ [] ∧ 0x0D ∉ l

theorem lines_headBytes {ls : List (List UInt8)} (h : ∀ l ∈ ls, 0x0D ∉ l) :
    Mime.lines (headBytes ls) = ls ++ [[], []] := by
  rw [headBytes, Mime.lines_header h]
  rfl

/-- **Lines make a head**: the first empty line is the one behind them. -/
theorem isHead_lines {ls : List (List UInt8)} (h : HeadLines ls) : IsHead (headBytes ls) := by
  obtain ⟨hne, hls⟩ := h
  refine ⟨?_, fun p hp hend => ?_⟩
  · obtain ⟨ls', l, rfl⟩ := List.eq_nil_or_concat ls |>.resolve_left hne
    refine ⟨ls'.flatMap (· ++ Mime.crlf) ++ l, ?_⟩
    simp [headBytes, headEnd, Mime.crlf]
  · obtain ⟨p₀, rfl⟩ := hend
    obtain ⟨t, ht⟩ := hp
    have hsplit : p₀ ++ headEnd ++ t = p₀ ++ Mime.crlf ++ (Mime.crlf ++ t) := by
      simp [headEnd, Mime.crlf]
    have hlines := lines_headBytes fun l hl => (hls l hl).2
    rw [← ht, hsplit, Mime.lines_append_crlf] at hlines
    change Mime.lines p₀ ++ [] :: Mime.lines t = ls ++ [[], []] at hlines
    -- nothing can follow the empty line
    have hempty : Mime.lines t = [[]] := by
      rcases List.append_eq_append_iff.1 hlines with ⟨c, hls', hc⟩ | ⟨c, -, hc⟩
      · cases c with
        | nil => exact (List.cons.inj hc).2
        | cons x c =>
            obtain ⟨rfl, -⟩ := List.cons.inj hc
            exact absurd rfl (hls [] (by rw [hls']; simp)).1
      · have hlen := congrArg List.length hc
        have hpos := List.length_pos_of_ne_nil (Mime.lines_ne_nil t)
        simp only [List.length_append, List.length_cons, List.length_nil] at hlen
        obtain rfl : c = [] := List.eq_nil_of_length_eq_zero (by omega)
        exact ((List.cons.inj hc).2).symm
    have hnil := Mime.intercalate_lines t
    rw [hempty, List.intercalate_singleton] at hnil
    rw [← ht, ← hnil, List.append_nil]

/-! ### The request -/

namespace ProxyConnector

variable (c : ProxyConnector) (target : Str)

/-- The lines of the request. -/
def requestLines : List (List UInt8) :=
  [Utf8.encode ("CONNECT ".toList ++ target ++ " HTTP/1.1".toList),
    Utf8.encode ("Host: ".toList ++ target)] ++
  match c.auth with
  | some (user, pass) => [Utf8.encode ("Proxy-Authorization: Basic ".toList ++
      Base64.encode (Utf8.encode (user ++ ':' :: pass)))]
  | none => []

theorem connectRequest_eq : c.connectRequest target = headBytes (c.requestLines target) := by
  unfold connectRequest requestLines headBytes
  have hcrlf : Utf8.encode "\r\n".toList = Mime.crlf := by decide
  have hline : " HTTP/1.1\r\nHost: ".toList =
      " HTTP/1.1".toList ++ "\r\n".toList ++ "Host: ".toList := by decide
  rw [hline]
  cases c.auth with
  | none =>
      simp only [Utf8.encode_append, hcrlf, List.append_nil, List.flatMap_cons, List.flatMap_nil,
        List.append_assoc]
  | some up =>
      simp only [Utf8.encode_append, hcrlf, List.flatMap_cons, List.flatMap_nil, List.append_assoc,
        List.cons_append, List.nil_append]

/-- A text of visible characters other than spaces. -/
def Spaceless (s : Str) : Prop := ∀ ch ∈ s, 0x20 < ch.val.toNat ∧ ch.val.toNat < 0x7F

instance (s : Str) : Decidable (Spaceless s) := List.decidableBAll _ s

theorem Spaceless.isVisible {s : Str} (h : Spaceless s) : HeaderValue.IsVisible s :=
  fun ch hch => ⟨(h ch hch).1.le, (h ch hch).2⟩

theorem Spaceless.notMem {s : Str} (h : Spaceless s) : (0x20 : UInt8) ∉ Utf8.encode s := by
  have hspace : Utf8.IsAscii ' ' := by decide
  intro hmem
  have := h ' ' ((Utf8.mem_encode_iff hspace).1 hmem)
  exact absurd this.1 (by decide)

theorem notMem_of_isVisible {s : Str} (h : HeaderValue.IsVisible s) :
    (0x0D : UInt8) ∉ Utf8.encode s := by
  have hreturn : Utf8.IsAscii '\r' := by decide
  intro hmem
  have := h '\r' ((Utf8.mem_encode_iff hreturn).1 hmem)
  exact absurd this.1 (by decide)

theorem headLines_requestLines {target : Str} (h : Spaceless target) :
    HeadLines (c.requestLines target) := by
  have hvisible : ∀ l ∈ c.requestLines target, ∃ s, l = Utf8.encode s ∧ s ≠ [] ∧
      HeaderValue.IsVisible s := by
    intro l hl
    rcases List.mem_append.1 hl with hl | hl
    · simp only [List.mem_cons, List.not_mem_nil, or_false] at hl
      rcases hl with rfl | rfl
      · exact ⟨_, rfl, by simp, isVisible_append (isVisible_append (by decide) h.isVisible)
          (by decide)⟩
      · exact ⟨_, rfl, by simp, isVisible_append (by decide) h.isVisible⟩
    · cases hauth : c.auth with
      | none =>
          rw [hauth] at hl
          cases hl
      | some up =>
          rw [hauth] at hl
          exact ⟨_, List.mem_singleton.1 hl, by simp, isVisible_append (by decide)
            fun _ hch => Base64.printing_of_mem_encode hch⟩
  refine ⟨by simp [requestLines], fun l hl => ?_⟩
  obtain ⟨s, rfl, hne, hs⟩ := hvisible l hl
  refine ⟨fun hnil => hne ?_, notMem_of_isVisible hs⟩
  exact Utf8.encode_injective (hnil.trans Utf8.encode_nil.symm)

end ProxyConnector

end OxiHttp

namespace ConnectProxy

open OxiHttp

/-! ### What a proxy reads -/

/-- What a proxy is asked for. -/
structure Asked where
  target : List UInt8
  credentials : Option (List UInt8)
deriving DecidableEq, Repr

/-- The name of the field in a line is `Proxy-Authorization`. -/
def isAuthorization (line : List UInt8) : Bool :=
  lower (HeaderValue.latin1 ⟨(Mime.field line).1⟩) = "proxy-authorization".toList

/-- The credentials in the value of the field. -/
def decodeBasic (value : Str) : Option (List UInt8) :=
  if " Basic ".toList.isPrefixOf value then Base64.decode (value.drop 7) else none

/-- The credentials in the lines behind the first one. -/
def credentialsOf (lines : List (List UInt8)) : Option (List UInt8) :=
  (lines.find? isAuthorization).bind fun line =>
    decodeBasic (HeaderValue.latin1 ⟨(Mime.field line).2⟩)

/-- The head of a CONNECT request. -/
def parse (head : List UInt8) : Option Asked :=
  match Mime.lines head with
  | [] => none
  | requestLine :: lines =>
      match requestLine.splitOn 0x20 with
      | [method, target, version] =>
          if method = Utf8.encode "CONNECT".toList ∧ version = Utf8.encode "HTTP/1.1".toList then
            some ⟨target, credentialsOf lines⟩
          else none
      | _ => none

end ConnectProxy

namespace OxiHttp.ProxyConnector

variable (c : ProxyConnector)

/-- The credentials of the connector. -/
def credentials : Option (List UInt8) := c.auth.map fun up => Utf8.encode (up.1 ++ ':' :: up.2)

theorem splitOn_requestLine {target : Str} (h : Spaceless target) :
    (Utf8.encode ("CONNECT ".toList ++ target ++ " HTTP/1.1".toList)).splitOn 0x20 =
      [Utf8.encode "CONNECT".toList, Utf8.encode target, Utf8.encode "HTTP/1.1".toList] := by
  have hwords : Utf8.encode ("CONNECT ".toList ++ target ++ " HTTP/1.1".toList) =
      [0x20].intercalate [Utf8.encode "CONNECT".toList, Utf8.encode target,
        Utf8.encode "HTTP/1.1".toList] := by
    have hfirst : Utf8.encode "CONNECT ".toList = Utf8.encode "CONNECT".toList ++ [0x20] := by
      decide
    have hlast : Utf8.encode " HTTP/1.1".toList = [0x20] ++ Utf8.encode "HTTP/1.1".toList := by
      decide
    rw [List.intercalate_cons_cons, List.intercalate_cons_cons, List.intercalate_singleton,
      Utf8.encode_append, Utf8.encode_append, hfirst, hlast]
    simp only [List.append_assoc]
  rw [hwords, List.splitOn_intercalate]
  · intro l hl
    simp only [List.mem_cons, List.not_mem_nil, or_false] at hl
    rcases hl with rfl | rfl | rfl
    · decide
    · exact h.notMem
    · decide
  · exact List.cons_ne_nil _ _

theorem credentialsOf_requestLines (target : Str) :
    ConnectProxy.credentialsOf ((c.requestLines target).tail ++ [[], []]) = c.credentials := by
  have hhost : ConnectProxy.isAuthorization (Utf8.encode ("Host: ".toList ++ target)) ≠ true := by
    have hfield : Mime.field (Utf8.encode ("Host: ".toList ++ target)) =
        (Utf8.encode "Host".toList, 0x20 :: Utf8.encode target) := by
      rw [Utf8.encode_append]
      rfl
    have hname : ¬ lower (HeaderValue.latin1 ⟨Utf8.encode "Host".toList⟩) =
        "proxy-authorization".toList := by decide
    rw [ConnectProxy.isAuthorization, hfield]
    exact mt of_decide_eq_true hname
  have hempty : ConnectProxy.isAuthorization [] ≠ true := by decide
  unfold ConnectProxy.credentialsOf requestLines credentials
  rw [List.cons_append, List.tail_cons, List.cons_append, List.nil_append, List.cons_append,
    List.find?_cons_of_neg hhost]
  cases c.auth with
  | none =>
      rw [List.nil_append, List.find?_cons_of_neg hempty, List.find?_cons_of_neg hempty]
      rfl
  | some up =>
      let text := Base64.encode (Utf8.encode (up.1 ++ ':' :: up.2))
      have hfield : Mime.field (Utf8.encode ("Proxy-Authorization: Basic ".toList ++ text)) =
          (Utf8.encode "Proxy-Authorization".toList, Utf8.encode (" Basic ".toList ++ text)) := by
        rw [Utf8.encode_append, Utf8.encode_append]
        rfl
      have hauthorization : ConnectProxy.isAuthorization
          (Utf8.encode ("Proxy-Authorization: Basic ".toList ++ text)) = true := by
        have hname : lower (HeaderValue.latin1 ⟨Utf8.encode "Proxy-Authorization".toList⟩) =
            "proxy-authorization".toList := by decide
        rw [ConnectProxy.isAuthorization, hfield]
        exact decide_eq_true hname
      have hvisible : HeaderValue.IsVisible (" Basic ".toList ++ text) :=
        isVisible_append (by decide) fun _ hch => Base64.printing_of_mem_encode hch
      have hlatin : HeaderValue.latin1 ⟨Utf8.encode (" Basic ".toList ++ text)⟩ =
          " Basic ".toList ++ text :=
        HeaderValue.latin1_of_toStr (HeaderValue.toStr_of_isVisible hvisible)
      have hdrop : (" Basic ".toList ++ text).drop " Basic ".toList.length = text := List.drop_left
      have hprefix : " Basic ".toList.isPrefixOf (" Basic ".toList ++ text) = true :=
        List.isPrefixOf_iff_prefix.2 (List.prefix_append _ _)
      dsimp only
      rw [List.cons_append, List.find?_cons_of_pos hauthorization, Option.bind_some, hfield]
      dsimp only
      rw [hlatin, ConnectProxy.decodeBasic, if_pos hprefix]
      exact (congrArg Base64.decode hdrop).trans (Base64.decode_encode _)

/-- **The request says what is asked.** -/
theorem parse_connectRequest {target : Str} (h : Spaceless target) :
    ConnectProxy.parse (c.connectRequest target) = some ⟨Utf8.encode target, c.credentials⟩ := by
  have hlines := lines_headBytes fun l hl => ((c.headLines_requestLines h).2 l hl).2
  rw [connectRequest_eq, ConnectProxy.parse, hlines]
  have hcons : c.requestLines target =
      Utf8.encode ("CONNECT ".toList ++ target ++ " HTTP/1.1".toList) ::
        (c.requestLines target).tail := rfl
  rw [hcons, List.cons_append]
  dsimp only
  rw [splitOn_requestLine h]
  dsimp only
  rw [if_pos ⟨rfl, rfl⟩, c.credentialsOf_requestLines target]

end OxiHttp.ProxyConnector

namespace ConnectProxy

open OxiHttp

/-! ### The proxy -/

/-- The head that a proxy replies with. -/
structure Reply where
  status : ℕ
  reason : List UInt8
  fields : List (List UInt8)
  reason_line : 0x0D ∉ reason
  fields_lines : ∀ l ∈ fields, l ≠ [] ∧ 0x0D ∉ l

/-- The status line. -/
def Reply.statusLine (reply : Reply) : List UInt8 :=
  Utf8.encode ("HTTP/1.1 ".toList ++ Nat.toDigits 10 reply.status ++ " ".toList) ++ reply.reason

def Reply.bytes (reply : Reply) : List UInt8 := headBytes (reply.statusLine :: reply.fields)

/-- The connector tells from the first line whether the status is 200, and reads the whole head. -/
structure Reply.Clear (reply : Reply) : Prop where
  judged : saysOk (firstLine reply.bytes) = true ↔ reply.status = 200
  short : reply.bytes.length ≤ 8193

theorem Reply.isHead (reply : Reply) : IsHead reply.bytes := by
  refine isHead_lines ⟨List.cons_ne_nil _ _, fun l hl => ?_⟩
  rcases List.mem_cons.1 hl with rfl | hl
  · have hvisible : HeaderValue.IsVisible
        ("HTTP/1.1 ".toList ++ Nat.toDigits 10 reply.status ++ " ".toList) :=
      isVisible_append (isVisible_append (by decide) (isVisible_toDigits (by decide) _))
        (by decide)
    refine ⟨?_, fun hmem => ?_⟩
    · rw [Reply.statusLine, Utf8.encode_append, Utf8.encode_append]
      exact List.cons_ne_nil _ _
    · rcases List.mem_append.1 hmem with hmem | hmem
      · exact ProxyConnector.notMem_of_isVisible hvisible hmem
      · exact reply.reason_line hmem
  · exact reply.fields_lines l hl

/-- The choices of a proxy, and how many bytes of a request it reads. -/
structure Policy where
  limit : ℕ
  reply : Asked → Reply
  said : Asked → List UInt8

/-- Why a proxy opens no tunnel. -/
inductive Refusal where
  | tooLong
  | malformed
  | refused
deriving DecidableEq, Repr

/-- The end of a head has been read. -/
def endsHead (buf : List UInt8) : Bool := headEnd.isSuffixOf buf

theorem hears_head {ε : Type} {e : ε} {n : ℕ} {block : List UInt8} (hhead : IsHead block)
    (hn : block.length ≤ n + 1) (rest : List UInt8) :
    Hears (.hearUntil endsHead e n [] : Program UInt8 ε (List UInt8)) (block ++ rest) block
      rest := by
  have hne : block ≠ [] := by
    rintro rfl
    exact absurd (List.suffix_nil.1 hhead.1) (List.cons_ne_nil _ _)
  exact hears_hearUntil (List.isSuffixOf_iff_suffix.2 hhead.1) hne hn
    (fun p hp _ hstop => hhead.2 p hp (List.isSuffixOf_iff_suffix.1 hstop)) rest

theorem hears_whole {ε : Type} {e : ε} {n : ℕ} {block : List UInt8} (hhead : IsHead block)
    (hn : block.length ≤ n + 1) :
    Hears (.hearUntil endsHead e n [] : Program UInt8 ε (List UInt8)) block block [] := by
  have hhears := hears_head (e := e) hhead hn []
  rwa [List.append_nil] at hhears

variable (policy : Policy)

/-- What comes of a request. -/
def answer (asked : Asked) : Program UInt8 Refusal Asked := do
  .say (policy.reply asked).bytes
  if (policy.reply asked).status ≠ 200 then .fail .refused
  else do
    .say (policy.said asked)
    return asked

/-- The proxy. -/
def server : Program UInt8 Refusal Asked := do
  let head ← .hearUntil endsHead .tooLong policy.limit []
  match parse head with
  | none => .fail .malformed
  | some asked => answer policy asked

/-- What comes of being asked. -/
def Policy.decided (asked : Asked) : Except Refusal Asked :=
  if (policy.reply asked).status = 200 then .ok asked else .error .refused

end ConnectProxy

namespace OxiHttp

/-! ### The connector as a party -/

namespace ProxyConnector

variable (c : ProxyConnector)

/-- The loop that reads the reply. -/
def hearResponse : Program UInt8 OxiHttpError (List UInt8) :=
  .hearUntil ConnectProxy.endsHead (.connectionPool "proxy CONNECT response too large") 8192 []

/-- What is made of the reply. -/
def judge (responseBuf : List UInt8) : Program UInt8 OxiHttpError Unit :=
  if saysOk (firstLine responseBuf) then return ()
  else .fail (.connectionPool ("proxy CONNECT rejected: " ++ firstLine responseBuf))

/-- `tunnel`, as a party of a connection. -/
def party (target : Str) : Program UInt8 OxiHttpError Unit := do
  .say (c.connectRequest target)
  let responseBuf ← hearResponse
  judge responseBuf

/-- The loop. -/
theorem readResponse_of_alone (reset : Option String) {n : ℕ} {buf input rest w : List UInt8}
    {r : Except OxiHttpError (List UInt8)} (hn : n + buf.length = 8192)
    (h : Party.alone (.hearUntil ConnectProxy.endsHead
      (.connectionPool "proxy CONNECT response too large") n buf : Program UInt8 _ _) input =
        (some r, rest, w)) :
    readResponse reset input buf = r.map fun block => (block, rest) := by
  induction input generalizing n buf with
  | nil =>
      rw [Program.alone_hearUntil_nil] at h
      cases h
  | cons b input ih =>
      rw [Program.alone_hearUntil_cons] at h
      rw [readResponse]
      have hlength : (buf ++ [b]).length = buf.length + 1 := by simp
      by_cases hend : headEnd.isSuffixOf (buf ++ [b]) = true
      · have hstop : ConnectProxy.endsHead (buf ++ [b]) = true := hend
        rw [if_pos hstop] at h
        rw [if_pos hend]
        cases h
        rfl
      · have hstop : ¬ ConnectProxy.endsHead (buf ++ [b]) = true := hend
        rw [if_neg hstop] at h
        rw [if_neg hend]
        cases n with
        | zero =>
            rw [if_pos (by omega)]
            cases h
            rfl
        | succ n =>
            rw [if_neg (by omega)]
            exact ih (by omega) h

/-- **The party does what the connector does** on a connection. -/
theorem tunnel_of_alone {target : Str} {opened : ProxyStream} (hroom : opened.stream.room = none)
    {r : Except OxiHttpError Unit} {rest w : List UInt8}
    (h : Party.alone (c.party target) opened.stream.input = (some r, rest, w)) :
    c.tunnel opened target =
      r.map fun _ => { opened.stream.push (c.connectRequest target) with input := rest } := by
  let pushed := opened.stream.push (c.connectRequest target)
  have hfits : opened.stream.Fits (c.connectRequest target).length := by
    intro n hn
    rw [hroom] at hn
    cases hn
  have hbind : c.tunnel opened target =
      (readResponse opened.reset opened.stream.input []).bind fun read =>
        if saysOk (firstLine read.1) then .ok { pushed with input := read.2 }
        else .error (.connectionPool ("proxy CONNECT rejected: " ++ firstLine read.1)) :=
    if_neg (not_not.2 hfits)
  -- the request is written without a look at the input
  have hwritten : ∃ w', Party.alone (hearResponse >>= judge : Program UInt8 OxiHttpError Unit)
      opened.stream.input = (some r, rest, w') := by
    obtain ⟨hr, htail⟩ := Prod.mk.inj h
    exact ⟨_, Prod.ext hr (Prod.ext (Prod.mk.inj htail).1 rfl)⟩
  obtain ⟨w', hjudged⟩ := hwritten
  have halone := (Party.alone_andThen hearResponse judge opened.stream.input).symm.trans hjudged
  rw [hbind]
  rcases hheard : Party.alone hearResponse opened.stream.input with ⟨_ | e | block, rest', w''⟩
  · rw [hheard] at halone
    cases halone
  · rw [readResponse_of_alone opened.reset rfl hheard]
    rw [hheard] at halone
    cases halone
    rfl
  · rw [readResponse_of_alone opened.reset rfl hheard]
    rw [hheard] at halone
    by_cases hsays : saysOk (firstLine block) = true
    · have hjudge : judge block = pure () := if_pos hsays
      dsimp only [Party.resume] at halone
      rw [hjudge] at halone
      cases halone
      exact if_pos hsays
    · have hjudge : judge block = .fail (.connectionPool
          ("proxy CONNECT rejected: " ++ firstLine block)) := if_neg hsays
      dsimp only [Party.resume] at halone
      rw [hjudge] at halone
      cases halone
      exact if_neg hsays

end ProxyConnector

/-! ### The talk -/

namespace ProxyConnector

/-- How the talk of a call with a proxy is to end, for what the proxy is to be asked: it has decided
on that, and the call on what the proxy has written returns a stream, from which what the target
says is read, if it has replied with 200, and fails otherwise. -/
structure Tunnels (c : ProxyConnector) (uri : Uri) (policy : ConnectProxy.Policy)
    (asked : ConnectProxy.Asked)
    (s : Side UInt8 (Except OxiHttpError Unit) ×
      Side UInt8 (Except ConnectProxy.Refusal ConnectProxy.Asked)) : Prop where
  stuck : ∀ t, ¬ Duplex.Step s t
  proxy : s.2.party = .done (policy.decided asked)
  call : ∃ heard answers, Party.After (ConnectProxy.server policy) heard answers s.2.party ∧
    if (policy.reply asked).status = 200 then
      ∃ stream, c.call (replying answers) uri = .ok stream ∧ stream.input = policy.said asked
    else ∃ e, c.call (replying answers) uri = .error e

variable (c : ProxyConnector) (policy : ConnectProxy.Policy) {target : Str}

/-- What the connector makes of what the proxy has decided. -/
def Concludes (asked : ConnectProxy.Asked) (r : Except OxiHttpError Unit) (unread : List UInt8) :
    Prop :=
  if (policy.reply asked).status = 200 then r = .ok () ∧ unread = policy.said asked
  else ∃ e, r = .error e

theorem talk_ends (htarget : Spaceless target)
    (hlimit : (c.connectRequest target).length ≤ policy.limit + 1)
    (hclear : (policy.reply ⟨Utf8.encode target, c.credentials⟩).Clear) :
    ∃ r u, Ends (Side.start (c.party target), Side.start (ConnectProxy.server policy)) r u
        (policy.decided ⟨Utf8.encode target, c.credentials⟩) [] ∧
      Concludes policy ⟨Utf8.encode target, c.credentials⟩ r u := by
  let asked : ConnectProxy.Asked := ⟨Utf8.encode target, c.credentials⟩
  let reply := policy.reply asked
  let replied : Program UInt8 ConnectProxy.Refusal ConnectProxy.Asked :=
    if reply.status ≠ 200 then .fail .refused
    else do
      .say (policy.said asked)
      return asked
  have hrequest : IsHead (c.connectRequest target) := by
    rw [connectRequest_eq]
    exact isHead_lines (c.headLines_requestLines htarget)
  have hserver : ∀ r u outcome,
      Ends (Side.at (hearResponse >>= judge : Program UInt8 OxiHttpError Unit) reply.bytes,
        Side.at replied []) r u outcome [] →
      Ends (Side.start (c.party target), Side.start (ConnectProxy.server policy)) r u outcome
        [] := by
    intro r u outcome h
    refine .left_writes (.right_hears (ConnectProxy.hears_whole hrequest hlimit) ?_)
    rw [List.nil_append, c.parse_connectRequest htarget]
    exact .right_writes h
  unfold ConnectProxy.Policy.decided Concludes
  split_ifs with hstatus
  · refine ⟨.ok (), policy.said asked, hserver _ _ _ ?_, rfl, rfl⟩
    have hreplied : replied = (do
        .say (policy.said asked)
        return asked) := if_neg (not_not.2 hstatus)
    have hjudge : judge reply.bytes = pure () := if_pos (hclear.judged.2 hstatus)
    rw [hreplied]
    -- the head ends before what the target says
    refine .right_writes (.left_hears (ConnectProxy.hears_head reply.isHead hclear.short _) ?_)
    rw [hjudge]
    exact .done
  · refine ⟨.error (.connectionPool ("proxy CONNECT rejected: " ++ firstLine reply.bytes)), [],
      hserver _ _ _ ?_, _, rfl⟩
    have hreplied : replied = .fail .refused := if_pos hstatus
    have hjudge : judge reply.bytes = .fail (.connectionPool
      ("proxy CONNECT rejected: " ++ firstLine reply.bytes)) := if_neg (mt hclear.judged.1 hstatus)
    rw [hreplied]
    refine .left_hears (ConnectProxy.hears_whole reply.isHead hclear.short) ?_
    rw [hjudge]
    exact .done

theorem Spaceless.authority {host : Str} (h : Spaceless host) (port : ℕ) :
    Spaceless (host ++ ':' :: Nat.toDigits 10 port) := by
  intro ch hch
  rcases List.mem_append.1 hch with hch | hch
  · exact h ch hch
  · rcases List.mem_cons.1 hch with rfl | hch
    · decide
    · have hdigit := Nat.isDigit_of_mem_toDigits (by decide) (by decide) hch
      have hle := Char.isDigit_iff_toNat.1 hdigit
      exact ⟨Nat.lt_of_lt_of_le (by decide) hle.1, Nat.lt_of_le_of_lt hle.2 (by decide)⟩

theorem call_replying {c : ProxyConnector} {uri : Uri} {proxy : Str × UInt16} {host : Str}
    {port : UInt16} (hproxy : uriHostPort c.proxyUri = .ok proxy)
    (huri : uriHostPort uri = .ok (host, port)) (answers : List UInt8) :
    c.call (replying answers) uri = c.tunnel { stream := { input := answers } }
      (host ++ ':' :: Nat.toDigits 10 port.toNat) := by
  have hconnect : c.connect (replying answers) uri =
      .ok ({ stream := { input := answers } }, host ++ ':' :: Nat.toDigits 10 port.toNat) := by
    rw [connect, hproxy, huri]
    cases c.connectTimeout <;> rfl
  rw [call, hconnect]
  rfl

end ProxyConnector

/-- **Every talk ends as it should.**  Whatever has happened between the connector and the proxy, it
cannot go on for ever, and it can go on until the two have come to an end and agree: on the host and
the port of the URI, the credentials, and the answer of the proxy. -/
theorem connect_tunnels {c : ProxyConnector} {uri : Uri} {proxy : Str × UInt16} {host : Str}
    {port : UInt16} (hproxy : uriHostPort c.proxyUri = .ok proxy)
    (huri : uriHostPort uri = .ok (host, port)) (hhost : ProxyConnector.Spaceless host)
    (policy : ConnectProxy.Policy)
    (hlimit : (c.connectRequest (host ++ ':' :: Nat.toDigits 10 port.toNat)).length ≤
      policy.limit + 1)
    (hclear : ∀ asked, (policy.reply asked).Clear)
    (s : Side UInt8 (Except OxiHttpError Unit) ×
      Side UInt8 (Except ConnectProxy.Refusal ConnectProxy.Asked))
    (hruns : Relation.ReflTransGen Duplex.Step
      (Side.start (c.party (host ++ ':' :: Nat.toDigits 10 port.toNat)),
        Side.start (ConnectProxy.server policy)) s) :
    Acc (fun b a => Duplex.Step a b) s ∧
      ∃ t, Relation.ReflTransGen Duplex.Step s t ∧ c.Tunnels uri policy
        ⟨Utf8.encode (host ++ ':' :: Nat.toDigits 10 port.toNat), c.credentials⟩ t := by
  obtain ⟨r, u, hends, hconcludes⟩ := c.talk_ends policy (hhost.authority port.toNat) hlimit
    (hclear _)
  have hgoes := (hends.of_runs hruns).runs
  refine ⟨Duplex.wellFounded_step.apply s, _, hgoes, Ends.stuck, rfl, ?_⟩
  -- what the connector has become is what it makes of the answers
  obtain ⟨answers, ⟨heard, hheard⟩, halone, hunread⟩ :=
    (Duplex.reached_of_runs (hruns.trans hgoes)).alone rfl
  let opened : ProxyStream := { stream := { input := answers } }
  have htunnel := c.tunnel_of_alone (show opened.stream.room = none from rfl)
    (Prod.ext halone (Prod.ext (hunread.trans (List.append_nil u)) rfl))
  refine ⟨heard, answers, hheard, ?_⟩
  rw [ProxyConnector.call_replying hproxy huri, htunnel]
  rw [ProxyConnector.Concludes] at hconcludes
  split_ifs at hconcludes ⊢ with hstatus
  · obtain ⟨rfl, rfl⟩ := hconcludes
    exact ⟨_, rfl, rfl⟩
  · obtain ⟨e, rfl⟩ := hconcludes
    exact ⟨e, rfl⟩

/-- The reply that opens a tunnel. -/
def openingReply : ConnectProxy.Reply :=
  ⟨200, Utf8.encode "OK".toList, [], by decide, by decide⟩

theorem clear_openingReply : openingReply.Clear := ⟨by decide, by decide⟩

/-- A proxy that opens every tunnel, and a target that says `hi`. -/
def openingPolicy : ConnectProxy.Policy where
  limit := 8192
  reply _ := openingReply
  said _ := Utf8.encode "hi".toList

theorem connect_tunnels_opened :
    Acc (fun b a => Duplex.Step a b) (Side.start (exampleProxy.party "target.test:443".toList),
      Side.start (ConnectProxy.server openingPolicy)) ∧
      ∃ t, Relation.ReflTransGen Duplex.Step
          (Side.start (exampleProxy.party "target.test:443".toList),
            Side.start (ConnectProxy.server openingPolicy)) t ∧
        exampleProxy.Tunnels exampleTarget openingPolicy
          ⟨Utf8.encode "target.test:443".toList, none⟩ t :=
  connect_tunnels
    (show uriHostPort exampleProxy.proxyUri = .ok ("proxy.test".toList, 3128) from rfl)
    (show uriHostPort exampleTarget = .ok ("target.test".toList, 443) from rfl) (by decide)
    openingPolicy (by decide) (fun _ => clear_openingReply) _ .refl

end OxiHttp
