/-
**When the SOCKS5 connector goes on.**

The connector may ask for a connection only after the proxy has selected a method it was offered,
and may hand out the stream only after the proxy has agreed to everything.  The code refuses the
method 0xFF and goes on with every other one, and it does not look at the version of the reply.
This module says for every string of bytes from the proxy whether the connector went on rightly.

Main definitions:

* `OxiHttp.Consents` — the answers by which a proxy agrees, and what follows them;
* `OxiHttp.ProceedsOnConsent` — a call goes on only with the proxy's consent, and has consumed
  exactly the answers when it succeeds.

Main results:

* `OxiHttp.method_of_connect_sent` — what has been answered when the request is sent;
* `OxiHttp.proceedsOnConsent_iff` — for which answers the call does what it should.
-/

import OxiHttp.Socks5Requests

set_option relaxedAutoImplicit false
set_option autoImplicit false

namespace OxiHttp

/-- The methods that the greeting offers. -/
def offered (auth : Option (Str × Str)) : List UInt8 :=
  if auth.isSome then [0x00, 0x02] else [0x00]

/-- The answers by which a proxy agrees, with `rest` behind them: it selects a method that was
offered, accepts the credentials if it asked for them, and replies with version 5 and code 0. -/
def Consents (auth : Option (Str × Str)) (input rest : List UInt8) : Prop :=
  ∃ method bs bs' reply, Socks5.parseMethod input = some (method, bs) ∧ method ∈ offered auth ∧
    (if method = 0x02 then Socks5.parseStatus bs = some (0x00, bs') else bs = bs') ∧
    Socks5.parseReply bs' = some (reply, rest) ∧ reply.version = 0x05 ∧ reply.code = 0x00

/-- Whatever comes of the writes, a call to a proxy that sends `input` succeeds only with its
consent, and then exactly the answers are consumed; and the request is sent only after an offered
method was selected. -/
def ProceedsOnConsent (c : Socks5Connector) (uri : Uri) (input : List UInt8) : Prop :=
  ∀ network : Str → Opening, (∀ addr s, (network addr).outcome = .ok s → s.input = input) →
    (∀ s, (c.call network uri).1 = .ok s → Consents c.auth input s.input) ∧
    ∀ m, (.connect, m) ∈ (c.call network uri).2 →
      ∃ method bs, Socks5.parseMethod input = some (method, bs) ∧ method ∈ offered c.auth

section

variable {auth : Option (Str × Str)} {host : Str} {port : UInt16}

theorem mem_offered_iff {method : UInt8} :
    method ∈ offered auth ↔ method = 0x00 ∨ method = 0x02 ∧ auth.isSome = true := by
  unfold offered
  cases auth <;> simp

/-- A method that asks for credentials is answered with credentials. -/
theorem auth_isSome_of_afterAuth {method : UInt8} {bs bs' : List UInt8}
    (h : afterAuth auth method bs = some bs') (h2 : method = 0x02) : auth.isSome = true := by
  rcases afterAuth_eq_some.1 h with ⟨hne, -⟩ | ⟨user, pass, version, -, rfl, -⟩
  · exact absurd h2 hne
  · rfl

/-- The proxy agrees when the code comes through, with an offered method and the right version. -/
theorem consents_iff {input rest : List UInt8} :
    Consents auth input rest ↔ ∃ method reply, passes auth input = some (method, reply, rest) ∧
      method ∈ offered auth ∧ reply.version = 0x05 := by
  constructor
  · rintro ⟨method, bs, bs', reply, hmethod, hoffered, hauth, hreply, hversion, hcode⟩
    refine ⟨method, reply, passes_eq_some.2 ⟨bs, bs', parseMethod_eq_some hmethod, ?_, ?_,
      hreply, hcode⟩, hoffered, hversion⟩
    · rintro rfl
      rcases mem_offered_iff.1 hoffered with h | ⟨h, -⟩ <;> exact absurd h (by decide)
    · by_cases h2 : method = 0x02
      · rw [if_pos h2] at hauth
        have hsome := mem_offered_iff.1 hoffered
        cases auth with
        | none => simp [h2] at hsome
        | some up =>
            -- the status is zero, whatever the version before it
            unfold Socks5.parseStatus at hauth
            split at hauth
            case h_1 version status rest' =>
                cases hauth
                exact afterAuth_eq_some.2 (.inr ⟨up.1, up.2, version, h2, rfl, rfl⟩)
            case h_2 => cases hauth
      · rw [if_neg h2] at hauth
        exact afterAuth_eq_some.2 (.inl ⟨h2, hauth⟩)
  · rintro ⟨method, reply, hpasses, hoffered, hversion⟩
    obtain ⟨bs, bs', rfl, -, hauth, hreply, hcode⟩ := passes_eq_some.1 hpasses
    refine ⟨method, bs, bs', reply, rfl, hoffered, ?_, hreply, hversion, hcode⟩
    rcases afterAuth_eq_some.1 hauth with ⟨h2, rfl⟩ | ⟨user, pass, version, rfl, rfl, rfl⟩
    · rw [if_neg h2]
    · rw [if_pos rfl]
      rfl

/-- When the request is sent, a method has been selected that is not the refusal of all, and
credentials were there if it asks for them. -/
theorem method_of_connect_sent {stream : ByteStream} {m : List UInt8}
    (h : (.connect, m) ∈ ((handshake auth host port).run { stream }).2.sent) :
    ∃ method bs, stream.input = 0x05 :: method :: bs ∧ method ≠ 0xFF ∧
      (method = 0x02 → auth.isSome = true) := by
  let P : Step × List UInt8 → Prop := fun m => m.1 ≠ .connect
  have hnot (d : Dialogue) (h : Adds P { stream } d) : (.connect, m) ∉ d.sent := by
    obtain ⟨ms, hsent, hms⟩ := h
    rw [hsent, List.nil_append]
    exact fun hm => hms _ hm rfl
  have hselectSends : Sends P (selectMethod auth) := sends_selectMethod (by simp [P])
  rcases hselect : (selectMethod auth).run { stream } with ⟨r, d₁⟩
  cases r with
  | error e =>
      rw [handshake, Attempt.bind_error hselect] at h
      exact absurd h (hnot d₁ (hselectSends.of_run hselect))
  | ok method =>
      obtain ⟨hin, hne, -⟩ := selectMethod_ok hselect
      refine ⟨method, d₁.stream.input, hin, hne, fun h2 => ?_⟩
      rw [handshake, Attempt.bind_ok hselect] at h
      have hauthSends : Sends P (authenticate auth method) :=
        sends_authenticate fun _ _ _ => by simp [P]
      rcases hauth : (authenticate auth method).run d₁ with ⟨r, d₂⟩
      cases r with
      | error e =>
          rw [Attempt.bind_error hauth] at h
          exact absurd h (hnot d₂ ((hselectSends.of_run hselect).trans (hauthSends.of_run hauth)))
      | ok _ =>
          rcases authenticate_ok hauth with ⟨hne2, -⟩ | ⟨user, pass, version, -, rfl, -⟩
          · exact absurd h2 hne2
          · rfl

/-- After such a method other than the one with credentials, the request is sent. -/
theorem connect_sent_of_method (stream : ByteStream) (hroom : stream.room = none)
    {method : UInt8} {bs : List UInt8} (hin : stream.input = 0x05 :: method :: bs)
    (hne : method ≠ 0xFF) (h2 : method ≠ 0x02) : (.connect, connectBytes host port) ∈
      ((handshake auth host port).run { stream }).2.sent := by
  have hselect := run_selectMethod auth (d := { stream }) hroom hin hne
  have hskip : (authenticate auth method).run
      ((Dialogue.said { stream } .greeting (greetingBytes auth)).heard bs)
        = (.ok (), (Dialogue.said { stream } .greeting (greetingBytes auth)).heard bs) := by
    simp [authenticate, h2]
  have hsay := run_say (d := (Dialogue.said { stream } .greeting (greetingBytes auth)).heard bs)
    hroom .connect (connectBytes host port)
  rw [handshake, Attempt.bind_ok hselect, Attempt.bind_ok hskip, Attempt.bind_ok hsay]
  -- what is heard after it takes nothing back
  obtain ⟨ms, hsent, -⟩ := sends_readReply (P := fun _ => True)
    (((Dialogue.said { stream } .greeting (greetingBytes auth)).heard bs).said .connect
      (connectBytes host port))
  rw [hsent]
  simp [Dialogue.said]

end

section

variable {c : Socks5Connector} {uri : Uri} {input : List UInt8}

/-- A call that sends nothing and fails needs no consent. -/
theorem proceedsOnConsent_of_unusable (h : (∃ e, uriHostPort c.proxyUri = .error e) ∨
    ∃ e, uriHostPort uri = .error e) : ProceedsOnConsent c uri input := by
  intro network _
  obtain ⟨e, hcall⟩ := call_of_unusable network h
  rw [hcall]
  exact ⟨fun s hs => (by cases hs), by simp⟩

/-- With usable URIs, a connection that takes everything that is written shows the method to be one
that the code tells from the others. -/
theorem ProceedsOnConsent.method_mem (proxy target : Str × UInt16)
    (h : ProceedsOnConsent c uri input) (hproxy : uriHostPort c.proxyUri = .ok proxy)
    (huri : uriHostPort uri = .ok target) {method : UInt8} {bs : List UInt8}
    (hin : input = 0x05 :: method :: bs) : method ∈ [0x00, 0x02, 0xFF] := by
  have hcall := h (fun _ => ⟨false, .ok { input }⟩) (by rintro _ _ ⟨⟩; rfl)
  rw [call_opened _ _ hproxy huri] at hcall
  by_contra hmem
  simp only [List.mem_cons, List.not_mem_nil, or_false, not_or] at hmem
  obtain ⟨h0, h2, hff⟩ := hmem
  -- the request is sent all the same
  obtain ⟨method', bs', hmethod, hoffered⟩ := hcall.2 _
    (connect_sent_of_method { input } rfl hin hff h2)
  cases hin.symm.trans (parseMethod_eq_some hmethod)
  rcases mem_offered_iff.1 hoffered with h | ⟨h, -⟩
  · exact h0 h
  · exact h2 h

/-- And the reply that lets the call succeed to have the right version. -/
theorem ProceedsOnConsent.reply_version (proxy target : Str × UInt16)
    (h : ProceedsOnConsent c uri input) (hproxy : uriHostPort c.proxyUri = .ok proxy)
    (huri : uriHostPort uri = .ok target) {method : UInt8} {reply : Socks5.Reply}
    {rest : List UInt8} (hpasses : passes c.auth input = some (method, reply, rest)) :
    reply.version = 0x05 := by
  have hcall := h (fun _ => ⟨false, .ok { input }⟩) (by rintro _ _ ⟨⟩; rfl)
  rw [call_opened _ _ hproxy huri] at hcall
  obtain ⟨d', hrun, hrest, -⟩ := run_handshake target.1 target.2
    (d := { stream := { input } }) rfl hpasses
  have hconsents := hcall.1 d'.stream (by rw [hrun]; rfl)
  rw [hrest] at hconsents
  obtain ⟨method', reply', hpasses', -, hversion⟩ := consents_iff.1 hconsents
  cases hpasses.symm.trans hpasses'
  exact hversion

/-- Answers with such a method and such a reply leave the code nothing to miss. -/
theorem proceedsOnConsent_of_answers
    (hmethod : ∀ method bs, input = 0x05 :: method :: bs → method ∈ [0x00, 0x02, 0xFF])
    (hversion : ∀ method reply rest, passes c.auth input = some (method, reply, rest) →
      reply.version = 0x05) : ProceedsOnConsent c uri input := by
  intro network hnetwork
  rcases call_cases c uri network with ⟨e, hcall⟩ | ⟨host, port, stream, -, ⟨addr, hstream⟩,
    hcall⟩
  · rw [hcall]
    exact ⟨fun s hs => (by cases hs), by simp⟩
  · obtain rfl := hnetwork addr stream hstream
    have hoffered {method : UInt8} {bs : List UInt8} (hin : stream.input = 0x05 :: method :: bs)
        (hne : method ≠ 0xFF) (h2 : method = 0x02 → c.auth.isSome = true) :
        method ∈ offered c.auth := by
      have hmem := hmethod method bs hin
      simp only [List.mem_cons, List.not_mem_nil, or_false] at hmem
      rcases hmem with h | h | h
      · exact mem_offered_iff.2 (.inl h)
      · exact mem_offered_iff.2 (.inr ⟨h, h2 h⟩)
      · exact absurd h hne
    rw [hcall]
    constructor
    · intro s hs
      rcases hrun : (handshake c.auth host port).run { stream } with ⟨r, d'⟩
      rw [hrun] at hs
      cases r with
      | error e => cases hs
      | ok _ =>
          cases hs
          obtain ⟨method, reply, hpasses, -⟩ := handshake_ok hrun
          obtain ⟨bs, bs', hin, hne, hauth, -⟩ := passes_eq_some.1 hpasses
          exact consents_iff.2 ⟨method, reply, hpasses,
            hoffered hin hne (auth_isSome_of_afterAuth hauth), hversion method reply _ hpasses⟩
    · intro m hm
      obtain ⟨method, bs, hin, hne, h2⟩ := method_of_connect_sent hm
      exact ⟨method, bs, by rw [hin]; rfl, hoffered hin hne h2⟩

end

/-- A call proceeds on consent exactly when a URI cannot be used at all, or the method selected is
0, 2 or the refusal of all, and a reply that lets it succeed has the version byte 5. -/
theorem proceedsOnConsent_iff (c : Socks5Connector) (uri : Uri) (input : List UInt8) :
    ProceedsOnConsent c uri input ↔
      (∃ e, uriHostPort c.proxyUri = .error e) ∨ (∃ e, uriHostPort uri = .error e) ∨
        (∀ method bs, input = 0x05 :: method :: bs → method ∈ [0x00, 0x02, 0xFF]) ∧
          ∀ method reply rest, passes c.auth input = some (method, reply, rest) →
            reply.version = 0x05 := by
  constructor
  · intro h
    cases hproxy : uriHostPort c.proxyUri with
    | error e => exact .inl ⟨e, rfl⟩
    | ok proxy =>
        cases huri : uriHostPort uri with
        | error e => exact .inr (.inl ⟨e, rfl⟩)
        | ok target =>
            exact .inr (.inr ⟨fun method bs hin => h.method_mem proxy target hproxy huri hin,
              fun method reply rest hpasses =>
                h.reply_version proxy target hproxy huri hpasses⟩)
  · rintro (h | h | ⟨hmethod, hversion⟩)
    · exact proceedsOnConsent_of_unusable (.inl h)
    · exact proceedsOnConsent_of_unusable (.inr h)
    · exact proceedsOnConsent_of_answers hmethod hversion

/-- A proxy that selects a method it was not offered is sent the request all the same. -/
theorem not_proceedsOnConsent_gssapi :
    ¬ ProceedsOnConsent plainConnector loopbackTarget [0x05, 0x01] := by
  intro h
  have h := h (fun _ => ⟨false, .ok { input := [0x05, 0x01] }⟩) (by rintro _ _ ⟨⟩; rfl)
  rw [call_opened ("p.test".toList, 1080) ("[::1]".toList, 443) rfl rfl] at h
  obtain ⟨method, bs, hmethod, hoffered⟩ := h.2 _ (connect_sent_of_method
    { input := [0x05, 0x01] } rfl rfl (by decide) (by decide))
  cases hmethod
  exact absurd hoffered (by decide)

end OxiHttp
