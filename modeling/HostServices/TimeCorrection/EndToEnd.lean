import HostServices.TimeCorrection.Agreement
import HostServices.TimeCorrection.Evidence

/-!
# From the network to the clock (`time-correction`)

The run of `Run` takes what each pair's exchange came to as given. Here the exchanges are
those of `AskPair`, over a network for each pair that answers as it likes.

- `networkHost`: the host whose exchanges are made over networks;
- `Authentic`: what an obtained time that passed every gate is backed by;
- `clock_set_authentically`: what it takes to set the clock.
-/

namespace HostServices.TimeCorrection

open HostServices.Lib

variable {Cert Name : Type}

/-- The host whose `i`-th exchange is made over the `i`-th network. -/
def networkHost (o : Options) (seed : UInt64) (trustStore : Except String (Pki Cert Name))
    (nets : Nat → Network Cert Name) (wallClock : Int)
    (clockSettime : Int64 → Except String Unit) : Host Cert Name where
  trustStore := trustStore
  exchange i :=
    match trustStore, choose o seed with
    | .ok pki, .ok pairs =>
      match pairs[i]? with
      | some (resolver, server) => exchange pki (nets i) resolver server
      | none => .failed "no such pair"
    | _, _ => .failed "no pairs are asked"
  wallClock := wallClock
  clockSettime := clockSettime

/-- The server's answer that is behind a time: among the calls of the exchange there is the
session of key establishment, which presented the chain that was recorded and exports the key
of the answer for AES-SIV-CMAC-256 in the direction of the client, and the last of them is
answered by the packet, which carries the identifier that was drawn, authenticated under this
key. -/
structure AnswerFrom (net : Network Cert Name) (server : TimeServer) (ev : Evidence Cert Name)
    (t : Int64) : Prop where
  session : ∃ earlier session,
    earlier ++ [keysCall server.hostname ev.keyAddress] <+: ev.calls ∧
    net.connect (earlier ++ [keysCall server.hostname ev.keyAddress])
      (Nts.request Nts.aeadAesSivCmac256) = .ok session ∧
    ev.key.chain = session.leaf :: session.intermediates ∧
    session.exporter Nts.exporterLabel [0, 0, 0, 15, 1] = .ok ev.established.s2c
  packet : ∃ earlier request received fields auth unique,
    ev.calls =
      earlier ++ [.time ev.address (ntpTarget ev.established ev.keyAddress).2.2] ∧
    (net.datagram ev.calls request).received = .ok received ∧
    Ntp.Accepted net.siv (received.take datagramSize) ev.established.s2c.val ev.uniqueId.val t
      fields auth unique

/-- A time that passed every gate: it is what the exchange came to on this evidence, no earlier
than the floor, and every chain that was recorded on the way to it, the resolver's under its
name and the server's under its own, verifies at that time. -/
structure Authentic (pki : Pki Cert Name) (net : Network Cert Name) (resolver : Resolver)
    (server : TimeServer) (floor t : Int64) (ev : Evidence Cert Name) : Prop where
  calls_eq : ev.calls = callsMade pki net resolver server
  backed : ∃ pending, exchange pki net resolver server = .obtained t pending ∧
    ev.Backs pki net resolver server t pending
  floor_le : floor ≤ t
  resolver_verified : ∀ leg ∈ ev.legs ++ ev.redirectLegs,
    net.serverName resolver.hostname = some leg.1.serverName ∧
      verifyAt pki leg.1.chain leg.1.serverName t = .ok ()
  server_verified : net.serverName server.hostname = some ev.key.serverName ∧
    verifyAt pki ev.key.chain ev.key.serverName t = .ok ()
  answer : AnswerFrom net server ev t

/-! ## One pair -/

/-- What is agreed on is what was asked for. -/
theorem aead_of_readAgreement {address : String} {reads : List Nts.Read}
    {agreement : Nts.Agreement} (h : Nts.readAgreement address reads = .ok agreement) :
    agreement.aead = Nts.aeadAesSivCmac256 := by
  obtain ⟨response, -, h⟩ := bind_eq_ok.mp h
  split_ifs at h with hcomplete
  obtain ⟨⟨p, ended⟩, -, h⟩ := bind_eq_ok.mp h
  dsimp only at h
  split_ifs at h with hended
  obtain ⟨-, -, -, rfl⟩ := Nts.agreement_ok h
  rfl

/-- A lookup is verified under the resolver's name. -/
theorem FamilyAnswer.serverName {pki : Pki Cert Name} {net : Network Cert Name}
    {resolver : Resolver} {name : String} {id : UInt16} {made : List Call}
    {leg : Pending Cert Name × List IpAddr}
    (h : FamilyAnswer pki net resolver name id made leg) :
    net.serverName resolver.hostname = some leg.1.serverName := by
  obtain ⟨_, _, -, _, _, -, -, hanswer⟩ := h
  exact hanswer.named

/-- The legs of a redirect are the same resolver's. -/
theorem Targeted.serverName {pki : Pki Cert Name} {net : Network Cert Name}
    {resolver : Resolver} {id : UInt16} {made : List Call} {established : Established}
    {keyAddress address : IpAddr} {legs : List (Pending Cert Name × List IpAddr)}
    (h : Targeted pki net resolver id made established keyAddress address legs)
    {leg : Pending Cert Name × List IpAddr} (hleg : leg ∈ legs) :
    net.serverName resolver.hostname = some leg.1.serverName := by
  cases hredirect : (ntpTarget established keyAddress).1 with
  | none =>
    rw [(h.direct hredirect).2] at hleg
    cases hleg
  | some name => exact ((h.redirected name hredirect).1.answers leg hleg).serverName

/-- What backs a time leads to the server's answer. -/
theorem Evidence.Backs.answerFrom {ev : Evidence Cert Name} {pki : Pki Cert Name}
    {net : Network Cert Name} {resolver : Resolver} {server : TimeServer} {t : Int64}
    {pending : List (Pending Cert Name)} (h : ev.Backs pki net resolver server t pending) :
    AnswerFrom net server ev t := by
  constructor
  · obtain ⟨earlier, hcalls, hkey⟩ := h.agreement
    obtain ⟨session, hconnect, hpass, -, hagreement, -, hs2c⟩ := hkey.session
    rw [aead_of_readAgreement hagreement] at hs2c
    exact ⟨earlier, session, hcalls, hconnect, (firstPass_eq_ok.mp hpass).1, hs2c⟩
  · obtain ⟨earlier, hcalls, hanswer⟩ := h.answered
    obtain ⟨_, request, received, -, -, hreceived, hparse⟩ := hanswer.exchanged
    obtain ⟨fields, auth, unique, haccepted⟩ := Ntp.parseResponse_ok hparse
    rw [← hcalls] at hreceived
    exact ⟨earlier, request.packet, received, fields, auth, unique, hcalls, hreceived,
      haccepted⟩

/-- A second that was read from a packet is one that an NTP timestamp can stand for. -/
theorem AnswerFrom.ntpRange {ev : Evidence Cert Name} {net : Network Cert Name}
    {server : TimeServer} {t : Int64} (h : AnswerFrom net server ev t) : NtpRange t := by
  obtain ⟨_, _, _, _, _, _, -, -, haccepted⟩ := h.packet
  exact ntpRange_of_transmitTimestamp haccepted.timestamp

/-- What a pair contributed over its network. -/
theorem Contributed.authentic {pki : Pki Cert Name} {o : Options} {host : Host Cert Name}
    {c : Collected} {i : Nat} {resolver : Resolver} {server : TimeServer} {seconds : Int64}
    {pending : List (Pending Cert Name)} {window : Option Window} {net : Network Cert Name}
    (h : Contributed pki o host c i (resolver, server) seconds pending window)
    (hexchange : host.exchange i = exchange pki net resolver server) :
    ∃ ev, Authentic pki net resolver server o.floor seconds ev := by
  have hobtained := h.obtained
  rw [hexchange] at hobtained
  rcases exchange_cases pki net resolver server with
    ⟨t, p, hx, ev, hcalls, hbacks⟩ | ⟨message, hx, -⟩
  · rw [hx] at hobtained
    cases hobtained
    have hverified := h.vouched.verified
    rw [hbacks.pending_eq] at hverified
    obtain ⟨earlier, -, hkey⟩ := hbacks.agreement
    refine ⟨ev, hcalls, ⟨_, hx, hbacks⟩, h.floor_le, ?_, ⟨hkey.named, ?_⟩,
      hbacks.answerFrom⟩
    · rw [List.forall_mem_append]
      constructor
      · intro leg hleg
        refine ⟨(hbacks.resolved.answers leg hleg).serverName, hverified leg.1 ?_⟩
        exact List.mem_append_left _ (List.mem_map_of_mem hleg)
      · intro leg hleg
        refine ⟨hbacks.targeted.serverName hleg, hverified leg.1 ?_⟩
        exact List.mem_append_right _ (List.mem_cons_of_mem _ (List.mem_map_of_mem hleg))
    · exact hverified ev.key (List.mem_append_right _ List.mem_cons_self)
  · rw [hx] at hobtained
    cases hobtained

/-! ## The clock -/

/-- **The clock is set on authenticated answers only**: whatever the networks answer, a run
that sets the clock to `t` has, for every pair that was chosen, a time that is no earlier than
the floor, that its exchange read from a packet authenticated under the key of a session with
the server, and at which the chains of that session and of every lookup the exchange rests on,
those of a redirect included, verify; `t` is one of these times, and no other is further away
from it than twice the tolerance, or than the tolerance if the operators are distinct. -/
theorem clock_set_authentically {o : Options} {seed : UInt64}
    {trustStore : Except String (Pki Cert Name)} {nets : Nat → Network Cert Name}
    {wallClock : Int} {clockSettime : Int64 → Except String Unit} {t : Int64}
    (h : .setClock t ∈ (run o seed (networkHost o seed trustStore nets wallClock
      clockSettime)).1) :
    ∃ pki pairs, trustStore = .ok pki ∧ choose o seed = .ok pairs ∧
      (∀ i resolver server, pairs[i]? = some (resolver, server) → ∃ seconds ev,
        Authentic pki (nets i) resolver server o.floor seconds ev ∧
        |seconds.toInt - t.toInt| ≤ 2 * o.tolerance.toInt ∧
        ((pairs.map (·.2.operator)).Nodup → |seconds.toInt - t.toInt| ≤ o.tolerance.toInt)) ∧
      ∃ i resolver server ev, pairs[i]? = some (resolver, server) ∧
        Authentic pki (nets i) resolver server o.floor t ev := by
  generalize hhost : networkHost o seed trustStore nets wallClock clockSettime = host at h
  obtain ⟨window, hagree, -, -⟩ := run_setClock h
  obtain ⟨pairs, hpairs, hfail, hdecide, rfl⟩ := agree_ok hagree
  obtain ⟨pki, htrust, -, -, hall⟩ := collectAnswers_ok hfail
  have hstore : trustStore = .ok pki := by rw [← htrust, ← hhost]; rfl
  have hexchange : ∀ i resolver server, pairs[i]? = some (resolver, server) →
      host.exchange i = exchange pki (nets i) resolver server := by
    intro i resolver server hpair
    rw [← hhost, networkHost]
    dsimp only
    rw [hstore, hpairs]
    dsimp only
    rw [hpair]
  have hrange : ∀ a ∈ (collectAnswers o host pairs).answers, NtpRange a.seconds := by
    intro a ha
    obtain ⟨i, ⟨resolver, server⟩, _, _, hpair, hc⟩ := exists_contributed htrust hfail ha
    obtain ⟨_, hauthentic⟩ := hc.authentic (hexchange i resolver server hpair)
    exact hauthentic.answer.ntpRange
  refine ⟨pki, pairs, hstore, hpairs, ?_, ?_⟩
  · intro i resolver server hpair
    obtain ⟨seconds, pending, w, hc⟩ := hall i _ hpair
    obtain ⟨ev, hauthentic⟩ := hc.authentic (hexchange i resolver server hpair)
    have hanswer := List.mem_of_getElem? hc.answer_eq
    have hsampled : server.operator ∈ pairs.map (·.2.operator) :=
      List.mem_map_of_mem (f := fun pair : Resolver × TimeServer => pair.2.operator)
        (List.mem_of_getElem? hpair)
    have hclose := Quorum.answer_close_of_decide hrange hdecide hanswer hsampled
    refine ⟨seconds, ev, hauthentic, abs_sub_comm t.toInt seconds.toInt ▸ hclose,
      fun hnodup => ?_⟩
    rw [← map_operator_answers hfail] at hnodup hdecide
    have hnonneg : ∀ a ∈ (collectAnswers o host pairs).answers, 0 ≤ a.seconds := by
      intro a ha
      obtain ⟨_, _, _, _, -, hca⟩ := exists_contributed htrust hfail ha
      exact hca.nonneg
    exact Quorum.dist_le_of_decide hnodup hnonneg hdecide
      (answerOf (resolver, server) seconds) hanswer
  · obtain ⟨a, ha, rfl⟩ := Quorum.exists_answer_of_decide hdecide
    obtain ⟨i, ⟨resolver, server⟩, pending, w, hpair, hc⟩ := exists_contributed htrust hfail ha
    obtain ⟨ev, hauthentic⟩ := hc.authentic (hexchange i resolver server hpair)
    exact ⟨i, resolver, server, ev, hpair, hauthentic⟩

/-- The chain that each answer of the sample's resolver leaves behind. -/
def sampleLeg : Pending Nat String := ⟨"DoH dns10.quad9.net", [1, 2], "dns10.quad9.net"⟩

/-- The chain of the sample's session. -/
def sampleKey : Pending Nat String := ⟨"NTS-KE t", [3], "t"⟩

theorem leg_sample {earlier : List Call} {a : IpAddr} {name : String} {qtype id : UInt16}
    {p : Pending Nat String} {found : List IpAddr}
    (h : DohAnswer aroundPki ipv6Network earlier sampleResolver.hostname a name qtype id p
      found) : p = sampleLeg := by
  have hpass : firstPass aroundPki 1 [2] sampleResolver.hostname = .ok [1, 2] := by
    decide +kernel
  obtain ⟨query, reply, body, -, hpost, hfirst, -⟩ := h.answered
  have hname := h.named
  rw [ipv6Network] at hpost hname
  dsimp only at hpost
  rw [List.getLast?_concat] at hpost
  cases a with
  | v4 bits => cases hpost
  | v6 bits =>
    cases hpost
    cases p
    cases hname
    cases h.leg
    cases hpass.symm.trans hfirst
    rfl

theorem key_sample {earlier : List Call} {a : IpAddr} {key : Pending Nat String}
    {e : Established}
    (h : KeyAgreement aroundPki ipv6Network earlier sampleServer.hostname a key e) :
    key = sampleKey := by
  have hpass : firstPass aroundPki 3 [] sampleServer.hostname = .ok [3] := by decide +kernel
  obtain ⟨session, hconnect, hfirst, -⟩ := h.session
  have hname := h.named
  rw [ipv6Network] at hconnect hname
  dsimp only at hconnect
  rw [List.getLast?_concat] at hconnect
  cases a with
  | v4 bits => cases hconnect
  | v6 bits =>
    cases hconnect
    cases key
    cases hname
    cases h.leg
    cases hpass.symm.trans hfirst
    rfl

theorem time_sample {earlier : List Call} {address : IpAddr} {port : UInt16}
    {uniqueId : Bytes Ntp.uniqueIdLength} {nonce : Bytes Ntp.nonceLength} {t : Int64}
    (huniqueId : ipv6Network.uniqueId = .ok uniqueId)
    (h : TimeAnswer ipv6Network earlier sampleEstablished address port uniqueId nonce t) :
    t = 1800000000 := by
  obtain ⟨_, request, received, -, -, hreceived, hparse⟩ := h.exchanged
  cases huniqueId
  cases hreceived
  have hsample : Ntp.parseResponse Ntp.sampleSiv (Ntp.samplePacket.take datagramSize)
      (List.replicate 32 9) (List.replicate 32 3) = .ok 1800000000 := by
    decide +kernel
  cases hsample.symm.trans hparse
  rfl

/-- What the sample host's exchange comes to. -/
theorem exchange_sample :
    ∃ n, (n = 1 ∨ n = 2) ∧ exchange aroundPki ipv6Network sampleResolver sampleServer
      = .obtained 1800000000 (List.replicate n sampleLeg ++ [sampleKey]) := by
  rcases exchange_cases aroundPki ipv6Network sampleResolver sampleServer with
    ⟨t, pending, hx, ev, -, hbacks⟩ | ⟨message, -, hfailure⟩
  · obtain ⟨calls, -, hkey⟩ := hbacks.agreement
    obtain ⟨-, hestablished⟩ := keyAgreement_sample hkey
    obtain ⟨_, -, hanswer⟩ := hbacks.answered
    have hlegs : ev.legs.map (·.1) = List.replicate ev.legs.length sampleLeg := by
      rw [List.map_eq_replicate_iff]
      intro leg hleg
      obtain ⟨_, _, -, _, _, -, -, hleg⟩ := hbacks.resolved.answers leg hleg
      exact leg_sample hleg
    have hpositive := List.length_pos_iff.mpr hbacks.resolved.ne_nil
    have hredirect : ev.redirectLegs = [] := by
      refine (hbacks.targeted.direct ?_).2
      rw [hestablished]
      rfl
    rw [hestablished] at hanswer
    refine ⟨ev.legs.length, by have := hbacks.resolved.length_le; omega, ?_⟩
    rw [hx, hbacks.pending_eq, time_sample hbacks.drawn.2.1 hanswer, hlegs, key_sample hkey,
      hredirect, List.map_nil]
  · exact absurd hfailure singleStack_sample.not_failure

/-- One resolver and one server. -/
def pairOptions : Options where
  resolvers := [sampleResolver]
  servers := [sampleServer]
  sample := 1

theorem clock_set_authentically_ipv6 :
    let nets : Nat → Network Nat String := fun _ => ipv6Network
    .setClock 1800000000 ∈ (run pairOptions 7 (networkHost pairOptions 7 (.ok aroundPki) nets 0
        fun _ => .ok ())).1 ∧
      ∃ ev, Authentic aroundPki ipv6Network sampleResolver sampleServer 0 1800000000 ev := by
  intro nets
  have hchosen : choose pairOptions 7 = .ok [(sampleResolver, sampleServer)] := by
    decide +kernel
  obtain ⟨n, hn, hexchange⟩ := exchange_sample
  have hhost : networkHost pairOptions 7 (.ok aroundPki) nets 0 (fun _ => .ok ()) =
      { trustStore := .ok aroundPki
        exchange := fun i => if i = 0 then .obtained 1800000000
          (List.replicate n sampleLeg ++ [sampleKey]) else .failed "no such pair"
        wallClock := 0
        clockSettime := fun _ => .ok () } := by
    rw [networkHost, hchosen]
    congr 1
    funext i
    cases i with
    | zero => exact hexchange
    | succ i => rfl
  have hset : .setClock 1800000000 ∈ (run pairOptions 7 (networkHost pairOptions 7
      (.ok aroundPki) nets 0 fun _ => .ok ())).1 := by
    rw [hhost]
    rcases hn with rfl | rfl <;> decide +kernel
  obtain ⟨pki, pairs, hpki, hpairs, -, i, resolver, server, ev, hpair, hauthentic⟩ :=
    clock_set_authentically hset
  cases hpki
  cases hchosen.symm.trans hpairs
  obtain ⟨rfl, rfl⟩ : resolver = sampleResolver ∧ server = sampleServer := by
    simpa using List.mem_of_getElem? hpair
  exact ⟨hset, ev, hauthentic⟩

end HostServices.TimeCorrection
