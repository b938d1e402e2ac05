import HostServices.Lib.Utf8
import HostServices.Lib.IpText
import HostServices.TimeCorrection.Exchange
import HostServices.TimeCorrection.FirstPass
import HostServices.TimeCorrection.Query

/-!
# The legs of an exchange (`time-correction/src/doh.rs`, `timeserver.rs`)

One DNS lookup over HTTPS, one key establishment, one authenticated question for the time.
Each of them is a request and what the program makes of the reply; the replies, and what
the TLS, HTTP and AES-SIV libraries say, are the `Network`.

- `Call`, `Network`: the requests, and everything they are answered with;
- `dohResolve`, `establish`, `askTime`, `ntpTarget`: the source's functions;
- `DohAnswer`, `KeyAgreement`, `TimeAnswer`: what an answer of each leg rests on.
-/

namespace HostServices.TimeCorrection

open HostServices.Lib

/-- Exactly `n` bytes. -/
abbrev Bytes (n : Nat) := { bytes : List UInt8 // bytes.length = n }

/-! ## The outside -/

/-- One request of an exchange: a question to a resolver, a key establishment, a question
for the time. -/
inductive Call
  | lookup (host : String) (address : IpAddr) (name : String) (qtype id : UInt16)
  | keys (host : String) (address : IpAddr)
  | time (address : IpAddr) (port : UInt16)
  deriving DecidableEq, Repr

/-- An HTTP response, and the certificates of the connection it came over. -/
structure HttpReply (Cert : Type) where
  leaf : Cert
  intermediates : List Cert
  status : Nat
  /-- the status as it is displayed -/
  statusText : String
  body : Except String (List UInt8)

/-- A TCP connection for key establishment: the certificates of the TLS session on it, how
its steps go, and what is read from it. -/
structure KeySession (Cert : Type) where
  leaf : Cert
  intermediates : List Cert
  timeouts : Except String Unit
  written : Except String Unit
  alpn : Option (List UInt8)
  reads : List Nts.Read
  /-- the key of 32 bytes that is exported for a label and a context -/
  exporter : List UInt8 → List UInt8 → Except String (Bytes 32)

/-- A UDP socket: how its steps go, and the datagram that is received. -/
structure Datagram where
  bound : Except String Unit
  timeout : Except String Unit
  connected : Except String Unit
  sent : Except String Unit
  received : Except String (List UInt8)

/-- Everything that is asked of the outside. A reply may depend on all calls made so far, the
last of which is the one that is answered. -/
structure Network (Cert Name : Type) where
  /-- `ServerName::try_from` -/
  serverName : String → Option Name
  tlsVersions : Except String Unit
  httpClient : Except String Unit
  tlsSession : Except String Unit
  /-- what the TLS library makes of the verifier's error -/
  refusal : String → String
  post : List Call → List UInt8 → Except String (HttpReply Cert)
  connect : List Call → List UInt8 → Except String (KeySession Cert)
  datagram : List Call → List UInt8 → Datagram
  encrypt : List UInt8 → List UInt8 → List UInt8 → List UInt8 → Option (List UInt8)
  siv : List UInt8 → List UInt8 → List UInt8 → List UInt8 → Bool
  /-- the draws from `/dev/urandom` -/
  queryId : Except String UInt16
  uniqueId : Except String (Bytes Ntp.uniqueIdLength)
  nonce : Except String (Bytes Ntp.nonceLength)

variable {Cert Name : Type}

/-- `map_err(|e| format!("{label}{e}"))`. -/
def labelled {α : Type} (label : String) : Except String α → Except String α :=
  Except.mapError (label ++ ·)

/-! ## A lookup -/

/-- `doh::resolve` up to the body of the response, with the chain that the handshake
recorded. -/
def fetch (pki : Pki Cert Name) (net : Network Cert Name) (earlier : List Call) (host : String)
    (address : IpAddr) (name : String) (qtype id : UInt16) :
    Except String (Pending Cert Name × List UInt8) :=
  match net.serverName host with
  | none => .error s!"{host} is not a valid server name"
  | some serverName => do
    labelled "cannot select TLS versions: " net.tlsVersions
    labelled "cannot build an HTTP client: " net.httpClient
    let query ← Dns.encodeQuery id name qtype
    let failed := s!"DoH request to {address.display} failed: "
    let calls := earlier ++ [.lookup host address name qtype id]
    let reply ← labelled failed (net.post calls query)
    let seen := firstPass pki reply.leaf reply.intermediates serverName
    let chain ← labelled failed (Except.mapError net.refusal seen)
    if reply.status / 100 ≠ 2 then .error s!"DoH resolver answered {reply.statusText}"
    else do
      let body ← labelled "cannot read the DoH response: " reply.body
      .ok ({ leg := s!"DoH {host}", chain, serverName }, body)

/-- `doh::resolve`: the addresses, and the chain to record with them. -/
def dohResolve (pki : Pki Cert Name) (net : Network Cert Name) (earlier : List Call)
    (host : String) (address : IpAddr) (name : String) (qtype id : UInt16) :
    Except Stop (Pending Cert Name × List IpAddr) := do
  let (pending, body) ← Except.mapError .err (fetch pki net earlier host address name qtype id)
  let addresses ← Dns.parseResponse body id qtype
  .ok (pending, addresses)

/-! ## Key establishment -/

namespace Nts

/-- `ntske/1`. -/
def alpn : List UInt8 := utf8Bytes "ntske/1"

/-- `EXPORTER_LABEL` -/
def exporterLabel : List UInt8 := utf8Bytes "EXPORTER-network-time-security"

/-- The five-byte exporter context for one direction. -/
def exporterContext (aead : UInt16) (clientToServer : Bool) : List UInt8 :=
  u16Bytes nextProtocolNtpv4 ++ u16Bytes aead ++ [if clientToServer then 0 else 1]

/-- The client's request: NTPv4, this algorithm, and nothing else. -/
def request (aead : UInt16) : List UInt8 :=
  [((1 : UInt16), nextProtocolNtpv4), (4, aead)].flatMap (fun (record, body) =>
    u16Bytes (record ||| critical) ++ u16Bytes 2 ++ u16Bytes body) ++
    (u16Bytes (recordEndOfMessage ||| critical) ++ u16Bytes 0)

end Nts

/-- `Established`: what was agreed on, and the key of each direction. -/
structure Established where
  agreement : Nts.Agreement
  c2s : Bytes 32
  s2c : Bytes 32
  deriving Repr

def ntsKePort : UInt16 := 4460
def defaultNtpPort : UInt16 := 123

/-- `{:?}` of the protocol that was negotiated. -/
def debugAlpn : Option (List UInt8) → String
  | none => "None"
  | some protocol => s!"Some({debugStr (fromUtf8Lossy protocol)})"

/-- Do NTS-KE against `address`, presenting `host`. -/
def establish (pki : Pki Cert Name) (net : Network Cert Name) (earlier : List Call)
    (host : String) (address : IpAddr) : Except String (Pending Cert Name × Established) :=
  match net.serverName host with
  | none => .error s!"{host} is not a valid server name"
  | some serverName => do
    labelled "cannot select TLS versions: " net.tlsVersions
    labelled s!"cannot start a TLS session with {host}: " net.tlsSession
    let calls := earlier ++ [.keys host address]
    let session ← labelled s!"cannot connect to {address.display}:{ntsKePort}: "
      (net.connect calls (Nts.request Nts.aeadAesSivCmac256))
    labelled s!"cannot set timeouts on {address.display}: " session.timeouts
    -- the handshake is driven by the first write
    let unsent := s!"cannot send the NTS-KE request to {address.display}: "
    let seen := firstPass pki session.leaf session.intermediates serverName
    let chain ← labelled unsent (Except.mapError net.refusal seen)
    labelled unsent session.written
    if session.alpn ≠ some Nts.alpn then
      .error s!"{host} negotiated ALPN {debugAlpn session.alpn}, not ntske/1"
    else do
      let agreement ← Nts.readAgreement address.display session.reads
      let key (clientToServer : Bool) : Except String (Bytes 32) :=
        labelled s!"cannot export NTS keys from the {host} session: "
          (session.exporter Nts.exporterLabel
            (Nts.exporterContext agreement.aead clientToServer))
      let c2s ← key true
      let s2c ← key false
      .ok ({ leg := s!"NTS-KE {host}", chain, serverName }, { agreement, c2s, s2c })

/-! ## The question for the time -/

/-- The buffer a datagram is received into. -/
def datagramSize : Nat := 1024

/-- Ask the (possibly redirected) time server for the time. -/
def askTime (net : Network Cert Name) (earlier : List Call) (e : Established)
    (address : IpAddr) (port : UInt16) (uniqueId : Bytes Ntp.uniqueIdLength)
    (nonce : Bytes Ntp.nonceLength) : Except String Int64 :=
  match e.agreement.cookies with
  | [] => .error "no cookie to spend"
  | cookie :: _ => do
    let request ← Ntp.buildRequest net.encrypt cookie e.c2s.val uniqueId.val nonce.val
    let socket := net.datagram (earlier ++ [.time address port]) request.packet
    labelled "cannot open a UDP socket: " socket.bound
    labelled "cannot set a UDP timeout: " socket.timeout
    labelled s!"cannot reach {address.display}:{port}: " socket.connected
    labelled s!"cannot send an NTP request to {address.display}: " socket.sent
    let received ← labelled s!"no NTP response from {address.display}:{port}: " socket.received
    Ntp.parseResponse net.siv (received.take datagramSize) e.s2c.val request.uniqueId

/-- Where the NTP exchange should go: a name that has to be resolved first, if there is one,
an address and a port. -/
def ntpTarget (e : Established) (fallback : IpAddr) : Option String × IpAddr × UInt16 :=
  let port := e.agreement.port.getD defaultNtpPort
  match e.agreement.server with
  | none => (none, fallback, port)
  | some server =>
    match parseIpAddr server with
    | some address => (none, address, port)
    | none => (some server, fallback, port)

/-! ## What an answer rests on -/

theorem labelled_eq_ok {α : Type} {label : String} {x : Except String α} {a : α} :
    labelled label x = .ok a ↔ x = .ok a := mapError_eq_ok

namespace Dns

variable {message : List UInt8} {id qtype : UInt16}

/-- An accepted response has the id that was asked with, and gives at least one address, of
the family that was asked for. -/
theorem parseResponse_ok (hq : qtype = typeA ∨ qtype = typeAaaa) {found : List IpAddr}
    (h : parseResponse message id qtype = .ok found) :
    u16At message 0 = id ∧ found ≠ [] ∧ ∀ a ∈ found, recordType a = qtype := by
  obtain ⟨resources, -, hid, -, -, -, -, hasked, rfl⟩ := (parseResponse_eq_ok hq).mp h
  refine ⟨hid, addresses_ne_nil.mpr hasked, fun a ha => ?_⟩
  obtain ⟨r, -, rfl⟩ := List.mem_map.mp ha
  rw [address]
  split_ifs with hA
  · exact hA.symm
  · exact (hq.resolve_left hA).symm

end Dns

/-- An accepted lookup: the resolver's certificates passed the first pass under the host's
name, and the response to the encoded question carries the addresses. -/
structure DohAnswer (pki : Pki Cert Name) (net : Network Cert Name) (earlier : List Call)
    (host : String) (address : IpAddr) (name : String) (qtype id : UInt16)
    (p : Pending Cert Name) (addresses : List IpAddr) : Prop where
  leg : p.leg = s!"DoH {host}"
  named : net.serverName host = some p.serverName
  answered : ∃ query reply body, Dns.encodeQuery id name qtype = .ok query ∧
    net.post (earlier ++ [.lookup host address name qtype id]) query = .ok reply ∧
    firstPass pki reply.leaf reply.intermediates p.serverName = .ok p.chain ∧
    reply.status / 100 = 2 ∧ reply.body = .ok body ∧
    Dns.parseResponse body id qtype = .ok addresses

/-- What an accepted lookup is backed by. -/
theorem dohResolve_ok {pki : Pki Cert Name} {net : Network Cert Name} {earlier : List Call}
    {host : String} {address : IpAddr} {name : String} {qtype id : UInt16}
    {p : Pending Cert Name} {addresses : List IpAddr}
    (h : dohResolve pki net earlier host address name qtype id = .ok (p, addresses)) :
    DohAnswer pki net earlier host address name qtype id p addresses := by
  obtain ⟨⟨pending, body⟩, hfetch, h⟩ := bind_eq_ok.mp h
  obtain ⟨found, hparse, h⟩ := bind_eq_ok.mp h
  cases h
  have hfetch := mapError_eq_ok.mp hfetch
  rw [fetch] at hfetch
  split at hfetch
  · cases hfetch
  · rename_i serverName hname
    obtain ⟨-, -, hfetch⟩ := bind_eq_ok.mp hfetch
    obtain ⟨-, -, hfetch⟩ := bind_eq_ok.mp hfetch
    obtain ⟨query, hquery, hfetch⟩ := bind_eq_ok.mp hfetch
    obtain ⟨reply, hreply, hfetch⟩ := bind_eq_ok.mp hfetch
    obtain ⟨chain, hchain, hfetch⟩ := bind_eq_ok.mp hfetch
    split_ifs at hfetch with hstatus
    obtain ⟨body', hbody, hfetch⟩ := bind_eq_ok.mp hfetch
    cases hfetch
    exact ⟨rfl, hname, query, reply, body, hquery, labelled_eq_ok.mp hreply,
      mapError_eq_ok.mp (labelled_eq_ok.mp hchain), not_not.mp hstatus,
      labelled_eq_ok.mp hbody, hparse⟩

theorem DohAnswer.ne_nil {pki : Pki Cert Name} {net : Network Cert Name} {earlier : List Call}
    {host : String} {address : IpAddr} {name : String} {qtype id : UInt16}
    {p : Pending Cert Name} {addresses : List IpAddr}
    (h : DohAnswer pki net earlier host address name qtype id p addresses)
    (hq : qtype = Dns.typeA ∨ qtype = Dns.typeAaaa) :
    addresses ≠ [] ∧ ∀ a ∈ addresses, Dns.recordType a = qtype := by
  obtain ⟨_, _, _, -, -, -, -, -, hparse⟩ := h.answered
  exact (Dns.parseResponse_ok hq hparse).2

theorem noPanic_dohResolve (pki : Pki Cert Name) (net : Network Cert Name) (earlier : List Call)
    (host : String) (address : IpAddr) (name : String) {qtype : UInt16} (id : UInt16)
    (hq : qtype = Dns.typeA ∨ qtype = Dns.typeAaaa) :
    NoPanic (dohResolve pki net earlier host address name qtype id) := by
  have hfetch : NoPanic (Except.mapError Stop.err
      (fetch pki net earlier host address name qtype id)) := by
    cases fetch pki net earlier host address name qtype id with
    | error e => exact .err e
    | ok fetched => exact .ok fetched
  refine hfetch.bind fun fetched _ => ?_
  exact (Dns.noPanic_parseResponse hq).bind fun addresses _ => .ok _

/-- An accepted key establishment: the server's certificates passed the first pass under
its name, it negotiated the protocol, it answered with this agreement, and both keys are
exports of the session under the label and the context of the agreed algorithm. -/
structure KeyAgreement (pki : Pki Cert Name) (net : Network Cert Name) (earlier : List Call)
    (host : String) (address : IpAddr) (p : Pending Cert Name) (e : Established) : Prop where
  leg : p.leg = s!"NTS-KE {host}"
  named : net.serverName host = some p.serverName
  session : ∃ session,
    net.connect (earlier ++ [.keys host address]) (Nts.request Nts.aeadAesSivCmac256)
      = .ok session ∧
    firstPass pki session.leaf session.intermediates p.serverName = .ok p.chain ∧
    session.alpn = some Nts.alpn ∧
    Nts.readAgreement address.display session.reads = .ok e.agreement ∧
    session.exporter Nts.exporterLabel (Nts.exporterContext e.agreement.aead true)
      = .ok e.c2s ∧
    session.exporter Nts.exporterLabel (Nts.exporterContext e.agreement.aead false)
      = .ok e.s2c

/-- What established keys are backed by. -/
theorem establish_ok {pki : Pki Cert Name} {net : Network Cert Name} {earlier : List Call}
    {host : String} {address : IpAddr} {p : Pending Cert Name} {e : Established}
    (h : establish pki net earlier host address = .ok (p, e)) :
    KeyAgreement pki net earlier host address p e := by
  rw [establish] at h
  split at h
  · cases h
  · rename_i serverName hname
    obtain ⟨-, -, h⟩ := bind_eq_ok.mp h
    obtain ⟨-, -, h⟩ := bind_eq_ok.mp h
    obtain ⟨session, hsession, h⟩ := bind_eq_ok.mp h
    obtain ⟨-, -, h⟩ := bind_eq_ok.mp h
    obtain ⟨chain, hchain, h⟩ := bind_eq_ok.mp h
    obtain ⟨-, -, h⟩ := bind_eq_ok.mp h
    split_ifs at h with halpn
    obtain ⟨agreement, hagreement, h⟩ := bind_eq_ok.mp h
    obtain ⟨c2s, hc2s, h⟩ := bind_eq_ok.mp h
    obtain ⟨s2c, hs2c, h⟩ := bind_eq_ok.mp h
    cases h
    exact ⟨rfl, hname, session, labelled_eq_ok.mp hsession,
      mapError_eq_ok.mp (labelled_eq_ok.mp hchain), not_not.mp halpn, hagreement,
      labelled_eq_ok.mp hc2s, labelled_eq_ok.mp hs2c⟩

/-- An accepted time: a cookie of the agreement was spent in a request under the key for
this direction, and the datagram that came back is an answer to it under the other. -/
structure TimeAnswer (net : Network Cert Name) (earlier : List Call) (e : Established)
    (address : IpAddr) (port : UInt16) (uniqueId : Bytes Ntp.uniqueIdLength)
    (nonce : Bytes Ntp.nonceLength) (t : Int64) : Prop where
  exchanged : ∃ cookie request received, e.agreement.cookies.head? = some cookie ∧
    Ntp.buildRequest net.encrypt cookie e.c2s.val uniqueId.val nonce.val = .ok request ∧
    (net.datagram (earlier ++ [.time address port]) request.packet).received = .ok received ∧
    Ntp.parseResponse net.siv (received.take datagramSize) e.s2c.val uniqueId.val = .ok t

/-- The identifier that is expected back is the one that was drawn. -/
theorem uniqueId_buildRequest
    {encrypt : List UInt8 → List UInt8 → List UInt8 → List UInt8 → Option (List UInt8)}
    {cookie c2s uniqueId nonce : List UInt8} {request : Ntp.Request}
    (h : Ntp.buildRequest encrypt cookie c2s uniqueId nonce = .ok request) :
    request.uniqueId = uniqueId := by
  rw [Ntp.buildRequest] at h
  split_ifs at h
  split at h
  · cases h
  · cases h
    rfl

/-- What a time that was told is backed by. -/
theorem askTime_ok {net : Network Cert Name} {earlier : List Call} {e : Established}
    {address : IpAddr} {port : UInt16} {uniqueId : Bytes Ntp.uniqueIdLength}
    {nonce : Bytes Ntp.nonceLength} {t : Int64}
    (h : askTime net earlier e address port uniqueId nonce = .ok t) :
    TimeAnswer net earlier e address port uniqueId nonce t := by
  rw [askTime] at h
  split at h
  · cases h
  · rename_i cookie cookies hcookies
    obtain ⟨request, hrequest, h⟩ := bind_eq_ok.mp h
    obtain ⟨-, -, h⟩ := bind_eq_ok.mp h
    obtain ⟨-, -, h⟩ := bind_eq_ok.mp h
    obtain ⟨-, -, h⟩ := bind_eq_ok.mp h
    obtain ⟨-, -, h⟩ := bind_eq_ok.mp h
    obtain ⟨received, hreceived, h⟩ := bind_eq_ok.mp h
    rw [uniqueId_buildRequest hrequest] at h
    exact ⟨cookie, request, received, by rw [hcookies]; rfl, hrequest,
      labelled_eq_ok.mp hreceived, h⟩

end HostServices.TimeCorrection
