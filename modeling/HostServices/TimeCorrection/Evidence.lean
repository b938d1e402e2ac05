import HostServices.TimeCorrection.AskPair

/-!
# What an exchange rests on (`ask_pair` of `time-correction/src/main.rs`)

Whatever the network answers, an exchange either has all of the evidence for the time it
obtained, in the order in which the chains were recorded, or one of five reasons for having
none; and the calls it makes are those of an exchange.

- `Evidence`, `Failure`, `Course`: the evidence, the reasons, and the calls;
- `gather_spec`: the steps put together;
- `exchange_accounted`, `calls_disciplined`: what follows for every exchange;
- `SingleStack`, `single_stack_obtains`: one reachable family is enough.
-/

namespace HostServices.TimeCorrection

open HostServices.Lib

variable {Cert Name : Type}

/-! ## The whole exchange -/

/-- An answer stays one while more calls are made. -/
theorem FamilyAnswer.mono {pki : Pki Cert Name} {net : Network Cert Name} {resolver : Resolver}
    {name : String} {id : UInt16} {made made' : List Call}
    {leg : Pending Cert Name × List IpAddr}
    (h : FamilyAnswer pki net resolver name id made leg) (hmore : made <+: made') :
    FamilyAnswer pki net resolver name id made' leg := by
  obtain ⟨earlier, a, ha, qtype, id', hcalls, hid, hanswer⟩ := h
  exact ⟨earlier, a, ha, qtype, id', hcalls.trans hmore, hid, hanswer⟩

/-- What an exchange came upon on the way to a time: the answers of the resolver for the
server and for the target of a redirect, the address and the session of key establishment,
and where the time was asked for. -/
structure Evidence (Cert Name : Type) where
  id : UInt16
  uniqueId : Bytes Ntp.uniqueIdLength
  nonce : Bytes Ntp.nonceLength
  legs : List (Pending Cert Name × List IpAddr)
  keyAddress : IpAddr
  established : Established
  key : Pending Cert Name
  redirectLegs : List (Pending Cert Name × List IpAddr)
  address : IpAddr
  calls : List Call

/-- The legs are answers to the lookup of the name with this id, one for each family at
most. -/
structure LegsOf (pki : Pki Cert Name) (net : Network Cert Name) (resolver : Resolver)
    (name : String) (id : UInt16) (made : List Call)
    (legs : List (Pending Cert Name × List IpAddr)) : Prop where
  ne_nil : legs ≠ []
  length_le : legs.length ≤ 2
  answers : ∀ leg ∈ legs, FamilyAnswer pki net resolver name id made leg
  families : FamiliesAsked pki net resolver name id made legs

/-- Where the time is asked for once keys are established: the target as it stands, or one of
the addresses the name behind a redirect was resolved to, of the family of the key server's
address if there is one. -/
structure Targeted (pki : Pki Cert Name) (net : Network Cert Name) (resolver : Resolver)
    (id : UInt16) (made : List Call) (established : Established)
    (keyAddress address : IpAddr) (legs : List (Pending Cert Name × List IpAddr)) : Prop where
  direct : (ntpTarget established keyAddress).1 = none →
    address = (ntpTarget established keyAddress).2.1 ∧ legs = []
  redirected : ∀ name, (ntpTarget established keyAddress).1 = some name →
    LegsOf pki net resolver name (id + 2) made legs ∧ address ∈ legs.flatMap (·.2) ∧
      ((∃ a ∈ legs.flatMap (·.2), a.isIpv4 = keyAddress.isIpv4) →
        address.isIpv4 = keyAddress.isIpv4)

/-- An exchange that obtained `t` with these chains recorded went like this. -/
structure Evidence.Backs (ev : Evidence Cert Name) (pki : Pki Cert Name)
    (net : Network Cert Name) (resolver : Resolver) (server : TimeServer) (t : Int64)
    (pending : List (Pending Cert Name)) : Prop where
  drawn : net.queryId = .ok ev.id ∧ net.uniqueId = .ok ev.uniqueId ∧ net.nonce = .ok ev.nonce
  resolved : LegsOf pki net resolver server.hostname ev.id ev.calls ev.legs
  keyAddress_mem : ev.keyAddress ∈ ev.legs.flatMap (·.2)
  agreement : ∃ earlier, earlier ++ [keysCall server.hostname ev.keyAddress] <+: ev.calls ∧
    KeyAgreement pki net earlier server.hostname ev.keyAddress ev.key ev.established
  targeted : Targeted pki net resolver ev.id ev.calls ev.established ev.keyAddress ev.address
    ev.redirectLegs
  answered : ∃ earlier,
    ev.calls = earlier ++ [.time ev.address (ntpTarget ev.established ev.keyAddress).2.2] ∧
      TimeAnswer net earlier ev.established ev.address
        (ntpTarget ev.established ev.keyAddress).2.2 ev.uniqueId ev.nonce t
  pending_eq : pending = ev.legs.map (·.1) ++ ev.key :: ev.redirectLegs.map (·.1)

/-- The calls of an exchange: the lookups of the server's name at the resolver's addresses,
key establishment with the first of the addresses that were found, the lookups of one other
name, and at most one question for the time, which comes last. -/
def Course (pki : Pki Cert Name) (net : Network Cert Name) (resolver : Resolver)
    (server : TimeServer) (calls : List Call) : Prop :=
  ∃ (id : UInt16) (m n : Nat) (legs : List (Pending Cert Name × List IpAddr)) (k : Nat)
    (second last : List Call),
    calls = lookups resolver server.hostname id m n ++
      (((legs.flatMap (·.2)).take k).map (keysCall server.hostname) ++ (second ++ last)) ∧
    legs.length ≤ 2 ∧
    (∀ leg ∈ legs, FamilyAnswer pki net resolver server.hostname id calls leg) ∧
    (second = [] ∨ ∃ name m' n', second = lookups resolver name (id + 2) m' n') ∧
    (last = [] ∨ ∃ address port, last = [.time address port])

/-- Why an exchange obtained no time: a draw failed, or every address of the resolver refused
both lookups of the server's name, or every address that was found refused to establish keys,
or the name behind a redirect was not resolved, or the time could not be asked for. -/
inductive Failure (pki : Pki Cert Name) (net : Network Cert Name) (resolver : Resolver)
    (server : TimeServer) : Stop → Prop
  | undrawn {e : Stop} : Undrawn net.queryId e → Failure pki net resolver server e
  | unresolved {id : UInt16} {e : Stop} : net.queryId = .ok id →
      AllRefused pki net resolver server.hostname id [] e → Failure pki net resolver server e
  | refused {id : UInt16} {calls : List Call} {legs : List (Pending Cert Name × List IpAddr)}
      {errors : List String} {last : String} :
      net.queryId = .ok id → LegsOf pki net resolver server.hostname id calls legs →
      RefusedKeys pki net server.hostname calls (legs.flatMap (·.2)) errors →
      errors.getLast? = some last → Failure pki net resolver server (.err last)
  | lost {id : UInt16} {calls : List Call} {keyAddress : IpAddr} {key : Pending Cert Name}
      {established : Established} {name : String} {e : Stop} :
      net.queryId = .ok id →
      KeyAgreement pki net calls server.hostname keyAddress key established →
      (ntpTarget established keyAddress).1 = some name →
      AllRefused pki net resolver name (id + 2)
        (calls ++ [keysCall server.hostname keyAddress]) e → Failure pki net resolver server e
  | unasked {id : UInt16} {calls made : List Call} {keyAddress address : IpAddr}
      {key : Pending Cert Name} {established : Established}
      {legs : List (Pending Cert Name × List IpAddr)} {e : Stop} :
      net.queryId = .ok id →
      KeyAgreement pki net calls server.hostname keyAddress key established →
      calls ++ [keysCall server.hostname keyAddress] <+: made →
      Targeted pki net resolver id made established keyAddress address legs →
      Unasked net made established address (ntpTarget established keyAddress).2.2 e →
      Failure pki net resolver server e

section Gather

variable {pki : Pki Cert Name} {net : Network Cert Name} {resolver : Resolver}
  {server : TimeServer}

theorem FamiliesAsked.mono {name : String} {id : UInt16} {made made' : List Call}
    {legs : List (Pending Cert Name × List IpAddr)}
    (h : FamiliesAsked pki net resolver name id made legs) (hmore : made <+: made') :
    FamiliesAsked pki net resolver name id made' legs := by
  intro qtype id' hid
  rcases h qtype id' hid with hanswer | ⟨earlier, errors, hcalls, hrefused⟩
  · exact .inl hanswer
  · exact .inr ⟨earlier, errors, hcalls.trans hmore, hrefused⟩

/-- What was resolved is backed by its lookups. -/
theorem Resolved.legsOf {name : String} {id : UInt16} {s s' : Trail Cert Name}
    {found : List IpAddr} {legs : List (Pending Cert Name × List IpAddr)}
    (h : Resolved pki net resolver name id s found s' legs) {made : List Call}
    (hmade : s'.calls <+: made) : LegsOf pki net resolver name id made legs := by
  refine ⟨?_, h.legs_length, fun leg hleg => (h.answers leg hleg).mono hmade,
    h.families.mono hmade⟩
  rintro rfl
  exact h.found_ne_nil h.found_eq

/-- An exchange that ends before anything was resolved. -/
theorem Course.of_lookups (id : UInt16) (m n : Nat) :
    Course pki net resolver server (lookups resolver server.hostname id m n) :=
  ⟨id, m, n, [], 0, [], [], by simp, Nat.zero_le 2, List.forall_mem_nil _, .inl rfl, .inl rfl⟩

/-- The first two stages, as far as they went, and what came behind them. -/
theorem Course.of_keys {id : UInt16} {s₁ : Trail Cert Name} {found : List IpAddr}
    {legs : List (Pending Cert Name × List IpAddr)}
    (h : Resolved pki net resolver server.hostname id {} found s₁ legs) (k : Nat)
    {second last : List Call}
    (hsecond : second = [] ∨ ∃ name m n, second = lookups resolver name (id + 2) m n)
    (hlast : last = [] ∨ ∃ address port, last = [.time address port]) :
    Course pki net resolver server (s₁.calls ++
      ((found.take k).map (keysCall server.hostname) ++ (second ++ last))) := by
  obtain ⟨m, n, hcalls⟩ := h.calls
  refine ⟨id, m, n, legs, k, second, last, ?_, h.legs_length, ?_, hsecond, hlast⟩
  · rw [hcalls, h.found_eq]
    rfl
  · exact fun leg hleg => (h.answers leg hleg).mono (List.prefix_append _ _)

theorem TargetFound.calls {keyAddress fallback address : IpAddr} {id : UInt16}
    {s s' : Trail Cert Name} {legs : List (Pending Cert Name × List IpAddr)}
    {redirect : Option String}
    (h : TargetFound pki net resolver keyAddress fallback id s address s' legs redirect) :
    ∃ second, s'.calls = s.calls ++ second ∧
      (second = [] ∨ ∃ name m n, second = lookups resolver name (id + 2) m n) := by
  cases redirect with
  | none =>
    obtain ⟨-, rfl, -⟩ := h
    exact ⟨[], (List.append_nil _).symm, .inl rfl⟩
  | some name =>
    obtain ⟨_, hresolved, -⟩ := h
    obtain ⟨m, n, hcalls⟩ := hresolved.calls
    exact ⟨_, hcalls, .inr ⟨name, m, n, rfl⟩⟩

/-- The chains recorded on the way are those of the lookups. -/
theorem TargetFound.pending_eq {keyAddress fallback address : IpAddr} {id : UInt16}
    {s s' : Trail Cert Name} {legs : List (Pending Cert Name × List IpAddr)}
    {redirect : Option String}
    (h : TargetFound pki net resolver keyAddress fallback id s address s' legs redirect) :
    s'.pending = s.pending ++ legs.map (·.1) := by
  cases redirect with
  | none =>
    obtain ⟨-, rfl, rfl⟩ := h
    exact (List.append_nil _).symm
  | some name =>
    obtain ⟨_, hresolved, -⟩ := h
    exact hresolved.pending_eq

/-- The error is that of the last address. -/
theorem KeysRefused.getLast? {host last : String} {found : List IpAddr}
    {s s' : Trail Cert Name} {e : Stop} (hfound : found ≠ [])
    (h : KeysRefused pki net host last found s e s') :
    ∃ errors message, RefusedKeys pki net host s.calls found errors ∧
      errors.getLast? = some message ∧ e = .err message := by
  obtain ⟨errors, hrefused, he⟩ := h.refused
  cases errors with
  | nil =>
    cases hrefused
    exact absurd rfl hfound
  | cons error errors =>
    exact ⟨_, _, hrefused, List.getLast?_eq_some_getLast (List.cons_ne_nil _ _), by
      rw [he, List.getLastD_eq_getLast?, List.getLast?_eq_some_getLast (List.cons_ne_nil _ _)]
      rfl⟩

/-- The address that is asked for the time is that of the keys, or of a redirect. -/
theorem TargetFound.targeted {keyAddress address : IpAddr} {established : Established}
    {id : UInt16} {s s' : Trail Cert Name} {legs : List (Pending Cert Name × List IpAddr)}
    (h : TargetFound pki net resolver keyAddress (ntpTarget established keyAddress).2.1 id s
      address s' legs (ntpTarget established keyAddress).1) {made : List Call}
    (hmade : s'.calls <+: made) :
    Targeted pki net resolver id made established keyAddress address legs := by
  constructor
  · intro hnone
    rw [hnone] at h
    exact ⟨h.1, h.2.2⟩
  · intro name hname
    rw [hname] at h
    obtain ⟨candidates, hresolved, hmem, hfamily⟩ := h
    rw [hresolved.found_eq] at hmem hfamily
    exact ⟨hresolved.legsOf hmade, hmem, hfamily⟩

/-- **What an exchange did**: it obtained a time with all the evidence there is for it, or it
failed for one of the reasons there are; whichever it was, the calls are those of an exchange.
No leg of it panics. -/
theorem gather_spec :
    Triple (· = {}) (gather pki net resolver server)
      (fun t s => (∃ ev : Evidence Cert Name, ev.calls = s.calls ∧
          ev.Backs pki net resolver server t s.pending) ∧
        Course pki net resolver server s.calls)
      (fun e s => Failure pki net resolver server e ∧
        Course pki net resolver server s.calls) := by
  have hnothing : Course pki net resolver server [] := by
    have h : Course pki net resolver server (lookups resolver server.hostname 0 0 0) :=
      Course.of_lookups 0 0 0
    rwa [lookups, List.take_zero, List.map_nil, List.map_nil] at h
  refine Triple.bind ((drawn_spec {} net.queryId).weaken (fun _ h => h) (fun _ _ h => h) ?_)
    fun id => ?_
  · rintro e _ ⟨he, rfl⟩
    exact ⟨.undrawn he, hnothing⟩
  rintro _ ⟨hid, rfl⟩
  refine Triple.bind ((resolve_spec {}).weaken (fun _ h => h) (fun _ _ h => h) ?_)
    (fun found => ?_) _ rfl
  · rintro e s hun
    refine ⟨.unresolved hid hun.refused, ?_⟩
    rw [hun.calls_eq]
    exact Course.of_lookups id _ _
  rintro s₁ ⟨legs, hlegs⟩
  refine Triple.bind ((establishAny_spec _ found s₁).weaken (fun _ h => h) (fun _ _ h => h) ?_)
    (fun result => ?_) _ rfl
  · rintro e s hrefused
    constructor
    · obtain ⟨errors, last, herrors, hlast, rfl⟩ := hrefused.getLast? hlegs.found_ne_nil
      exact .refused hid (hlegs.legsOf List.prefix_rfl) (hlegs.found_eq ▸ herrors) hlast
    · have h := Course.of_keys hlegs found.length (.inl rfl) (.inl rfl)
      rw [List.take_length, List.append_nil, List.append_nil] at h
      exact hrefused.calls_eq ▸ h
  rintro s₂ ⟨key, hkey⟩
  obtain ⟨k, hk⟩ := hkey.calls
  obtain ⟨earlier, hearlier, hagreement⟩ := hkey.agreement
  refine Triple.bind ((timeAddress_spec result.1 (ntpTarget result.2 result.1).2.1 id
    (ntpTarget result.2 result.1).1 s₂).weaken (fun _ h => h) (fun _ _ h => h) ?_)
    (fun address => ?_) _ rfl
  · rintro e s ⟨name, hname, hun⟩
    refine ⟨.lost hid hagreement hname (hearlier ▸ hun.refused), ?_⟩
    let all := resolver.addresses.length
    have h := Course.of_keys hlegs k (.inr ⟨name, all, all, rfl⟩) (.inl rfl)
    rw [hun.calls_eq, hk, List.append_assoc]
    rwa [List.append_nil] at h
  rintro s₃ ⟨redirectLegs, htarget⟩
  obtain ⟨second, hsecond, hlookups⟩ := htarget.calls
  let port := (ntpTarget result.2 result.1).2.2
  have hasked : s₃.calls ++ [.time address port] = s₁.calls ++
      ((found.take k).map (keysCall server.hostname) ++
        (second ++ [.time address port])) := by
    rw [hsecond, hk]
    simp only [List.append_assoc]
  have hcourse : Course pki net resolver server (s₃.calls ++ [.time address port]) := by
    rw [hasked]
    exact Course.of_keys hlegs k hlookups (.inr ⟨address, port, rfl⟩)
  have hkeys : earlier ++ [keysCall server.hostname result.1] <+: s₃.calls := by
    rw [hearlier, hsecond]
    exact List.prefix_append _ _
  refine (askFor_spec result.2 address port s₃).weaken (fun _ h => h) ?_ ?_ _ rfl
  · rintro t s ⟨rfl, uniqueId, nonce, huniqueId, hnonce, hanswer⟩
    refine ⟨⟨⟨id, uniqueId, nonce, legs, result.1, result.2, key, redirectLegs, address,
      s₃.calls ++ [.time address port]⟩, rfl, ?_⟩, hcourse⟩
    have hlater₁ : s₁.calls <+: s₃.calls ++ [.time address port] := by
      rw [hasked]
      exact List.prefix_append _ _
    refine ⟨⟨hid, huniqueId, hnonce⟩, hlegs.legsOf hlater₁, hlegs.found_eq ▸ hkey.mem,
      ⟨earlier, hkeys.trans (List.prefix_append _ _), hagreement⟩,
      htarget.targeted (List.prefix_append _ _),
      ⟨s₃.calls, rfl, hanswer⟩, ?_⟩
    show s₃.pending = _
    rw [htarget.pending_eq, hkey.pending_eq, hlegs.pending_eq]
    simp only [List.nil_append, List.append_assoc, List.cons_append]
  · rintro e s ⟨he, rfl | rfl⟩
    · refine ⟨.unasked hid hagreement hkeys (htarget.targeted List.prefix_rfl) he, ?_⟩
      rw [hsecond, hk, List.append_assoc]
      have h := Course.of_keys hlegs k hlookups (.inl rfl)
      rwa [List.append_nil] at h
    · exact ⟨.unasked hid hagreement hkeys (htarget.targeted List.prefix_rfl) he, hcourse⟩

end Gather

/-! ## Every exchange -/

theorem AllRefused.returned {pki : Pki Cert Name} {net : Network Cert Name}
    {resolver : Resolver} {name : String} {id : UInt16} {earlier : List Call} {e : Stop}
    (h : AllRefused pki net resolver name id earlier e) : ∃ message, e = .err message := by
  obtain ⟨_, _, -, -, rfl⟩ := h
  exact ⟨_, rfl⟩

theorem Undrawn.returned {α : Type} {x : Except String α} {e : Stop} (h : Undrawn x e) :
    ∃ message, e = .err message := by
  obtain ⟨_, -, rfl⟩ := h
  exact ⟨_, rfl⟩

/-- Every failure is an error that is returned. -/
theorem Failure.returned {pki : Pki Cert Name} {net : Network Cert Name} {resolver : Resolver}
    {server : TimeServer} {e : Stop} (h : Failure pki net resolver server e) :
    ∃ message, e = .err message := by
  cases h with
  | undrawn h => exact h.returned
  | unresolved _ h => exact h.returned
  | refused => exact ⟨_, rfl⟩
  | lost _ _ _ h => exact h.returned
  | unasked _ _ _ _ h =>
    rcases h with h | h | ⟨_, _, error, -, -, -, rfl⟩
    · exact h.returned
    · exact h.returned
    · exact ⟨error, rfl⟩

section Every

variable (pki : Pki Cert Name) (net : Network Cert Name) (resolver : Resolver)
  (server : TimeServer)

/-- The calls that an exchange makes, whatever comes of it. -/
def callsMade : List Call := (gather pki net resolver server {}).2.calls

/-- **An exchange obtains a time on evidence, or fails with its reason.** -/
theorem exchange_cases :
    (∃ t pending, exchange pki net resolver server = .obtained t pending ∧
      ∃ ev : Evidence Cert Name, ev.calls = callsMade pki net resolver server ∧
        ev.Backs pki net resolver server t pending) ∨
    ∃ message, exchange pki net resolver server = .failed message ∧
      Failure pki net resolver server (.err message) := by
  have hspec := @gather_spec _ _ pki net resolver server {} rfl
  unfold exchange callsMade
  rcases hrun : gather pki net resolver server {} with ⟨e | t, s⟩ <;> rw [hrun] at hspec
  · obtain ⟨message, rfl⟩ := hspec.1.returned
    exact .inr ⟨message, rfl, hspec.1⟩
  · obtain ⟨⟨ev, hcalls, hbacks⟩, -⟩ := hspec
    exact .inl ⟨t, s.pending, rfl, ev, hcalls, hbacks⟩

/-- **Every exchange is accounted for**: a time that was obtained has its evidence, in the calls
that were made, a failure has its reason and says it, and no exchange panics. -/
theorem exchange_accounted :
    (∀ t pending, exchange pki net resolver server = .obtained t pending →
      ∃ ev : Evidence Cert Name, ev.calls = callsMade pki net resolver server ∧
        ev.Backs pki net resolver server t pending) ∧
    (∀ message, exchange pki net resolver server = .failed message →
      Failure pki net resolver server (.err message)) ∧
    exchange pki net resolver server ≠ .panicked := by
  rcases exchange_cases pki net resolver server with ⟨t, pending, hx, hev⟩ | ⟨message, hx, hf⟩
  · refine ⟨fun t' pending' h => ?_, fun _ h => ?_, fun h => ?_⟩ <;> rw [hx] at h <;> cases h
    exact hev
  · refine ⟨fun _ _ h => ?_, fun message' h => ?_, fun h => ?_⟩ <;> rw [hx] at h <;> cases h
    exact hf

/-- The calls that are made follow the course. -/
theorem course_callsMade :
    Course pki net resolver server (callsMade pki net resolver server) := by
  have hspec := @gather_spec _ _ pki net resolver server {} rfl
  unfold callsMade
  rcases hrun : gather pki net resolver server {} with ⟨e | t, s⟩ <;> rw [hrun] at hspec
  · exact hspec.2
  · exact hspec.2

end Every

/-! ## The discipline of the calls -/

theorem mem_lookups {resolver : Resolver} {name : String} {id : UInt16} {m n : Nat} {c : Call}
    (h : c ∈ lookups resolver name id m n) : ∃ a ∈ resolver.addresses,
      c = lookupCall resolver name Dns.typeA id a ∨
        c = lookupCall resolver name Dns.typeAaaa (id + 1) a := by
  rcases List.mem_append.mp h with h | h
  · obtain ⟨a, ha, rfl⟩ := List.mem_map.mp h
    exact ⟨a, List.mem_of_mem_take ha, .inl rfl⟩
  · obtain ⟨a, ha, rfl⟩ := List.mem_map.mp h
    exact ⟨a, List.mem_of_mem_take ha, .inr rfl⟩

/-- One of the four questions of an exchange: which name it is about, its type and its id. -/
def question (host redirect : String) (id : UInt16) (j : Fin 4) : String × UInt16 × UInt16 :=
  (if j < 2 then host else redirect, if j.val % 2 = 0 then Dns.typeA else Dns.typeAaaa,
    id + UInt16.ofNat j.val)

theorem question_family (host redirect : String) (id : UInt16) (j : Fin 4) :
    (question host redirect id j).2.1 = Dns.typeA ∨
      (question host redirect id j).2.1 = Dns.typeAaaa := by
  unfold question
  by_cases heven : j.val % 2 = 0
  · exact .inl (if_pos heven)
  · exact .inr (if_neg heven)

/-- Different questions have different ids, however the id that was drawn wraps. -/
theorem question_of_id {host redirect : String} {id : UInt16} {j j' : Fin 4}
    (h : (question host redirect id j).2.2 = (question host redirect id j').2.2) : j = j' := by
  have hsame : ∀ j j' : Fin 4, UInt16.ofNat j.val = UInt16.ofNat j'.val → j = j' := by decide
  exact hsame j j' (UInt16.add_right_inj id |>.mp h)

section Course

variable {pki : Pki Cert Name} {net : Network Cert Name} {resolver : Resolver}
  {server : TimeServer} {calls : List Call}

/-- Every call is one of the few that there are. -/
theorem Course.mem (h : Course pki net resolver server calls) :
    ∃ id redirect, ∀ c ∈ calls,
      (∃ a ∈ resolver.addresses, ∃ j,
        c = .lookup resolver.hostname a (question server.hostname redirect id j).1
          (question server.hostname redirect id j).2.1
          (question server.hostname redirect id j).2.2) ∨
      (∃ leg a, FamilyAnswer pki net resolver server.hostname id calls leg ∧ a ∈ leg.2 ∧
        c = .keys server.hostname a) ∨
      ∃ a port, c = .time a port := by
  obtain ⟨id, m, n, legs, k, second, last, hcalls, -, hlegs, hsecond, hlast⟩ := h
  obtain ⟨redirect, hredirect⟩ : ∃ redirect, ∀ c ∈ second, ∃ a ∈ resolver.addresses,
      c = lookupCall resolver redirect Dns.typeA (id + 2) a ∨
        c = lookupCall resolver redirect Dns.typeAaaa (id + 2 + 1) a := by
    rcases hsecond with rfl | ⟨redirect, m', n', rfl⟩
    · exact ⟨"", List.forall_mem_nil _⟩
    · exact ⟨redirect, fun c hc => mem_lookups hc⟩
  refine ⟨id, redirect, fun c hc => ?_⟩
  rw [hcalls, List.mem_append, List.mem_append, List.mem_append] at hc
  rcases hc with hc | hc | hc | hc
  · obtain ⟨a, ha, rfl | rfl⟩ := mem_lookups hc
    · refine .inl ⟨a, ha, 0, ?_⟩
      show _ = Call.lookup _ _ _ _ (id + 0)
      rw [UInt16.add_zero]
      rfl
    · exact .inl ⟨a, ha, 1, rfl⟩
  · obtain ⟨a, ha, rfl⟩ := List.mem_map.mp hc
    obtain ⟨leg, hleg, hmem⟩ := List.mem_flatMap.mp (List.mem_of_mem_take ha)
    exact .inr (.inl ⟨leg, a, hlegs leg hleg, hmem, rfl⟩)
  · obtain ⟨a, ha, rfl | rfl⟩ := hredirect c hc
    · exact .inl ⟨a, ha, 2, rfl⟩
    · refine .inl ⟨a, ha, 3, ?_⟩
      show Call.lookup _ _ _ _ (id + 2 + 1) = Call.lookup _ _ _ _ (id + 3)
      rw [UInt16.add_assoc]
      rfl
  · rcases hlast with rfl | ⟨address, port, rfl⟩
    · cases hc
    · exact .inr (.inr ⟨address, port, List.mem_singleton.mp hc⟩)

/-- The question for the time is the last call. -/
theorem Course.time_last (h : Course pki net resolver server calls) {before after : List Call}
    {a : IpAddr} {port : UInt16} (hcalls : calls = before ++ .time a port :: after) :
    after = [] := by
  obtain ⟨id, m, n, legs, k, second, last, hstages, -, -, hsecond, hlast⟩ := h
  rw [← List.append_assoc, ← List.append_assoc] at hstages
  generalize hfront : lookups resolver server.hostname id m n ++
    ((legs.flatMap (·.2)).take k).map (keysCall server.hostname) ++ second = front at hstages
  have hnone : Call.time a port ∉ front := by
    rw [← hfront, List.mem_append, List.mem_append]
    rintro ((hmem | hmem) | hmem)
    · obtain ⟨_, -, hc | hc⟩ := mem_lookups hmem <;> cases hc
    · obtain ⟨_, -, hc⟩ := List.mem_map.mp hmem
      cases hc
    · rcases hsecond with rfl | ⟨redirect, m', n', rfl⟩
      · cases hmem
      · obtain ⟨_, -, hc | hc⟩ := mem_lookups hmem <;> cases hc
  by_contra hafter
  have hbutLast : calls.dropLast = before ++ .time a port :: after.dropLast := by
    rw [hcalls, List.dropLast_append_cons, List.dropLast_cons_of_ne_nil hafter]
  have hmem : Call.time a port ∈ calls.dropLast := by
    rw [hbutLast]
    exact List.mem_append_right _ List.mem_cons_self
  rw [hstages] at hmem
  rcases hlast with rfl | ⟨address, port', rfl⟩
  · rw [List.append_nil] at hmem
    exact hnone ((List.dropLast_sublist front).mem hmem)
  · rw [List.dropLast_concat] at hmem
    exact hnone hmem

theorem length_lookups_le (name : String) (id : UInt16) (m n : Nat) :
    (lookups resolver name id m n).length ≤ 2 * resolver.addresses.length := by
  rw [lookups, List.length_append, List.length_map, List.length_map, List.length_take,
    List.length_take]
  omega

/-- There is a bound for their number. -/
theorem Course.length_le (h : Course pki net resolver server calls) :
    ∃ (id : UInt16) (legs : List (Pending Cert Name × List IpAddr)), legs.length ≤ 2 ∧
      (∀ leg ∈ legs, FamilyAnswer pki net resolver server.hostname id calls leg) ∧
      calls.length ≤ 4 * resolver.addresses.length + (legs.flatMap (·.2)).length + 1 := by
  obtain ⟨id, m, n, legs, k, second, last, hcalls, hlength, hlegs, hsecond, hlast⟩ := h
  refine ⟨id, legs, hlength, hlegs, ?_⟩
  have hfirst : (lookups resolver server.hostname id m n).length
      ≤ 2 * resolver.addresses.length := length_lookups_le server.hostname id m n
  have hsecond : second.length ≤ 2 * resolver.addresses.length := by
    rcases hsecond with rfl | ⟨redirect, m', n', rfl⟩
    · exact Nat.zero_le _
    · exact length_lookups_le redirect (id + 2) m' n'
  have hlast : last.length ≤ 1 := by
    rcases hlast with rfl | ⟨address, port, rfl⟩
    · exact Nat.zero_le 1
    · exact Nat.le_refl 1
  have hkeys : (((legs.flatMap (·.2)).take k).map (keysCall server.hostname)).length
      ≤ (legs.flatMap (·.2)).length := by
    rw [List.length_map, List.length_take]
    exact Nat.min_le_right _ _
  rw [hcalls]
  simp only [List.length_append] at hfirst hsecond hlast hkeys ⊢
  omega

end Course

/-- **The discipline of the calls**: whatever the network answers, only the resolver's pinned
addresses are asked for names, under its hostname; keys are only established with addresses
that an accepted answer gave for the server's name, under that name; the time is asked for
once at most, and after everything else. Two different questions never share an id, so that
no response is accepted as the answer to both. And the number of calls is bounded by what is
configured and what was found. -/
theorem calls_disciplined (pki : Pki Cert Name) (net : Network Cert Name)
    (resolver : Resolver) (server : TimeServer) :
    let calls := callsMade pki net resolver server
    (∀ host a name qtype id, .lookup host a name qtype id ∈ calls →
      host = resolver.hostname ∧ a ∈ resolver.addresses) ∧
    (∀ host a, .keys host a ∈ calls → host = server.hostname ∧
      ∃ id leg, FamilyAnswer pki net resolver server.hostname id calls leg ∧ a ∈ leg.2) ∧
    (∀ before a port after, calls = before ++ .time a port :: after → after = []) ∧
    (∀ host a name qtype id host' a' name' qtype' id',
      .lookup host a name qtype id ∈ calls → .lookup host' a' name' qtype' id' ∈ calls →
        (name, qtype) ≠ (name', qtype') → id ≠ id' ∧ ∀ body found,
          Dns.parseResponse body id qtype = .ok found →
            ∀ found', Dns.parseResponse body id' qtype' ≠ .ok found') ∧
    ∃ (id : UInt16) (legs : List (Pending Cert Name × List IpAddr)), legs.length ≤ 2 ∧
      (∀ leg ∈ legs, FamilyAnswer pki net resolver server.hostname id calls leg) ∧
      calls.length ≤ 4 * resolver.addresses.length + (legs.flatMap (·.2)).length + 1 := by
  intro calls
  have hcourse : Course pki net resolver server calls := course_callsMade pki net resolver server
  obtain ⟨id, redirect, hmem⟩ := hcourse.mem
  have hlookup : ∀ host a name qtype id', .lookup host a name qtype id' ∈ calls →
      host = resolver.hostname ∧ a ∈ resolver.addresses ∧ ∃ j,
        (name, qtype, id') = question server.hostname redirect id j := by
    intro host a name qtype id' hc
    rcases hmem _ hc with ⟨a', ha', j, heq⟩ | ⟨_, _, -, -, heq⟩ | ⟨_, _, heq⟩
    · cases heq
      exact ⟨rfl, ha', j, rfl⟩
    · cases heq
    · cases heq
  refine ⟨?_, ?_, fun before a port after h => hcourse.time_last h, ?_, hcourse.length_le⟩
  · intro host a name qtype id' hc
    exact ⟨(hlookup _ _ _ _ _ hc).1, (hlookup _ _ _ _ _ hc).2.1⟩
  · intro host a hc
    rcases hmem _ hc with ⟨_, _, _, heq⟩ | ⟨leg, _, hleg, ha, heq⟩ | ⟨_, _, heq⟩
    · cases heq
    · cases heq
      exact ⟨rfl, id, leg, hleg, ha⟩
    · cases heq
  · intro host a name qtype i host' a' name' qtype' i' hc hc' hne
    obtain ⟨-, -, j, hj⟩ := hlookup _ _ _ _ _ hc
    obtain ⟨-, -, j', hj'⟩ := hlookup _ _ _ _ _ hc'
    have hids : i ≠ i' := by
      rintro rfl
      have hsame : j = j' := by
        have hid : (question server.hostname redirect id j).2.2
            = (question server.hostname redirect id j').2.2 := by
          rw [← hj, ← hj']
        exact question_of_id hid
      rw [hsame, ← hj'] at hj
      cases hj
      exact hne rfl
    have hq := question_family server.hostname redirect id j
    have hq' := question_family server.hostname redirect id j'
    rw [← hj] at hq
    rw [← hj'] at hq'
    refine ⟨hids, fun body found hfound found' hfound' => hids ?_⟩
    rw [← (Dns.parseResponse_ok hq hfound).1, (Dns.parseResponse_ok hq' hfound').1]

/-! ## A host with one family -/

/-- The record type of a family. -/
def familyType (v4 : Bool) : UInt16 := if v4 then Dns.typeA else Dns.typeAaaa

theorem familyType_family (v4 : Bool) :
    familyType v4 = Dns.typeA ∨ familyType v4 = Dns.typeAaaa := by
  cases v4
  · exact .inr rfl
  · exact .inl rfl

theorem isIpv4_of_recordType {a : IpAddr} {v4 : Bool} (h : Dns.recordType a = familyType v4) :
    a.isIpv4 = v4 := by
  have hne : Dns.typeA ≠ Dns.typeAaaa := by decide
  cases a <;> cases v4
  · exact absurd h hne
  · rfl
  · rfl
  · exact absurd h hne.symm

/-- The names that an exchange may have to resolve. -/
def Needed (pki : Pki Cert Name) (net : Network Cert Name) (server : TimeServer)
    (name : String) : Prop :=
  name = server.hostname ∨ ∃ earlier a key e,
    KeyAgreement pki net earlier server.hostname a key e ∧ (ntpTarget e a).1 = some name

/-- A host that reaches the addresses of one family: the resolver has a pinned address of it
and answers there for the family, each of its answers for the server has an address that
establishes keys, and the time is told at addresses of the family. Over the other family no
keys are established, and no redirect leads there; what else it does is left open. -/
structure SingleStack (pki : Pki Cert Name) (net : Network Cert Name) (resolver : Resolver)
    (server : TimeServer) (v4 : Bool) : Prop where
  drawn : (∃ id, net.queryId = .ok id) ∧ (∃ uniqueId, net.uniqueId = .ok uniqueId) ∧
    ∃ nonce, net.nonce = .ok nonce
  lookup : ∃ r ∈ resolver.addresses, ∀ earlier name id, Needed pki net server name →
    ∃ answer, dohResolve pki net earlier resolver.hostname r name (familyType v4) id = .ok answer
  keys : ∀ earlier r id p found,
    DohAnswer pki net earlier resolver.hostname r server.hostname (familyType v4) id p found →
      ∃ a ∈ found, ∀ earlier', ∃ answer,
        establish pki net earlier' server.hostname a = .ok answer
  unreachable : ∀ earlier a key e, KeyAgreement pki net earlier server.hostname a key e →
    a.isIpv4 = v4 ∧ ∀ host address, e.agreement.server = some host →
      parseIpAddr host = some address → address.isIpv4 = v4
  time : ∀ earlier a key e, KeyAgreement pki net earlier server.hostname a key e →
    ∀ earlier' address uniqueId nonce, address.isIpv4 = v4 → net.uniqueId = .ok uniqueId →
      net.nonce = .ok nonce →
      ∃ t, askTime net earlier' e address (ntpTarget e a).2.2 uniqueId nonce = .ok t

section SingleStack

variable {pki : Pki Cert Name} {net : Network Cert Name} {resolver : Resolver}
  {server : TimeServer} {v4 : Bool}

theorem exists_familyId (id : UInt16) (v4 : Bool) : ∃ id', FamilyId id (familyType v4) id' := by
  cases v4
  · exact ⟨id + 1, .inr ⟨rfl, rfl⟩⟩
  · exact ⟨id, .inl ⟨rfl, rfl⟩⟩

/-- A name that is needed is not refused by every address. -/
theorem SingleStack.not_refused (h : SingleStack pki net resolver server v4) {name : String}
    (hname : Needed pki net server name) {id : UInt16} {earlier : List Call}
    {errors : List String} :
    ¬ RefusedLookups pki net resolver name (familyType v4) id earlier resolver.addresses
      errors := by
  intro hall
  obtain ⟨r, hr, hlookup⟩ := h.lookup
  obtain ⟨calls, e, hrefused⟩ := hall.exists_of_mem hr
  obtain ⟨answer, hanswer⟩ := hlookup calls name id hname
  rw [hanswer] at hrefused
  cases hrefused

/-- On such a host a name that is needed is resolved. -/
theorem SingleStack.not_allRefused (h : SingleStack pki net resolver server v4) {name : String}
    (hname : Needed pki net server name) {id : UInt16} {earlier : List Call} {e : Stop} :
    ¬ AllRefused pki net resolver name id earlier e := by
  rintro ⟨errorsA, errorsAaaa, hA, hAaaa, -⟩
  cases v4
  · exact h.not_refused hname hAaaa
  · exact h.not_refused hname hA

/-- The legs of a needed name have an answer for the family. -/
theorem SingleStack.exists_leg (h : SingleStack pki net resolver server v4) {name : String}
    (hname : Needed pki net server name) {id : UInt16} {made : List Call}
    {legs : List (Pending Cert Name × List IpAddr)}
    (hlegs : LegsOf pki net resolver name id made legs) :
    ∃ leg ∈ legs, ∃ earlier a id',
      DohAnswer pki net earlier resolver.hostname a name (familyType v4) id' leg.1 leg.2 := by
  obtain ⟨id', hid⟩ := exists_familyId id v4
  rcases hlegs.families _ _ hid with
    ⟨leg, hleg, earlier, a, hanswer⟩ | ⟨earlier, errors, -, hall⟩
  · exact ⟨leg, hleg, earlier, a, id', hanswer⟩
  · exact absurd hall (h.not_refused hname)

/-- Wherever the time is asked for, it is at an address of the family. -/
theorem SingleStack.targeted (h : SingleStack pki net resolver server v4)
    {calls made : List Call} {keyAddress address : IpAddr} {key : Pending Cert Name}
    {e : Established} {id : UInt16} {legs : List (Pending Cert Name × List IpAddr)}
    (hkey : KeyAgreement pki net calls server.hostname keyAddress key e)
    (htarget : Targeted pki net resolver id made e keyAddress address legs) :
    address.isIpv4 = v4 := by
  obtain ⟨hfamily, hliteral⟩ := h.unreachable _ _ _ _ hkey
  cases hredirect : (ntpTarget e keyAddress).1 with
  | none =>
    rw [(htarget.direct hredirect).1]
    unfold ntpTarget at hredirect ⊢
    cases hserver : e.agreement.server with
    | none => exact hfamily
    | some host =>
      rw [hserver] at hredirect
      dsimp only at hredirect ⊢
      cases hparse : parseIpAddr host with
      | none => rw [hparse] at hredirect; cases hredirect
      | some address => exact hliteral host address hserver hparse
  | some name =>
    obtain ⟨hlegs, hmem, hsame⟩ := htarget.redirected name hredirect
    have hneeded : Needed pki net server name := .inr ⟨_, _, _, _, hkey, hredirect⟩
    obtain ⟨leg, hleg, _, _, _, hanswer⟩ := h.exists_leg hneeded hlegs
    obtain ⟨hne, hrecord⟩ := hanswer.ne_nil (familyType_family v4)
    obtain ⟨a, ha⟩ := List.exists_mem_of_ne_nil _ hne
    rw [← hfamily]
    refine hsame ⟨a, List.mem_flatMap.mpr ⟨leg, hleg, ha⟩, ?_⟩
    rw [isIpv4_of_recordType (hrecord a ha), hfamily]

/-- None of the reasons to fail is left on such a host. -/
theorem SingleStack.not_failure (h : SingleStack pki net resolver server v4) {e : Stop} :
    ¬ Failure pki net resolver server e := by
  have hself : Needed pki net server server.hostname := .inl rfl
  obtain ⟨⟨queryId, hqueryId⟩, ⟨uniqueId, huniqueId⟩, nonce, hnonce⟩ := h.drawn
  have hdrawn : ∀ {α : Type} {x : Except String α} {a : α} {e : Stop}, x = .ok a →
      ¬ Undrawn x e := by
    rintro α x a e rfl ⟨_, herror, -⟩
    cases herror
  intro hfailure
  cases hfailure with
  | undrawn hun => exact hdrawn hqueryId hun
  | unresolved _ hall => exact h.not_allRefused hself hall
  | refused _ hlegs hall _ =>
    obtain ⟨leg, hleg, _, _, _, hanswer⟩ := h.exists_leg hself hlegs
    obtain ⟨a, ha, hup⟩ := h.keys _ _ _ _ _ hanswer
    obtain ⟨calls, _, hrefused⟩ := hall.exists_of_mem (List.mem_flatMap.mpr ⟨leg, hleg, ha⟩)
    obtain ⟨answer, hok⟩ := hup calls
    rw [hok] at hrefused
    cases hrefused
  | lost _ hkey hname hall => exact h.not_allRefused (.inr ⟨_, _, _, _, hkey, hname⟩) hall
  | unasked _ hkey _ htarget hun =>
    rcases hun with hun | hun | ⟨uniqueId, nonce, error, huniqueId, hnonce, hasked, -⟩
    · exact hdrawn huniqueId hun
    · exact hdrawn hnonce hun
    · obtain ⟨t, ht⟩ := h.time _ _ _ _ hkey _ _ uniqueId nonce
        (h.targeted hkey htarget) huniqueId hnonce
      rw [ht] at hasked
      cases hasked

end SingleStack

/-- **One reachable family is enough**: on a host that reaches one address family, whatever
becomes of the calls over the other, the exchange obtains a time, with keys established and
the time asked for over that family. -/
theorem single_stack_obtains {pki : Pki Cert Name} {net : Network Cert Name}
    {resolver : Resolver} {server : TimeServer} {v4 : Bool}
    (h : SingleStack pki net resolver server v4) :
    ∃ t pending, exchange pki net resolver server = .obtained t pending ∧
      ∃ ev : Evidence Cert Name, ev.Backs pki net resolver server t pending ∧
        ev.keyAddress.isIpv4 = v4 ∧ ev.address.isIpv4 = v4 := by
  rcases exchange_cases pki net resolver server with
    ⟨t, pending, hx, ev, -, hbacks⟩ | ⟨message, -, hfailure⟩
  · obtain ⟨calls, -, hkey⟩ := hbacks.agreement
    exact ⟨t, pending, hx, ev, hbacks, (h.unreachable _ _ _ _ hkey).1,
      h.targeted hkey hbacks.targeted⟩
  · exact absurd hfailure h.not_failure

/-! ## A sample of such a host -/

/-- Certificates that are valid around second 1800000000. -/
def aroundPki : Pki Nat String where
  validity _ := .ok (1799999000, 1800001000)
  verifyServerCert _ _ _ x :=
    if 1799999000 ≤ x ∧ x ≤ 1800001000 then .ok () else .error "expired"

/-- A session that gives one cookie and names no other server. -/
def sampleSession : KeySession Nat where
  leaf := 3
  intermediates := []
  timeouts := .ok ()
  written := .ok ()
  alpn := some Nts.alpn
  reads := [.data (Nts.sampleRecords 0)]
  exporter _ _ := .ok ⟨List.replicate 32 9, List.length_replicate⟩

/-- The request that is sent with the sample's cookie, and the tag AES-SIV-CMAC-256 gives it
under the key of 32 nines and the nonce of 16 sevens. -/
def sampleRequest : List UInt8 :=
  Ntp.requestHeader ++ Ntp.extensionField Ntp.efUniqueIdentifier (List.replicate 32 3) ++
    Ntp.extensionField Ntp.efCookie [7]

/-- The tag that SIV gives the request of the sample. -/
def sampleRequestTag : List UInt8 :=
  [138, 83, 239, 12, 133, 119, 50, 147, 215, 91, 251, 49, 91, 116, 189, 45]

/-- Encryption of nothing, as far as that request is concerned. -/
def sampleRequestEncrypt (key associated nonce plaintext : List UInt8) : Option (List UInt8) :=
  if key = List.replicate 32 9 ∧ associated = sampleRequest ∧ nonce = List.replicate 16 7 ∧
      plaintext = [] then some sampleRequestTag
  else none

/-- A network without a route for IPv4, with a query id that wraps. -/
def ipv6Network : Network Nat String where
  serverName := some
  tlsVersions := .ok ()
  httpClient := .ok ()
  tlsSession := .ok ()
  refusal := id
  post calls query :=
    match calls.getLast? with
    | some (.lookup _ (.v6 _) _ qtype _) =>
      .ok { leaf := 1, intermediates := [2], status := 200, statusText := "200 OK"
            body := .ok (Dns.respond query
              (if qtype = Dns.typeA then [] else [(60, .v6 1)])) }
    | _ => .error "Network is unreachable"
  connect calls _ :=
    match calls.getLast? with
    | some (.keys _ (.v6 _)) => .ok sampleSession
    | _ => .error "Network is unreachable"
  datagram _ _ :=
    { bound := .ok (), timeout := .ok (), connected := .ok (), sent := .ok ()
      received := .ok Ntp.samplePacket }
  encrypt := sampleRequestEncrypt
  siv := Ntp.sampleSiv
  queryId := .ok 0xFFFF
  uniqueId := .ok ⟨List.replicate 32 3, List.length_replicate⟩
  nonce := .ok ⟨List.replicate 16 7, List.length_replicate⟩

/-- A resolver with an address of each family. -/
def sampleResolver : Resolver :=
  ⟨"quad9", "dns10.quad9.net", [.v4 0x09090909, .v6 0x262000FE]⟩

/-- The server that is asked. -/
def sampleServer : TimeServer := ⟨"ptb1", "t", "ptb"⟩

/-- What the session comes to. -/
def sampleAgreement : Nts.Agreement :=
  { aead := 15, cookies := [[7]], server := none, port := none }

/-- The keys of the session. -/
def sampleEstablished : Established :=
  ⟨sampleAgreement, ⟨List.replicate 32 9, List.length_replicate⟩,
    ⟨List.replicate 32 9, List.length_replicate⟩⟩

theorem readAgreement_sample (address : String) :
    Nts.readAgreement address sampleSession.reads = .ok sampleAgreement := by
  have hstart : Nts.findEnd [] 0 = none := by decide +kernel
  have hend : Nts.findEnd ([] ++ Nts.sampleRecords 0) 0 = some 17 := by decide +kernel
  have hread : Nts.readLoop address [] sampleSession.reads = .ok ([] ++ Nts.sampleRecords 0) :=
    (Nts.readLoop_data hstart (List.cons_ne_nil _ _) (by decide +kernel)).trans
      (Nts.readLoop_complete hend [])
  rw [Nts.readAgreement_of_readLoop hread hend]
  decide +kernel

/-- Keys are established over IPv6 only, always the same. -/
theorem keyAgreement_sample {earlier : List Call} {a : IpAddr} {key : Pending Nat String}
    {e : Established}
    (h : KeyAgreement aroundPki ipv6Network earlier sampleServer.hostname a key e) :
    a.isIpv4 = false ∧ e = sampleEstablished := by
  obtain ⟨session, hconnect, -, -, hread, hc2s, hs2c⟩ := h.session
  rw [ipv6Network] at hconnect
  dsimp only at hconnect
  rw [List.getLast?_concat] at hconnect
  cases a with
  | v4 bits => cases hconnect
  | v6 bits =>
    cases hconnect
    rw [readAgreement_sample] at hread
    obtain ⟨agreement, c2s, s2c⟩ := e
    cases hread
    cases hc2s
    cases hs2c
    exact ⟨rfl, rfl⟩

/-- The question for the server's AAAA records, and what the answer to it is read as, whatever
its id is. -/
theorem query_sample (id : UInt16) :
    ∃ query, Dns.encodeQuery id sampleServer.hostname Dns.typeAaaa = .ok query ∧
      Dns.parseResponse (Dns.respond query [(60, .v6 1)]) id Dns.typeAaaa = .ok [.v6 1] := by
  have hlabels : Dns.encodeLabels ["t"] = .ok [1, 116] := by decide +kernel
  have hsplit : (splitBy '.' sampleServer.hostname).filter (· ≠ "") = ["t"] := by decide +kernel
  have hquery : Dns.encodeQuery id sampleServer.hostname Dns.typeAaaa = .ok (Dns.header id 0x0100 0
      ++ ([1, 116] ++ 0 :: (u16Bytes Dns.typeAaaa ++ u16Bytes Dns.classIn))) :=
    Dns.encodeQuery_eq_ok.mpr ⟨[1, 116], hsplit ▸ hlabels, rfl⟩
  generalize hmessage : Dns.header id 0x0100 0 ++
    ([1, 116] ++ 0 :: (u16Bytes Dns.typeAaaa ++ u16Bytes Dns.classIn)) = message at hquery
  have hflags : u16At (Dns.respond message [(60, .v6 1)]) 2 = 0x8100 := by
    rw [← hmessage, Dns.respond_query, Dns.u16At_header_flags]
  have hid : u16At (Dns.respond message [(60, .v6 1)]) 0 = id := by
    rw [← hmessage, Dns.respond_query, Dns.u16At_header_id]
  have hlayout : Dns.Layout (Dns.respond message [(60, .v6 1)]) [Dns.resourceOf (.v6 1)] :=
    hmessage ▸ Dns.layout_respond (by decide) hlabels id Dns.typeAaaa (by decide)
  have hfamily : ∀ a ∈ [IpAddr.v6 1], Dns.recordType a = Dns.typeAaaa :=
    List.forall_mem_singleton.mpr rfl
  refine ⟨message, hquery, ?_⟩
  rw [Dns.parseResponse_of_layout (.inr rfl) hlayout hid (by rw [hflags]; decide)
    (by rw [hflags]; decide) (by rw [hflags]; decide) (Dns.wellSized_resourceOf hfamily)
    ⟨_, List.mem_cons_self, Dns.asked_resourceOf rfl⟩]
  exact congrArg Except.ok (Dns.addresses_resourceOf hfamily)

/-- The pinned IPv6 address answers for AAAA. -/
theorem dohResolve_sample (earlier : List Call) (id : UInt16) :
    ∃ answer, dohResolve aroundPki ipv6Network earlier sampleResolver.hostname (.v6 0x262000FE)
      sampleServer.hostname Dns.typeAaaa id = .ok answer := by
  have hpass : firstPass aroundPki 1 [2] sampleResolver.hostname = .ok [1, 2] := by
    decide +kernel
  obtain ⟨query, hquery, hparse⟩ := query_sample id
  let p : Pending Nat String := ⟨"DoH dns10.quad9.net", [1, 2], "dns10.quad9.net"⟩
  have hfetch : fetch aroundPki ipv6Network earlier sampleResolver.hostname (.v6 0x262000FE)
      sampleServer.hostname Dns.typeAaaa id = .ok (p, Dns.respond query [(60, .v6 1)]) := by
    rw [fetch, ipv6Network]
    dsimp only
    rw [hquery]
    simp only [List.getLast?_concat]
    refine bind_eq_ok.mpr ⟨(), rfl, bind_eq_ok.mpr ⟨(), rfl, bind_eq_ok.mpr ⟨query, rfl,
      bind_eq_ok.mpr ⟨_, rfl, bind_eq_ok.mpr ⟨[1, 2], ?_, ?_⟩⟩⟩⟩⟩
    · exact labelled_eq_ok.mpr (mapError_eq_ok.mpr hpass)
    · have hstatus : ¬ 200 / 100 ≠ 2 := by decide
      have hfamily : ¬ Dns.typeAaaa = Dns.typeA := by decide
      rw [if_neg hfamily]
      exact if_neg hstatus
  exact ⟨_, bind_eq_ok.mpr ⟨_, mapError_eq_ok.mpr hfetch, bind_eq_ok.mpr ⟨_, hparse, rfl⟩⟩⟩

theorem found_sample {earlier : List Call} {r : IpAddr} {id : UInt16} {p : Pending Nat String}
    {found : List IpAddr} (h : DohAnswer aroundPki ipv6Network earlier sampleResolver.hostname r
      sampleServer.hostname Dns.typeAaaa id p found) : found = [.v6 1] := by
  obtain ⟨query, reply, body, hquery, hpost, -, -, hbody, hparse⟩ := h.answered
  obtain ⟨query', hquery', hparse'⟩ := query_sample id
  rw [hquery] at hquery'
  cases hquery'
  rw [ipv6Network] at hpost
  dsimp only at hpost
  rw [List.getLast?_concat] at hpost
  cases r with
  | v4 bits => cases hpost
  | v6 bits =>
    cases hpost
    cases hbody
    rw [if_neg (by decide), hparse'] at hparse
    cases hparse
    rfl

theorem establish_sample (earlier : List Call) :
    ∃ answer, establish aroundPki ipv6Network earlier sampleServer.hostname (.v6 1)
      = .ok answer := by
  have hpass : firstPass aroundPki 3 [] sampleServer.hostname = .ok [3] := by decide +kernel
  refine ⟨(⟨"NTS-KE t", [3], "t"⟩, sampleEstablished), ?_⟩
  rw [establish, ipv6Network]
  simp only [List.getLast?_concat]
  refine bind_eq_ok.mpr ⟨(), rfl, bind_eq_ok.mpr ⟨(), rfl, bind_eq_ok.mpr ⟨sampleSession, rfl,
    bind_eq_ok.mpr ⟨(), rfl, bind_eq_ok.mpr ⟨[3], ?_, bind_eq_ok.mpr ⟨(), rfl, ?_⟩⟩⟩⟩⟩⟩
  · exact labelled_eq_ok.mpr (mapError_eq_ok.mpr hpass)
  · have halpn : ¬ sampleSession.alpn ≠ some Nts.alpn := not_not.mpr rfl
    rw [if_neg halpn]
    exact bind_eq_ok.mpr ⟨sampleAgreement, readAgreement_sample _, rfl⟩

theorem askTime_sample (earlier : List Call) (address : IpAddr)
    {uniqueId : Bytes Ntp.uniqueIdLength} {nonce : Bytes Ntp.nonceLength}
    (huniqueId : ipv6Network.uniqueId = .ok uniqueId) (hnonce : ipv6Network.nonce = .ok nonce) :
    askTime ipv6Network earlier sampleEstablished address 123 uniqueId nonce
      = .ok 1800000000 := by
  cases huniqueId
  cases hnonce
  have htag : sampleRequestEncrypt (List.replicate 32 9) sampleRequest (List.replicate 16 7) []
      = some sampleRequestTag :=
    if_pos ⟨rfl, rfl, rfl, rfl⟩
  obtain ⟨request, hrequest⟩ : ∃ request, Ntp.buildRequest ipv6Network.encrypt [7]
      (List.replicate 32 9) (List.replicate 32 3) (List.replicate 16 7) = .ok request :=
    ⟨_, Ntp.buildRequest_eq List.length_replicate htag⟩
  have hid := uniqueId_buildRequest hrequest
  have hparse : Ntp.parseResponse Ntp.sampleSiv (Ntp.samplePacket.take datagramSize)
      (List.replicate 32 9) request.uniqueId = .ok 1800000000 := by
    rw [hid]
    decide +kernel
  exact bind_eq_ok.mpr ⟨request, hrequest, bind_eq_ok.mpr ⟨(), rfl, bind_eq_ok.mpr ⟨(), rfl,
    bind_eq_ok.mpr ⟨(), rfl, bind_eq_ok.mpr ⟨(), rfl,
      bind_eq_ok.mpr ⟨Ntp.samplePacket, rfl, hparse⟩⟩⟩⟩⟩⟩

theorem singleStack_sample :
    SingleStack aroundPki ipv6Network sampleResolver sampleServer false := by
  refine ⟨⟨⟨_, rfl⟩, ⟨_, rfl⟩, _, rfl⟩, ?_, ?_, ?_, ?_⟩
  · refine ⟨.v6 0x262000FE, by decide, fun earlier name id hname => ?_⟩
    rcases hname with rfl | ⟨_, _, _, e, hkey, hredirect⟩
    · exact dohResolve_sample earlier id
    · obtain ⟨-, rfl⟩ := keyAgreement_sample hkey
      cases hredirect
  · intro earlier r id p found hanswer
    obtain rfl := found_sample hanswer
    exact ⟨.v6 1, List.mem_singleton_self _, establish_sample⟩
  · intro earlier a key e hkey
    obtain ⟨hfamily, rfl⟩ := keyAgreement_sample hkey
    exact ⟨hfamily, fun _ _ h => nomatch h⟩
  · intro earlier a key e hkey earlier' address uniqueId nonce _ huniqueId hnonce
    obtain ⟨-, rfl⟩ := keyAgreement_sample hkey
    exact ⟨_, askTime_sample earlier' address huniqueId hnonce⟩

/-- A host without IPv4 obtains a time through a resolver that is pinned over both families. -/
theorem single_stack_obtains_ipv6 :
    SingleStack aroundPki ipv6Network sampleResolver sampleServer false ∧
      ∃ t pending, exchange aroundPki ipv6Network sampleResolver sampleServer
        = .obtained t pending := by
  obtain ⟨t, pending, hx, -⟩ := single_stack_obtains singleStack_sample
  exact ⟨singleStack_sample, t, pending, hx⟩

end HostServices.TimeCorrection
