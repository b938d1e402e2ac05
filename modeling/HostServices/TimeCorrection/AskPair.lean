import HostServices.Lib.Actions
import HostServices.TimeCorrection.Legs
import HostServices.TimeCorrection.Run

/-!
# One pair, from a hostname to a time (`ask_pair` of `time-correction/src/main.rs`)

The server's name is looked up over both families, keys are established with the first
address that lets it, a redirect is followed, and the time is asked for. A leg that fails is
followed by the next candidate; a leg that succeeds leaves its chain behind.

- `Trail`: the calls made so far, and the chains recorded;
- `askFamily`, `resolve`, `establishAny`, `gather`, `exchange`: the source's function, up to
  the timestamp;
- `resolve_spec`: a resolution gives the answers of both families, or names every refusal;
- `establishAny_spec`, `timeAddress_spec`, `askFor_spec`: the other steps of it.
-/

namespace HostServices.TimeCorrection

open HostServices.Lib

variable {Cert Name : Type}

/-! ## The code -/

/-- What an exchange has asked, and the chains that are recorded (`Deferred`). -/
structure Trail (Cert Name : Type) where
  calls : List Call := []
  pending : List (Pending Cert Name) := []

/-- What is done for a pair, with the trail of its calls. -/
abbrev Ask (Cert Name α : Type) := Lib.Action (Trail Cert Name) Stop α

/-- A call; what is answered may depend on the earlier ones. -/
def made (call : Call) : Ask Cert Name (List Call) := do
  let s ← get
  modify fun s => { s with calls := s.calls ++ [call] }
  pure s.calls

/-- `deferred.record`. -/
def record (p : Pending Cert Name) : Ask Cert Name Unit :=
  modify fun s => { s with pending := s.pending ++ [p] }

/-- A step that only may fail. -/
def fallible {α : Type} (x : Except String α) : Ask Cert Name α :=
  Lib.Action.lift (Except.mapError .err x)

/-- `random_bytes`. -/
def drawn {α : Type} (x : Except String α) : Ask Cert Name α :=
  fallible (labelled "cannot read /dev/urandom: " x)

/-- How a failed lookup is told. -/
def failureLine (qtype : UInt16) (address : IpAddr) (e : String) : String :=
  let kind := if qtype = Dns.typeA then "A" else "AAAA"
  s!"{kind} via {address.display}: {e}"

section Exchange

variable (pki : Pki Cert Name) (net : Network Cert Name) (resolver : Resolver)

/-- The loop over the resolver's addresses for one family: what was found, and how the
addresses that were asked before failed. -/
def askFamily (name : String) (qtype id : UInt16) :
    List IpAddr → Ask Cert Name (List IpAddr × List String)
  | [] => pure ([], [])
  | address :: rest => do
    let earlier ← made (.lookup resolver.hostname address name qtype id)
    match dohResolve pki net earlier resolver.hostname address name qtype id with
    | .ok (p, found) => do
      record p
      pure (found, [])
    | .error (.panic message) => throw (.panic message)
    | .error (.err e) => do
      let (found, failures) ← askFamily name qtype id rest
      pure (found, failureLine qtype address e :: failures)

/-- What is said when no address of the resolver has answered. -/
def unresolved (name : String) (failures : List String) : String :=
  s!"{resolver.name} could not resolve {name}: " ++
    if failures = [] then "no address was even attempted" else "; ".intercalate failures

/-- The closure `resolve`. -/
def resolve (name : String) (id : UInt16) : Ask Cert Name (List IpAddr) := do
  let (a, failuresA) ← askFamily pki net resolver name Dns.typeA id resolver.addresses
  let (aaaa, failuresAaaa) ←
    askFamily pki net resolver name Dns.typeAaaa (id + 1) resolver.addresses
  if a ++ aaaa = [] then
    throw (.err (unresolved resolver name (failuresA ++ failuresAaaa)))
  else pure (a ++ aaaa)

/-- The loop over the addresses of the server: the first one that establishes keys. -/
def establishAny (host : String) : String → List IpAddr → Ask Cert Name (IpAddr × Established)
  | last, [] => throw (.err last)
  | _, address :: rest => do
    let earlier ← made (.keys host address)
    match establish pki net earlier host address with
    | .ok (p, e) => do
      record p
      pure (address, e)
    | .error e => establishAny host e rest

/-- The address behind a redirect to a name: of the family that key establishment worked
over, if there is one. -/
def redirected (keyAddress : IpAddr) (name : String) (id : UInt16) : Ask Cert Name IpAddr := do
  let candidates ← resolve pki net resolver name id
  match (candidates.find? fun a => a.isIpv4 = keyAddress.isIpv4).or candidates.head? with
  | some address => pure address
  | none => throw (.err s!"the redirect to {name} resolved to nothing")

/-- The address that is asked for the time: that of the keys, unless they name another server. -/
def timeAddress (keyAddress address : IpAddr) (id : UInt16) :
    Option String → Ask Cert Name IpAddr
  | none => pure address
  -- the ids of this lookup are not those of the first one
  | some name => redirected pki net resolver keyAddress name (id + 2)

/-- The authenticated question for the time. -/
def askFor (e : Established) (address : IpAddr) (port : UInt16) : Ask Cert Name Int64 := do
  let uniqueId ← drawn net.uniqueId
  let nonce ← drawn net.nonce
  let earlier ← made (.time address port)
  fallible (askTime net earlier e address port uniqueId nonce)

/-- `ask_pair` up to the timestamp. -/
def gather (server : TimeServer) : Ask Cert Name Int64 := do
  let id ← drawn net.queryId
  let addresses ← resolve pki net resolver server.hostname id
  let (keyAddress, e) ← establishAny pki net server.hostname
    s!"{server.hostname} resolved to nothing" addresses
  let (redirect, fallback, port) := ntpTarget e keyAddress
  let address ← timeAddress pki net resolver keyAddress fallback id redirect
  askFor net e address port

/-- How far the pair gets. -/
def exchange (server : TimeServer) : Exchange Cert Name :=
  match gather pki net resolver server {} with
  | (.ok seconds, s) => .obtained seconds s.pending
  | (.error (.err e), _) => .failed e
  | (.error (.panic _), _) => .panicked

end Exchange

/-! ## One call -/

/-- A call is added to the trail. -/
theorem made_spec (s : Trail Cert Name) (call : Call) :
    Triple (· = s) (made call)
      (fun earlier s' => earlier = s.calls ∧ s' = { s with calls := s.calls ++ [call] })
      (fun _ _ => False) := by
  rintro _ rfl
  exact ⟨rfl, rfl⟩

/-- A step that may fail leaves the trail alone. -/
theorem fallible_spec {α : Type} (s : Trail Cert Name) (x : Except String α) :
    Triple (· = s) (fallible x) (fun a s' => x = .ok a ∧ s' = s)
      (fun e s' => (∃ error, x = .error error ∧ e = .err error) ∧ s' = s) := by
  rintro _ rfl
  cases x with
  | error e => exact ⟨⟨e, rfl, rfl⟩, rfl⟩
  | ok a => exact ⟨rfl, rfl⟩

/-! ## One family -/

/-- The call that asks an address of the resolver for a name. -/
def lookupCall (resolver : Resolver) (name : String) (qtype id : UInt16) (a : IpAddr) : Call :=
  .lookup resolver.hostname a name qtype id

/-- The addresses were called in turn, the first one after `calls`, and each call failed with its
error. -/
inductive FailedInTurn (call : IpAddr → Call) (fails : List Call → IpAddr → String → Prop) :
    List Call → List IpAddr → List String → Prop
  | nil {calls : List Call} : FailedInTurn call fails calls [] []
  | cons {calls : List Call} {a : IpAddr} {rest : List IpAddr} {e : String}
      {errors : List String} : fails calls a e →
      FailedInTurn call fails (calls ++ [call a]) rest errors →
      FailedInTurn call fails calls (a :: rest) (e :: errors)

/-- Each address had its turn, behind some history, and failed. -/
theorem FailedInTurn.exists_of_mem {call : IpAddr → Call}
    {fails : List Call → IpAddr → String → Prop} {calls : List Call} {addresses : List IpAddr}
    {errors : List String} (h : FailedInTurn call fails calls addresses errors) {a : IpAddr}
    (ha : a ∈ addresses) : ∃ calls' e, fails calls' a e := by
  induction h with
  | nil => cases ha
  | cons hfails _ ih =>
    rcases List.mem_cons.mp ha with rfl | ha
    · exact ⟨_, _, hfails⟩
    · exact ih ha

/-- The lookups at these addresses were refused, one after the other. -/
def RefusedLookups (pki : Pki Cert Name) (net : Network Cert Name) (resolver : Resolver)
    (name : String) (qtype id : UInt16) : List Call → List IpAddr → List String → Prop :=
  FailedInTurn (lookupCall resolver name qtype id) fun earlier a e =>
    dohResolve pki net earlier resolver.hostname a name qtype id = .error (.err e)

/-- Each of the addresses was asked in vain. -/
structure Unanswered (pki : Pki Cert Name) (net : Network Cert Name) (resolver : Resolver)
    (name : String) (qtype id : UInt16) (addresses : List IpAddr) (errors : List String)
    (s s' : Trail Cert Name) : Prop where
  refused : RefusedLookups pki net resolver name qtype id s.calls addresses errors
  calls_eq : s'.calls = s.calls ++ addresses.map (lookupCall resolver name qtype id)
  pending_eq : s'.pending = s.pending

/-- The addresses were asked in turn up to the first one that answered, and its chain is
recorded. -/
structure Answered (pki : Pki Cert Name) (net : Network Cert Name) (resolver : Resolver)
    (name : String) (qtype id : UInt16) (addresses : List IpAddr) (errors : List String)
    (found : List IpAddr) (p : Pending Cert Name) (s s' : Trail Cert Name) : Prop where
  errors_length : errors.length < addresses.length
  refused : RefusedLookups pki net resolver name qtype id s.calls
    (addresses.take errors.length) errors
  calls_eq : s'.calls = s.calls ++
    (addresses.take (errors.length + 1)).map (lookupCall resolver name qtype id)
  pending_eq : s'.pending = s.pending ++ [p]
  answer : ∃ a ∈ addresses, ∃ earlier,
    s'.calls = earlier ++ [lookupCall resolver name qtype id a] ∧
      DohAnswer pki net earlier resolver.hostname a name qtype id p found

/-- What the loop over the addresses did, with what each address that failed said. -/
def FamilyAsked (pki : Pki Cert Name) (net : Network Cert Name) (resolver : Resolver)
    (name : String) (qtype id : UInt16) (addresses : List IpAddr) (s : Trail Cert Name)
    (result : List IpAddr × List String) (s' : Trail Cert Name) : Prop :=
  ∃ errors, result.2 = List.zipWith (failureLine qtype) addresses errors ∧
    ((result.1 = [] ∧ Unanswered pki net resolver name qtype id addresses errors s s') ∨
      ∃ p, Answered pki net resolver name qtype id addresses errors result.1 p s s')

section Family

variable {pki : Pki Cert Name} {net : Network Cert Name} {resolver : Resolver} {name : String}
  {qtype id : UInt16}

/-- One more address that failed in front of the others. -/
theorem FamilyAsked.cons {address : IpAddr} {rest : List IpAddr} {s s' : Trail Cert Name}
    {result : List IpAddr × List String}
    (h : FamilyAsked pki net resolver name qtype id rest
      { s with calls := s.calls ++ [lookupCall resolver name qtype id address] } result s')
    {e : String}
    (he : dohResolve pki net s.calls resolver.hostname address name qtype id
      = .error (.err e)) :
    FamilyAsked pki net resolver name qtype id (address :: rest) s
      (result.1, failureLine qtype address e :: result.2) s' := by
  obtain ⟨errors, hfailures, ⟨hfound, hun⟩ | ⟨p, hans⟩⟩ := h
  · refine ⟨e :: errors, by rw [hfailures]; rfl, .inl ⟨hfound, ?_, ?_, hun.pending_eq⟩⟩
    · exact .cons he hun.refused
    · rw [hun.calls_eq, List.map_cons, List.append_assoc]
      rfl
  · refine ⟨e :: errors, by rw [hfailures]; rfl, .inr ⟨p, ?_, ?_, ?_, hans.pending_eq, ?_⟩⟩
    · exact Nat.succ_lt_succ hans.errors_length
    · exact .cons he hans.refused
    · rw [hans.calls_eq, List.append_assoc]
      rfl
    · obtain ⟨a, ha, hanswer⟩ := hans.answer
      exact ⟨a, List.mem_cons_of_mem _ ha, hanswer⟩

/-- What asking for one family comes to. -/
theorem askFamily_spec (hq : qtype = Dns.typeA ∨ qtype = Dns.typeAaaa)
    (addresses : List IpAddr) (s : Trail Cert Name) :
    Triple (· = s) (askFamily pki net resolver name qtype id addresses)
      (FamilyAsked pki net resolver name qtype id addresses s) (fun _ _ => False) := by
  induction addresses generalizing s with
  | nil =>
    refine Triple.value ?_
    rintro _ rfl
    exact ⟨[], rfl, .inl ⟨rfl, .nil, (List.append_nil _).symm, rfl⟩⟩
  | cons address rest ih =>
    refine Triple.bind (made_spec s _) fun earlier => ?_
    rintro _ ⟨rfl, rfl⟩
    have hnopanic := noPanic_dohResolve pki net s.calls resolver.hostname address name id hq
    cases hresolve : dohResolve pki net s.calls resolver.hostname address name qtype id with
    | error stop =>
      cases stop with
      | panic message => exact absurd hresolve (hnopanic message)
      | err e =>
        -- the next address is asked
        exact Triple.bind (ih _)
          (fun result => Triple.value fun s' h => h.cons hresolve) _ rfl
    | ok answer =>
      obtain ⟨p, found⟩ := answer
      have hanswer := dohResolve_ok hresolve
      exact ⟨[], rfl, .inr ⟨p, Nat.zero_lt_succ _, .nil, rfl, rfl,
        address, List.mem_cons_self, s.calls, rfl, hanswer⟩⟩

end Family

/-! ## A resolution -/

/-- The question that is asked for this family when the lookup has this id. -/
def FamilyId (id qtype id' : UInt16) : Prop :=
  (qtype = Dns.typeA ∧ id' = id) ∨ (qtype = Dns.typeAaaa ∧ id' = id + 1)

theorem FamilyId.family {id qtype id' : UInt16} (h : FamilyId id qtype id') :
    qtype = Dns.typeA ∨ qtype = Dns.typeAaaa := by
  rcases h with ⟨rfl, -⟩ | ⟨rfl, -⟩
  · exact .inl rfl
  · exact .inr rfl

/-- The calls of a resolution that asks the first `m` addresses for one family, and the first
`n` for the other. -/
def lookups (resolver : Resolver) (name : String) (id : UInt16) (m n : Nat) : List Call :=
  (resolver.addresses.take m).map (lookupCall resolver name Dns.typeA id) ++
    (resolver.addresses.take n).map (lookupCall resolver name Dns.typeAaaa (id + 1))

/-- An answer to one of the two questions, with the chain of the connection it came over. -/
def FamilyAnswer (pki : Pki Cert Name) (net : Network Cert Name) (resolver : Resolver)
    (name : String) (id : UInt16) (made : List Call)
    (leg : Pending Cert Name × List IpAddr) : Prop :=
  ∃ earlier, ∃ a ∈ resolver.addresses, ∃ qtype id',
    earlier ++ [lookupCall resolver name qtype id' a] <+: made ∧ FamilyId id qtype id' ∧
      DohAnswer pki net earlier resolver.hostname a name qtype id' leg.1 leg.2

/-- What is known of each family: there is an answer, or every address refused. -/
def FamiliesAsked (pki : Pki Cert Name) (net : Network Cert Name) (resolver : Resolver)
    (name : String) (id : UInt16) (made : List Call)
    (legs : List (Pending Cert Name × List IpAddr)) : Prop :=
  ∀ qtype id', FamilyId id qtype id' →
    (∃ leg ∈ legs, ∃ earlier a,
      DohAnswer pki net earlier resolver.hostname a name qtype id' leg.1 leg.2) ∨
    ∃ earlier errors,
      earlier ++ resolver.addresses.map (lookupCall resolver name qtype id') <+: made ∧
        RefusedLookups pki net resolver name qtype id' earlier resolver.addresses errors

/-- A name was resolved: each of the legs is an answer, together they gave what was found,
and their chains are what was recorded. -/
structure Resolved (pki : Pki Cert Name) (net : Network Cert Name) (resolver : Resolver)
    (name : String) (id : UInt16) (s : Trail Cert Name) (found : List IpAddr)
    (s' : Trail Cert Name) (legs : List (Pending Cert Name × List IpAddr)) : Prop where
  found_ne_nil : found ≠ []
  found_eq : found = legs.flatMap (·.2)
  legs_length : legs.length ≤ 2
  pending_eq : s'.pending = s.pending ++ legs.map (·.1)
  answers : ∀ leg ∈ legs, FamilyAnswer pki net resolver name id s'.calls leg
  families : FamiliesAsked pki net resolver name id s'.calls legs
  calls : ∃ m n, s'.calls = s.calls ++ lookups resolver name id m n

/-- Every address was asked for both families, after `earlier`, and the message says of each what
it failed with. -/
def AllRefused (pki : Pki Cert Name) (net : Network Cert Name) (resolver : Resolver)
    (name : String) (id : UInt16) (earlier : List Call) (e : Stop) : Prop :=
  ∃ errorsA errorsAaaa : List String,
    RefusedLookups pki net resolver name Dns.typeA id earlier resolver.addresses errorsA ∧
    RefusedLookups pki net resolver name Dns.typeAaaa (id + 1)
      (earlier ++ resolver.addresses.map (lookupCall resolver name Dns.typeA id))
      resolver.addresses errorsAaaa ∧
    e = .err (unresolved resolver name
      (List.zipWith (failureLine Dns.typeA) resolver.addresses errorsA ++
        List.zipWith (failureLine Dns.typeAaaa) resolver.addresses errorsAaaa))

/-- Nothing was resolved, and nothing was recorded. -/
structure Unresolved (pki : Pki Cert Name) (net : Network Cert Name) (resolver : Resolver)
    (name : String) (id : UInt16) (s : Trail Cert Name) (e : Stop) (s' : Trail Cert Name) :
    Prop where
  refused : AllRefused pki net resolver name id s.calls e
  calls_eq : s'.calls = s.calls ++
    lookups resolver name id resolver.addresses.length resolver.addresses.length
  pending_eq : s'.pending = s.pending

section Resolution

variable {pki : Pki Cert Name} {net : Network Cert Name} {resolver : Resolver} {name : String}
  {id : UInt16}

/-- What was found over one family, as at most one leg. -/
theorem FamilyAsked.legs {qtype id' : UInt16} {s s' : Trail Cert Name}
    {result : List IpAddr × List String}
    (h : FamilyAsked pki net resolver name qtype id' resolver.addresses s result s') :
    ∃ legs : List (Pending Cert Name × List IpAddr),
      result.1 = legs.flatMap (·.2) ∧ legs.length ≤ 1 ∧
      s'.pending = s.pending ++ legs.map (·.1) ∧
      (∀ leg ∈ legs, ∃ a ∈ resolver.addresses, ∃ earlier,
        s'.calls = earlier ++ [lookupCall resolver name qtype id' a] ∧
          DohAnswer pki net earlier resolver.hostname a name qtype id' leg.1 leg.2) ∧
      (legs = [] → ∃ errors,
        s'.calls = s.calls ++ resolver.addresses.map (lookupCall resolver name qtype id') ∧
          RefusedLookups pki net resolver name qtype id' s.calls resolver.addresses errors) ∧
      ∃ n, s'.calls = s.calls ++
        (resolver.addresses.take n).map (lookupCall resolver name qtype id') := by
  obtain ⟨errors, -, ⟨hfound, hun⟩ | ⟨p, hans⟩⟩ := h
  · refine ⟨[], hfound, Nat.zero_le 1, ?_, List.forall_mem_nil _,
      fun _ => ⟨_, hun.calls_eq, hun.refused⟩,
      resolver.addresses.length, ?_⟩
    · rw [hun.pending_eq, List.map_nil, List.append_nil]
    · rw [hun.calls_eq, List.take_length]
  · refine ⟨[(p, result.1)], (List.append_nil _).symm, Nat.le_refl 1, hans.pending_eq, ?_,
      fun hnil => absurd hnil (List.cons_ne_nil _ _), _, hans.calls_eq⟩
    rw [List.forall_mem_singleton]
    exact hans.answer

/-- A family over which nothing was found. -/
theorem FamilyAsked.unanswered {qtype id' : UInt16} (hid : FamilyId id qtype id')
    {addresses : List IpAddr} {s s' : Trail Cert Name} {result : List IpAddr × List String}
    (h : FamilyAsked pki net resolver name qtype id' addresses s result s')
    (hnone : result.1 = []) :
    ∃ errors, result.2 = List.zipWith (failureLine qtype) addresses errors ∧
      Unanswered pki net resolver name qtype id' addresses errors s s' := by
  obtain ⟨errors, hfailures, ⟨-, hun⟩ | ⟨p, hans⟩⟩ := h
  · exact ⟨errors, hfailures, hun⟩
  · obtain ⟨_, -, _, -, hanswer⟩ := hans.answer
    exact absurd hnone (hanswer.ne_nil hid.family).1

/-- What resolving a name comes to. -/
theorem resolve_spec (s : Trail Cert Name) :
    Triple (· = s) (resolve pki net resolver name id)
      (fun found s' => ∃ legs, Resolved pki net resolver name id s found s' legs)
      (fun e s' => Unresolved pki net resolver name id s e s') := by
  have hA : FamilyId id Dns.typeA id := .inl ⟨rfl, rfl⟩
  have hAaaa : FamilyId id Dns.typeAaaa (id + 1) := .inr ⟨rfl, rfl⟩
  refine Triple.bind ((askFamily_spec (.inl rfl) resolver.addresses s).weaken
    (fun _ h => h) (fun _ _ h => h) (fun _ _ h => h.elim)) fun a => ?_
  intro s₁ h₁
  refine Triple.bind ((askFamily_spec (.inr rfl) resolver.addresses s₁).weaken
    (fun _ h => h) (fun _ _ h => h) (fun _ _ h => h.elim)) (fun aaaa => ?_) s₁ rfl
  intro s₂ h₂
  by_cases hnone : a.1 ++ aaaa.1 = []
  · obtain ⟨hnoneA, hnoneAaaa⟩ := List.append_eq_nil_iff.mp hnone
    obtain ⟨errorsA, hfailA, hunA⟩ := h₁.unanswered hA hnoneA
    obtain ⟨errorsAaaa, hfailAaaa, hunAaaa⟩ := h₂.unanswered hAaaa hnoneAaaa
    have hun : Unresolved pki net resolver name id s
        (.err (unresolved resolver name (a.2 ++ aaaa.2))) s₂ := by
      refine ⟨⟨errorsA, errorsAaaa, hunA.refused, hunA.calls_eq ▸ hunAaaa.refused, ?_⟩,
        ?_, ?_⟩
      · rw [hfailA, hfailAaaa]
      · rw [hunAaaa.calls_eq, hunA.calls_eq, List.append_assoc, lookups, List.take_length]
      · rw [hunAaaa.pending_eq, hunA.pending_eq]
    dsimp only
    rw [if_pos hnone]
    exact hun
  · obtain ⟨legsA, hfoundA, hlenA, hpendA, hansA, hnoA, m, hcallsA⟩ := h₁.legs
    obtain ⟨legsAaaa, hfoundAaaa, hlenAaaa, hpendAaaa, hansAaaa, hnoAaaa, n, hcallsAaaa⟩ :=
      h₂.legs
    have hlater : s₁.calls <+: s₂.calls := by
      rw [hcallsAaaa]
      exact List.prefix_append _ _
    have hres : Resolved pki net resolver name id s (a.1 ++ aaaa.1) s₂ (legsA ++ legsAaaa) := by
      refine ⟨hnone, ?_, ?_, ?_, ?_, ?_, m, n, ?_⟩
      · rw [hfoundA, hfoundAaaa, List.flatMap_append]
      · rw [List.length_append]
        omega
      · rw [hpendAaaa, hpendA, List.map_append, List.append_assoc]
      · rw [List.forall_mem_append]
        constructor
        · intro leg hleg
          obtain ⟨address, hmem, earlier, hcalls, hanswer⟩ := hansA leg hleg
          exact ⟨earlier, address, hmem, _, _, hcalls ▸ hlater, hA, hanswer⟩
        · intro leg hleg
          obtain ⟨address, hmem, earlier, hcalls, hanswer⟩ := hansAaaa leg hleg
          exact ⟨earlier, address, hmem, _, _, hcalls ▸ List.prefix_rfl, hAaaa, hanswer⟩
      · rintro qtype id' (⟨rfl, rfl⟩ | ⟨rfl, rfl⟩)
        · rcases legsA.eq_nil_or_concat' with hnil | ⟨legs, leg, rfl⟩
          · obtain ⟨errors, hcalls, hrefused⟩ := hnoA hnil
            exact .inr ⟨_, errors, hcalls ▸ hlater, hrefused⟩
          · have hmem : leg ∈ legs ++ [leg] := List.mem_concat_self
            obtain ⟨address, -, earlier, -, hanswer⟩ := hansA leg hmem
            exact .inl ⟨leg, List.mem_append_left _ hmem, earlier, address, hanswer⟩
        · rcases legsAaaa.eq_nil_or_concat' with hnil | ⟨legs, leg, rfl⟩
          · obtain ⟨errors, hcalls, hrefused⟩ := hnoAaaa hnil
            exact .inr ⟨_, errors, hcalls ▸ List.prefix_rfl, hrefused⟩
          · have hmem : leg ∈ legs ++ [leg] := List.mem_concat_self
            obtain ⟨address, -, earlier, -, hanswer⟩ := hansAaaa leg hmem
            exact .inl ⟨leg, List.mem_append_right _ hmem, earlier, address, hanswer⟩
      · rw [hcallsAaaa, hcallsA, List.append_assoc, lookups]
    dsimp only
    rw [if_neg hnone]
    exact ⟨legsA ++ legsAaaa, hres⟩

end Resolution

/-! ## Key establishment -/

/-- The call that establishes keys with an address. -/
def keysCall (host : String) (a : IpAddr) : Call := .keys host a

/-- The addresses were tried in turn up to the first one that established keys. -/
structure KeysFound (pki : Pki Cert Name) (net : Network Cert Name) (host : String)
    (addresses : List IpAddr) (s : Trail Cert Name) (result : IpAddr × Established)
    (s' : Trail Cert Name) (p : Pending Cert Name) : Prop where
  mem : result.1 ∈ addresses
  calls : ∃ n, s'.calls = s.calls ++ (addresses.take n).map (keysCall host)
  pending_eq : s'.pending = s.pending ++ [p]
  agreement : ∃ earlier, earlier ++ [keysCall host result.1] = s'.calls ∧
    KeyAgreement pki net earlier host result.1 p result.2

/-- Key establishment was refused at these addresses, one after the other. -/
def RefusedKeys (pki : Pki Cert Name) (net : Network Cert Name) (host : String) :
    List Call → List IpAddr → List String → Prop :=
  FailedInTurn (keysCall host) fun earlier a e => establish pki net earlier host a = .error e

/-- Every address was tried, and the message is that of the last one. -/
structure KeysRefused (pki : Pki Cert Name) (net : Network Cert Name) (host last : String)
    (addresses : List IpAddr) (s : Trail Cert Name) (e : Stop) (s' : Trail Cert Name) : Prop where
  refused : ∃ errors, RefusedKeys pki net host s.calls addresses errors ∧
    e = .err (errors.getLastD last)
  calls_eq : s'.calls = s.calls ++ addresses.map (keysCall host)

/-- What establishing keys comes to. -/
theorem establishAny_spec {pki : Pki Cert Name} {net : Network Cert Name} {host : String}
    (last : String) (addresses : List IpAddr) (s : Trail Cert Name) :
    Triple (· = s) (establishAny pki net host last addresses)
      (fun result s' => ∃ p, KeysFound pki net host addresses s result s' p)
      (KeysRefused pki net host last addresses s) := by
  induction addresses generalizing s last with
  | nil =>
    refine Triple.stop ?_
    rintro _ rfl
    exact ⟨⟨[], .nil, rfl⟩, (List.append_nil _).symm⟩
  | cons address rest ih =>
    refine Triple.bind ((made_spec s (keysCall host address)).weaken
      (fun _ h => h) (fun _ _ h => h) (fun _ _ h => h.elim)) fun earlier => ?_
    rintro _ ⟨rfl, rfl⟩
    cases hestablish : establish pki net s.calls host address with
    | error e =>
      refine (ih e _).weaken (fun _ h => h) ?_ ?_ _ rfl
      · rintro result s' ⟨p, hmem, ⟨n, hn⟩, hpending, hagreement⟩
        refine ⟨p, List.mem_cons_of_mem _ hmem, ⟨n + 1, ?_⟩, hpending, hagreement⟩
        rw [hn, List.append_assoc]
        rfl
      · rintro e' s' ⟨⟨errors, hrefused, he⟩, hs'⟩
        refine ⟨⟨e :: errors, .cons hestablish hrefused, ?_⟩, ?_⟩
        · rw [he]
          cases errors <;> rfl
        · rw [hs', List.append_assoc]
          rfl
    | ok agreed =>
      obtain ⟨p, e⟩ := agreed
      have hagreement := establish_ok hestablish
      exact ⟨p, List.mem_cons_self, ⟨1, rfl⟩, rfl, s.calls, rfl, hagreement⟩

/-! ## The target of the question -/

/-- Where the time is asked for: the target as it is, or one of the addresses that the name
behind a redirect was resolved to. -/
def TargetFound (pki : Pki Cert Name) (net : Network Cert Name) (resolver : Resolver)
    (keyAddress fallback : IpAddr) (id : UInt16) (s : Trail Cert Name) (address : IpAddr)
    (s' : Trail Cert Name) (legs : List (Pending Cert Name × List IpAddr)) :
    Option String → Prop
  | none => address = fallback ∧ s' = s ∧ legs = []
  | some name => ∃ found, Resolved pki net resolver name (id + 2) s found s' legs ∧
      address ∈ found ∧ ((∃ a ∈ found, a.isIpv4 = keyAddress.isIpv4) →
        address.isIpv4 = keyAddress.isIpv4)

/-- The first candidate of the family, or the first one. -/
theorem choose_candidate (family : Bool) {candidates : List IpAddr} (hne : candidates ≠ []) :
    ∃ address, (candidates.find? fun a => a.isIpv4 = family).or candidates.head? = some address ∧
      address ∈ candidates ∧
      ((∃ a ∈ candidates, a.isIpv4 = family) → address.isIpv4 = family) := by
  cases hfind : candidates.find? fun a => a.isIpv4 = family with
  | some address =>
    have hfamily : address.isIpv4 = family := by simpa using List.find?_some hfind
    exact ⟨address, rfl, List.mem_of_find?_eq_some hfind, fun _ => hfamily⟩
  | none =>
    obtain ⟨address, rest, rfl⟩ := List.exists_cons_of_ne_nil hne
    refine ⟨address, rfl, List.mem_cons_self, ?_⟩
    rintro ⟨a, ha, hfamily⟩
    exact absurd hfamily (by simpa using List.find?_eq_none.mp hfind a ha)

/-- Where the time is asked for. -/
theorem timeAddress_spec {pki : Pki Cert Name} {net : Network Cert Name} {resolver : Resolver}
    (keyAddress fallback : IpAddr) (id : UInt16) (redirect : Option String)
    (s : Trail Cert Name) :
    Triple (· = s) (timeAddress pki net resolver keyAddress fallback id redirect)
      (fun address s' => ∃ legs,
        TargetFound pki net resolver keyAddress fallback id s address s' legs redirect)
      (fun e s' => ∃ name, redirect = some name ∧
        Unresolved pki net resolver name (id + 2) s e s') := by
  cases redirect with
  | none =>
    refine Triple.value ?_
    rintro _ rfl
    exact ⟨[], rfl, rfl, rfl⟩
  | some name =>
    refine Triple.bind ((resolve_spec s).weaken (fun _ h => h) (fun _ _ h => h)
      (fun _ _ h => ⟨name, rfl, h⟩)) fun candidates => ?_
    rintro s' ⟨legs, hresolved⟩
    obtain ⟨address, hchoice, hmem, hfamily⟩ :=
      choose_candidate keyAddress.isIpv4 hresolved.found_ne_nil
    dsimp only
    rw [hchoice]
    exact ⟨legs, candidates, hresolved, hmem, hfamily⟩

/-! ## The question for the time -/

/-- `/dev/urandom` could not be read. -/
def Undrawn {α : Type} (x : Except String α) (e : Stop) : Prop :=
  ∃ error, x = .error error ∧ e = .err ("cannot read /dev/urandom: " ++ error)

/-- What a draw of random bytes comes to. -/
theorem drawn_spec {α : Type} (s : Trail Cert Name) (x : Except String α) :
    Triple (· = s) (drawn x) (fun a s' => x = .ok a ∧ s' = s)
      (fun e s' => Undrawn x e ∧ s' = s) := by
  rintro _ rfl
  cases x with
  | error e => exact ⟨⟨e, rfl, rfl⟩, rfl⟩
  | ok a => exact ⟨rfl, rfl⟩

/-- The time could not be asked for, after `earlier`. -/
def Unasked (net : Network Cert Name) (earlier : List Call) (e : Established) (address : IpAddr)
    (port : UInt16) (err : Stop) : Prop :=
  Undrawn net.uniqueId err ∨ Undrawn net.nonce err ∨
    ∃ uniqueId nonce error, net.uniqueId = .ok uniqueId ∧ net.nonce = .ok nonce ∧
      askTime net earlier e address port uniqueId nonce = .error error ∧ err = .err error

/-- What asking for the time comes to. -/
theorem askFor_spec {net : Network Cert Name} (e : Established) (address : IpAddr)
    (port : UInt16) (s : Trail Cert Name) :
    Triple (· = s) (askFor net e address port)
      (fun t s' => s' = { s with calls := s.calls ++ [.time address port] } ∧
        ∃ uniqueId nonce, net.uniqueId = .ok uniqueId ∧ net.nonce = .ok nonce ∧
          TimeAnswer net s.calls e address port uniqueId nonce t)
      (fun err s' => Unasked net s.calls e address port err ∧
        (s' = s ∨ s' = { s with calls := s.calls ++ [.time address port] })) := by
  refine Triple.bind ((drawn_spec s net.uniqueId).weaken (fun _ h => h) (fun _ _ h => h)
    (fun _ _ h => ⟨.inl h.1, .inl h.2⟩)) fun uniqueId => ?_
  rintro _ ⟨hid, rfl⟩
  refine Triple.bind ((drawn_spec _ net.nonce).weaken (fun _ h => h) (fun _ _ h => h)
    (fun _ _ h => ⟨.inr (.inl h.1), .inl h.2⟩)) (fun nonce => ?_) _ rfl
  rintro s ⟨hnonce, rfl⟩
  refine Triple.bind ((made_spec s (.time address port)).weaken (fun _ h => h)
    (fun _ _ h => h) (fun _ _ h => h.elim)) (fun earlier => ?_) _ rfl
  rintro _ ⟨rfl, rfl⟩
  refine (fallible_spec _ _).weaken (fun _ h => h) ?_ ?_ _ rfl
  · rintro t _ ⟨ht, rfl⟩
    exact ⟨rfl, uniqueId, nonce, hid, hnonce, askTime_ok ht⟩
  · rintro _ _ ⟨⟨error, herror, rfl⟩, rfl⟩
    exact ⟨.inr (.inr ⟨uniqueId, nonce, error, hid, hnonce, herror, rfl⟩), .inr rfl⟩

end HostServices.TimeCorrection
