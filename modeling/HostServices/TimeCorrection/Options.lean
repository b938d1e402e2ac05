import HostServices.Lib.FromStr
import HostServices.Lib.Fallible

/-!
# The command line (`time-correction/src/main.rs`)

What the program is asked to do: the resolvers and servers it may use, how many
operators it has to hear, and the bounds on their answers.

- `Options`, `Action`: what a command line means;
- `parseArgs`: the loop over the arguments, then the arity rules;
- `Options.Accepted`, `parseArgs_eq_run`: what holds of every configuration a
  run starts with.
-/

namespace HostServices.TimeCorrection

open HostServices.Lib

/-- A DoH resolver: pinned addresses, dialled directly. -/
structure Resolver where
  name : String
  hostname : String
  addresses : List IpAddr
  deriving DecidableEq, Repr

/-- An NTS server. `operator` is the voting identity. -/
structure TimeServer where
  name : String
  hostname : String
  operator : String
  deriving DecidableEq, Repr

/-- `Options`, with the defaults of the command line. -/
structure Options where
  resolvers : List Resolver := []
  servers : List TimeServer := []
  sample : Nat := 2
  tolerance : Int64 := 60
  floor : Int64 := 0
  only : Option (List String) := none
  /-- in seconds -/
  timeout : Nat := 10
  force : Bool := false
  dryRun : Bool := false
  deriving DecidableEq, Repr

/-! ## Specifications of resolvers and servers -/

/-- `split_spec`: `NAME=HOSTNAME@TAIL`. -/
def splitSpec (spec kind : String) : Except String (String × String × String) :=
  match splitOnce '=' spec with
  | none => .error s!"{kind} {debugStr spec} is not NAME=HOSTNAME@..."
  | some (name, rest) =>
    match splitOnce '@' rest with
    | none => .error s!"{kind} {debugStr spec} has nothing after @"
    | some (hostname, tail) =>
      if name = "" then .error s!"{kind} {debugStr spec} has an empty name"
      else if hostname = "" then .error s!"{kind} {debugStr spec} has an empty hostname"
      else if tail = "" then .error s!"{kind} {debugStr spec} has nothing after @"
      else .ok (name, hostname, tail)

/-- `parse_resolver` -/
def parseResolver (spec : String) : Except String Resolver := do
  let (name, hostname, tail) ← splitSpec spec "resolver"
  let addresses ← ((splitBy ',' tail).filter (· ≠ "")).mapM fun a =>
    match parseIpAddr a with
    | some address => .ok address
    | none => .error s!"resolver {name}: {debugStr a} is not an IP address"
  if addresses = [] then .error s!"resolver {name} has no addresses"
  else .ok { name, hostname, addresses }

/-- `parse_server` -/
def parseServer (spec : String) : Except String TimeServer := do
  let (name, hostname, operator) ← splitSpec spec "server"
  .ok { name, hostname, operator }

/-! ## The arguments -/

/-- `Action`: what the command line asks for. -/
inductive Action
  | help
  | run (options : Options)
  deriving DecidableEq, Repr

/-- The arguments that take a value. -/
inductive Valued
  | doh | nts | sample | tolerance | floor | timeout | only
  deriving DecidableEq, Repr

/-- A flag of the command line. -/
inductive Flag
  | help | force | dryRun
  | valued (v : Valued)
  deriving DecidableEq, Repr

/-- The flag that an argument is. -/
def Flag.ofArg : String → Option Flag
  | "--help" | "-h" => some .help
  | "--doh" => some (.valued .doh)
  | "--nts" => some (.valued .nts)
  | "--sample" => some (.valued .sample)
  | "--tolerance" => some (.valued .tolerance)
  | "--floor" => some (.valued .floor)
  | "--timeout" => some (.valued .timeout)
  | "--only" => some (.valued .only)
  | "--force" => some .force
  | "--dry-run" => some .dryRun
  | _ => none

/-- `parse().map_err(..)` of a numeric argument. -/
def number {α : Type} (arg : String) : Option α → Except String α
  | some n => .ok n
  | none => .error s!"{arg} needs a number"

/-- What an argument with its value does to the options. -/
def Options.set (o : Options) (value : String) : Valued → Except String Options
  | .doh => do
    let r ← parseResolver value
    .ok { o with resolvers := o.resolvers ++ [r] }
  | .nts => do
    let s ← parseServer value
    .ok { o with servers := o.servers ++ [s] }
  | .sample => do .ok { o with sample := ← number "--sample" (parseUnsigned (2 ^ 64) value) }
  | .tolerance => do .ok { o with tolerance := ← number "--tolerance" (parseI64 value) }
  | .floor => do .ok { o with floor := ← number "--floor" (parseI64 value) }
  | .timeout => do .ok { o with timeout := ← number "--timeout" (parseUnsigned (2 ^ 64) value) }
  | .only => .ok { o with only := some ((splitBy ',' value).filter (· ≠ "")) }

/-- `while let Some(arg) = args.next() { .. }`; `none` is `--help`. -/
def parseLoop (o : Options) : List String → Except String (Option Options)
  | [] => .ok (some o)
  | arg :: args =>
    match Flag.ofArg arg with
    | some .help => .ok none
    | some .force => parseLoop { o with force := true } args
    | some .dryRun => parseLoop { o with dryRun := true } args
    | some (.valued v) =>
      match args with
      | [] => .error s!"{arg} needs a value"
      | value :: args =>
        match o.set value v with
        | .error e => .error e
        | .ok o => parseLoop o args
    | none => .error s!"unknown argument {debugStr arg}"

/-- One round of the loop of `distinct_operators`. -/
def addOperator (operators : List String) (server : TimeServer) : List String :=
  if server.operator ∈ operators then operators else operators ++ [server.operator]

/-- `distinct_operators`: each at its first place. -/
def distinctOperators (servers : List TimeServer) : List String :=
  servers.foldl addOperator []

/-- The servers whose name `--only` lists. -/
def Options.named (o : Options) (only : List String) : List TimeServer :=
  o.servers.filter fun s => s.name ∈ only

/-- The rules of `--only`. -/
def checkOnly (o : Options) (only : List String) : Except String Unit :=
  if only = [] then .error "--only needs at least one name"
  else
    match only.find? fun name => !o.servers.any (·.name = name) with
    | some name => .error s!"--only names {debugStr name}, which is not configured"
    | none =>
      let operators := distinctOperators (o.named only)
      let joined := ", ".intercalate operators
      if operators.length < only.length then
        .error (s!"--only names {only.length} servers but only {operators.length} distinct " ++
          s!"operators ({joined}); servers run by the same organisation cannot cross-check " ++
          "each other, so name at most one per operator")
      else if o.resolvers.length < only.length then
        .error (s!"--only names {only.length} servers but only {o.resolvers.length} DoH " ++
          "resolvers are configured; each pair uses a different one")
      else .ok ()

/-- What is required of the options once the arguments are used up. -/
def checkArity (o : Options) : Except String Unit :=
  if o.resolvers = [] then .error "no --doh resolver given"
  else if o.servers = [] then .error "no --nts server given"
  else if o.sample = 0 then .error "--sample must be at least 1"
  else
    let operators := distinctOperators o.servers
    if operators.length < o.sample then
      .error (s!"--sample {o.sample} exceeds the {operators.length} distinct NTS operators " ++
        "configured; servers run by the same organisation cannot cross-check each other")
    else if o.resolvers.length < o.sample then
      .error (s!"--sample {o.sample} exceeds the {o.resolvers.length} DoH resolvers " ++
        "configured; each pair uses a different one")
    else
      match o.only with
      | none => .ok ()
      | some only => checkOnly o only

/-- `parse_args` -/
def parseArgs (args : List String) : Except String Action := do
  match ← parseLoop {} args with
  | none => .ok .help
  | some o =>
    checkArity o
    .ok (.run o)

/-! ## What an accepted command line guarantees -/

/-- The arity rules, as facts about the options. -/
structure Options.Accepted (o : Options) : Prop where
  sample_pos : 0 < o.sample
  sample_le_operators : o.sample ≤ (distinctOperators o.servers).length
  sample_le_resolvers : o.sample ≤ o.resolvers.length
  only_ne_nil : ∀ only, o.only = some only → only ≠ []
  only_le_operators : ∀ only, o.only = some only →
    only.length ≤ (distinctOperators (o.named only)).length
  only_le_resolvers : ∀ only, o.only = some only → only.length ≤ o.resolvers.length

/-- The named servers that are accepted. -/
theorem checkOnly_ok {o : Options} {only : List String} (h : checkOnly o only = .ok ()) :
    only ≠ [] ∧ only.length ≤ (distinctOperators (o.named only)).length ∧
      only.length ≤ o.resolvers.length := by
  unfold checkOnly at h
  split at h
  · cases h
  · rename_i hne
    split at h
    · cases h
    · dsimp only at h
      split_ifs at h with hops hres
      exact ⟨hne, by omega, by omega⟩

/-- The options that are accepted. -/
theorem checkArity_ok {o : Options} (h : checkArity o = .ok ()) : o.Accepted := by
  unfold checkArity at h
  dsimp only at h
  split_ifs at h with hres hsrv hzero hops hdoh
  have hsample : 0 < o.sample ∧ o.sample ≤ (distinctOperators o.servers).length ∧
      o.sample ≤ o.resolvers.length := by omega
  cases honly : o.only with
  | none =>
    refine ⟨hsample.1, hsample.2.1, hsample.2.2, ?_, ?_, ?_⟩ <;>
    · intro only hsome
      rw [honly] at hsome
      cases hsome
  | some named =>
    rw [honly] at h
    obtain ⟨hne, hle, hle'⟩ := checkOnly_ok h
    refine ⟨hsample.1, hsample.2.1, hsample.2.2, ?_, ?_, ?_⟩ <;>
    · intro only hsome
      rw [honly] at hsome
      cases hsome
      assumption

/-- Only accepted options reach a run. -/
theorem parseArgs_eq_run {args : List String} {o : Options}
    (h : parseArgs args = .ok (.run o)) : o.Accepted := by
  obtain ⟨parsed, -, h⟩ := bind_eq_ok.mp h
  cases parsed with
  | none => cases h
  | some o' =>
    obtain ⟨⟨⟩, hcheck, h⟩ := bind_eq_ok.mp h
    cases h
    exact checkArity_ok hcheck

end HostServices.TimeCorrection
