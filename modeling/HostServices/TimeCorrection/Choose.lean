import Mathlib.Data.List.Dedup
import HostServices.TimeCorrection.Options
import HostServices.TimeCorrection.Quorum

/-!
# Choosing the pairs (`time-correction/src/main.rs`)

`choose` pairs every server it is going to ask with a resolver. Servers are
drawn by operator, or taken by name with `--only`; resolvers are drawn by name and
looked up again by name.

- `chosenServers`, `choose`: the source's function, in its two halves;
- `choose_spec`: what the pairs are, and the only way there can be none;
- `one_vote_per_operator_iff`, `own_resolver_iff`: exactly when every pair has an
  operator, and a resolver, of its own.
-/

namespace HostServices.TimeCorrection

open HostServices.Lib

/-! ## The code -/

/-- One of an operator's servers. The seed is varied per position. -/
def pickServer (o : Options) (seed : UInt64) (index : Nat) (operator : String) :
    Option TimeServer := do
  let theirs := o.servers.filter fun s => s.operator = operator
  let names := theirs.map (·.name)
  let picked := Quorum.sample names 1 (seed + (UInt64.ofNat index + 2))
  let name ← picked.head?
  theirs.find? fun s => s.name = name

/-- The servers that are asked: those named, or one for each operator drawn. -/
def chosenServers (o : Options) (seed : UInt64) : List TimeServer :=
  match o.only with
  | some only => o.named only
  | none =>
    (Quorum.sample (distinctOperators o.servers) o.sample seed).zipIdx.filterMap
      fun (operator, index) => pickServer o seed index operator

/-- The resolver of a drawn name, `expect("sampled from the configured names")`. -/
def lookupResolver (o : Options) (name : String) : Except Stop Resolver :=
  match o.resolvers.find? fun r => r.name = name with
  | some resolver => .ok resolver
  | none => .error (.panic "sampled from the configured names")

/-- Choose which (resolver, server) pairs to ask. -/
def choose (o : Options) (seed : UInt64) : Except Stop (List (Resolver × TimeServer)) :=
  let chosen := chosenServers o seed
  let resolvers := Quorum.sample (o.resolvers.map (·.name)) chosen.length (seed + 1)
  if resolvers.length < chosen.length then
    .error (.err "not enough DoH resolvers to give each server its own")
  else
    (chosen.zip resolvers).mapM fun (server, name) => do
      let resolver ← lookupResolver o name
      .ok (resolver, server)

/-! ## Distinct operators -/

theorem foldl_addOperator_spec (servers : List TimeServer) {seen : List String}
    (hseen : seen.Nodup) :
    (servers.foldl addOperator seen).Nodup ∧
      ∀ op, op ∈ servers.foldl addOperator seen ↔
        op ∈ seen ∨ op ∈ servers.map (·.operator) := by
  induction servers generalizing seen with
  | nil => simp [hseen]
  | cons s servers ih =>
    have hadd : (addOperator seen s).Nodup ∧
        ∀ op, op ∈ addOperator seen s ↔ op ∈ seen ∨ op = s.operator := by
      unfold addOperator
      split
      · rename_i hmem
        refine ⟨hseen, fun op => ?_⟩
        constructor
        · exact .inl
        · rintro (h | rfl)
          · exact h
          · exact hmem
      · rename_i hnot
        refine ⟨?_, fun op => by simp⟩
        rw [List.nodup_append]
        refine ⟨hseen, List.nodup_singleton _, fun a ha b hb => ?_⟩
        rw [List.mem_singleton.mp hb]
        exact fun heq => hnot (heq ▸ ha)
    obtain ⟨hnodup, hmem⟩ := ih hadd.1
    refine ⟨hnodup, fun op => ?_⟩
    rw [List.foldl_cons, hmem, hadd.2, List.map_cons, List.mem_cons, or_assoc]

/-- No operator is listed twice. -/
theorem nodup_distinctOperators (servers : List TimeServer) :
    (distinctOperators servers).Nodup :=
  (foldl_addOperator_spec servers List.nodup_nil).1

/-- Exactly the operators of the servers are listed. -/
theorem mem_distinctOperators {servers : List TimeServer} {op : String} :
    op ∈ distinctOperators servers ↔ op ∈ servers.map (·.operator) := by
  rw [distinctOperators, (foldl_addOperator_spec servers List.nodup_nil).2]
  simp

theorem distinctOperators_perm (servers : List TimeServer) :
    (distinctOperators servers).Perm (servers.map (·.operator)).dedup := by
  rw [List.perm_ext_iff_of_nodup (nodup_distinctOperators servers) (List.nodup_dedup _)]
  intro op
  rw [mem_distinctOperators, List.mem_dedup]

/-- As many operators as servers: no operator twice. -/
theorem nodup_operators_of_length_le {servers : List TimeServer}
    (h : servers.length ≤ (distinctOperators servers).length) :
    (servers.map (·.operator)).Nodup := by
  rw [(distinctOperators_perm servers).length_eq] at h
  have hsub := List.dedup_sublist (servers.map (·.operator))
  have heq := hsub.eq_of_length_le (by rwa [List.length_map])
  rw [← heq]
  exact List.nodup_dedup _

/-! ## The servers -/

theorem sample_one_mem {names : List String} (hne : names ≠ []) (seed : UInt64) :
    ∃ name ∈ names, (Quorum.sample names 1 seed).head? = some name := by
  obtain ⟨i, hi, hsample⟩ := Quorum.sample_succ hne 0 seed
  exact ⟨names[i], List.getElem_mem hi, by rw [hsample]; rfl⟩

/-- Every operator that is configured has a server to pick. -/
theorem pickServer_spec {o : Options} {operator : String}
    (hop : operator ∈ o.servers.map (·.operator)) (seed : UInt64) (index : Nat) :
    ∃ s ∈ o.servers, pickServer o seed index operator = some s ∧ s.operator = operator := by
  let theirs := o.servers.filter fun s => s.operator = operator
  have hne : theirs.map (·.name) ≠ [] := by
    obtain ⟨s, hs, rfl⟩ := List.mem_map.mp hop
    have hmem : s ∈ theirs := List.mem_filter.mpr ⟨hs, by simp⟩
    exact List.ne_nil_of_mem (List.mem_map_of_mem hmem)
  obtain ⟨name, hname, hhead⟩ := sample_one_mem hne (seed + (UInt64.ofNat index + 2))
  obtain ⟨s, hs, hsname⟩ := List.mem_map.mp hname
  have hfind : (theirs.find? fun s => s.name = name).isSome :=
    List.find?_isSome.mpr ⟨s, hs, by simpa using hsname⟩
  obtain ⟨found, hfound⟩ := Option.isSome_iff_exists.mp hfind
  obtain ⟨hmem, hop'⟩ := List.mem_filter.mp (List.mem_of_find?_eq_some hfound)
  refine ⟨found, hmem, ?_, by simpa using hop'⟩
  show ((Quorum.sample (theirs.map (·.name)) 1 _).head?.bind
    fun name => theirs.find? fun s => s.name = name) = some found
  rw [hhead]
  exact hfound

/-- Picking a value for every entry of a list and taking what was picked for
gives the list back. -/
theorem map_filterMap_zipIdx {α β : Type} {l : List α} {f : α × Nat → Option β}
    {g : β → α} (h : ∀ a ∈ l, ∀ i, ∃ b, f (a, i) = some b ∧ g b = a) (n : Nat) :
    ((l.zipIdx n).filterMap f).map g = l := by
  induction l generalizing n with
  | nil => rfl
  | cons a l ih =>
    obtain ⟨b, hb, hgb⟩ := h a List.mem_cons_self n
    rw [List.zipIdx_cons, List.filterMap_cons, hb]
    show g b :: _ = _
    rw [hgb, ih fun a' ha' => h a' (List.mem_cons_of_mem a ha')]

/-- Without `--only`, the operators asked are the operators drawn. -/
theorem map_operator_chosenServers {o : Options} (honly : o.only = none) (seed : UInt64) :
    (chosenServers o seed).map (·.operator)
      = Quorum.sample (distinctOperators o.servers) o.sample seed := by
  rw [chosenServers, honly]
  refine map_filterMap_zipIdx (fun op hop i => ?_) 0
  have hconf := mem_distinctOperators.mp ((Quorum.sample_subperm _ _ _).subset hop)
  obtain ⟨s, -, hpick, hs⟩ := pickServer_spec hconf seed i
  exact ⟨s, hpick, hs⟩

/-- How many pairs a configuration asks for: the sample, or every server that
`--only` names. -/
def Options.pairCount (o : Options) : Nat :=
  match o.only with
  | none => o.sample
  | some only => (o.named only).length

/-- Of accepted options there are as many servers as pairs. -/
theorem length_chosenServers {o : Options} (hacc : o.Accepted) (seed : UInt64) :
    (chosenServers o seed).length = o.pairCount := by
  cases honly : o.only with
  | none =>
    have hlen := congrArg List.length (map_operator_chosenServers honly seed)
    rw [List.length_map, Quorum.length_sample] at hlen
    rw [hlen, Options.pairCount, honly]
    exact Nat.min_eq_left hacc.sample_le_operators
  | some only => rw [chosenServers, Options.pairCount, honly]

/-! ## The pairs -/

/-- A name drawn from the configured ones is found again, at its first entry. -/
theorem lookupResolver_spec {o : Options} {name : String}
    (hname : name ∈ o.resolvers.map (·.name)) :
    ∃ r ∈ o.resolvers, lookupResolver o name = .ok r ∧ r.name = name := by
  obtain ⟨r, hr, hrname⟩ := List.mem_map.mp hname
  have hfind : (o.resolvers.find? fun r => r.name = name).isSome :=
    List.find?_isSome.mpr ⟨r, hr, by simpa using hrname⟩
  obtain ⟨found, hfound⟩ := Option.isSome_iff_exists.mp hfind
  refine ⟨found, List.mem_of_find?_eq_some hfound, ?_, ?_⟩
  · rw [lookupResolver, hfound]
  · simpa using List.find?_some hfound

/-- What the pairs of a run are: the chosen servers, in order, each with the
resolver of the name drawn for it. -/
structure PairsOf (o : Options) (seed : UInt64) (pairs : List (Resolver × TimeServer)) :
    Prop where
  servers : pairs.map (·.2) = chosenServers o seed
  names : pairs.map (·.1.name)
    = Quorum.sample (o.resolvers.map (·.name)) o.pairCount (seed + 1)
  lookup : ∀ p ∈ pairs, p.1 ∈ o.resolvers ∧ lookupResolver o p.1.name = .ok p.1

/-- Looking up the drawn names succeeds for all of them. -/
theorem zip_lookup_ok {o : Options} {servers : List TimeServer} {names : List String}
    (hlen : names.length = servers.length)
    (hnames : ∀ name ∈ names, name ∈ o.resolvers.map (·.name)) :
    ∃ pairs, ((servers.zip names).mapM fun (server, name) => do
        let resolver ← lookupResolver o name
        Except.ok (resolver, server)) = .ok pairs ∧
      pairs.map (·.2) = servers ∧ pairs.map (·.1.name) = names ∧
      ∀ p ∈ pairs, p.1 ∈ o.resolvers ∧ lookupResolver o p.1.name = .ok p.1 := by
  induction servers generalizing names with
  | nil =>
    obtain rfl := List.eq_nil_of_length_eq_zero hlen
    exact ⟨[], rfl, rfl, rfl, fun p hp => nomatch hp⟩
  | cons s servers ih =>
    obtain _ | ⟨name, names⟩ := names
    · cases hlen
    obtain ⟨r, hr, hlookup, hrname⟩ := lookupResolver_spec (hnames name List.mem_cons_self)
    obtain ⟨pairs, hpairs, hservers, hnames', hall⟩ :=
      ih (Nat.succ.inj hlen) fun n hn => hnames n (List.mem_cons_of_mem name hn)
    refine ⟨(r, s) :: pairs, ?_, ?_, ?_, ?_⟩
    · rw [List.zip_cons_cons, List.mapM_cons]
      refine bind_eq_ok.mpr ⟨(r, s), bind_eq_ok.mpr ⟨r, hlookup, rfl⟩, ?_⟩
      exact bind_eq_ok.mpr ⟨pairs, hpairs, rfl⟩
    · rw [List.map_cons, hservers]
    · rw [List.map_cons, hnames', hrname]
    · intro p hp
      rcases List.mem_cons.mp hp with rfl | hp
      · refine ⟨hr, ?_⟩
        dsimp only
        rw [hrname, hlookup]
      · exact hall p hp

/-- **What `choose` does**: it pairs every chosen server with a resolver, unless
there are fewer resolvers than servers; the `expect` never fires. -/
theorem choose_spec {o : Options} (hacc : o.Accepted) (seed : UInt64) :
    (o.resolvers.length < o.pairCount ∧
      choose o seed = .error (.err "not enough DoH resolvers to give each server its own")) ∨
    (o.pairCount ≤ o.resolvers.length ∧
      ∃ pairs, choose o seed = .ok pairs ∧ PairsOf o seed pairs) := by
  have hlen := length_chosenServers hacc seed
  let names := Quorum.sample (o.resolvers.map (·.name)) (chosenServers o seed).length (seed + 1)
  have hnames : names.length = min o.pairCount o.resolvers.length := by
    rw [Quorum.length_sample, hlen, List.length_map]
  rcases Nat.lt_or_ge o.resolvers.length o.pairCount with hlt | hge
  · refine .inl ⟨hlt, if_pos ?_⟩
    show names.length < _
    omega
  · refine .inr ⟨hge, ?_⟩
    obtain ⟨pairs, hpairs, hservers, hnames', hlookup⟩ :=
      zip_lookup_ok (show names.length = (chosenServers o seed).length by omega)
        fun name hname => (Quorum.sample_subperm _ _ _).subset hname
    refine ⟨pairs, ?_, hservers, ?_, hlookup⟩
    · refine (if_neg ?_).trans hpairs
      show ¬ names.length < _
      omega
    · rw [hnames']
      show Quorum.sample _ (chosenServers o seed).length _ = _
      rw [hlen]

/-! ## One vote per organisation -/

/-- How many votes a configuration calls for: the sample, or one for every name
in `--only`. -/
def Options.votesExpected (o : Options) : Nat :=
  match o.only with
  | none => o.sample
  | some only => only.length

/-- **One vote per organisation, exactly when**: the pairs of an accepted command
line have pairwise distinct operators and are as many as it calls for if and only
if `--only`, when given, lists as many names as there are servers that carry one
of them. -/
theorem one_vote_per_operator_iff {args : List String} {o : Options}
    (hargs : parseArgs args = .ok (.run o)) {seed : UInt64}
    {pairs : List (Resolver × TimeServer)} (hpairs : choose o seed = .ok pairs) :
    ((pairs.map (·.2.operator)).Nodup ∧ pairs.length = o.votesExpected) ↔
      ∀ only, o.only = some only → (o.named only).length = only.length := by
  have hacc := parseArgs_eq_run hargs
  obtain ⟨-, herr⟩ | ⟨-, pairs', hok, hof⟩ := choose_spec hacc seed
  · rw [hpairs] at herr
    cases herr
  rw [hpairs] at hok
  cases hok
  have hops : pairs.map (·.2.operator) = (chosenServers o seed).map (·.operator) := by
    rw [← hof.servers, List.map_map]
    rfl
  have hlen : pairs.length = o.pairCount := by
    rw [← length_chosenServers hacc seed, ← hof.servers, List.length_map]
  rw [hops, hlen]
  cases honly : o.only with
  | none =>
    -- sampling: the operators are a draw from distinct ones
    constructor
    · rintro - only hsome
      cases hsome
    · intro _
      rw [map_operator_chosenServers honly, Options.pairCount, Options.votesExpected, honly]
      exact ⟨Quorum.nodup_sample (nodup_distinctOperators _) _ _, rfl⟩
  | some only =>
    rw [chosenServers, Options.pairCount, Options.votesExpected, honly]
    constructor
    · rintro ⟨-, hcount⟩ only' hsome
      cases hsome
      exact hcount
    · intro h
      have hcount := h only rfl
      refine ⟨nodup_operators_of_length_le ?_, hcount⟩
      dsimp only
      rw [hcount]
      exact hacc.only_le_operators only honly

/-- Two resolvers and two operators, one of which runs two servers. -/
def sampleArgs : List String :=
  ["--doh", "r1=dns1@192.0.2.1", "--doh", "r2=dns2@192.0.2.2",
    "--nts", "a1=t1@opA", "--nts", "a2=t2@opA", "--nts", "b=t3@opB"]

/-- Two resolvers, and two operators of which one has two servers. -/
def sampleOptions : Options :=
  { resolvers := [⟨"r1", "dns1", [.v4 0xC0000201#32]⟩, ⟨"r2", "dns2", [.v4 0xC0000202#32]⟩]
    servers := [⟨"a1", "t1", "opA"⟩, ⟨"a2", "t2", "opA"⟩, ⟨"b", "t3", "opB"⟩] }

theorem one_vote_per_operator_iff_sampled :
    parseArgs sampleArgs = .ok (.run sampleOptions) ∧
      ∃ pairs, choose sampleOptions 7 = .ok pairs ∧
        (pairs.map (·.2.operator)).Nodup ∧ pairs.length = 2 := by
  have hargs : parseArgs sampleArgs = .ok (.run sampleOptions) := by decide +kernel
  refine ⟨hargs, ?_⟩
  obtain ⟨hlt, -⟩ | ⟨-, pairs, hok, -⟩ := choose_spec (parseArgs_eq_run hargs) 7
  · exact absurd hlt (by decide)
  · refine ⟨pairs, hok, (one_vote_per_operator_iff hargs hok).mpr ?_⟩
    intro only hsome
    cases hsome

/-- A server name given twice, for two servers of one operator: `--only` lists one
name and two pairs come out, both of that operator. -/
theorem repeated_server_name_votes_twice :
    ∃ args o seed pairs, parseArgs args = .ok (.run o) ∧ choose o seed = .ok pairs ∧
      ¬ (pairs.map (·.2.operator)).Nodup ∧ pairs.length ≠ o.votesExpected := by
  let o : Options :=
    { resolvers := sampleOptions.resolvers
      servers := [⟨"a", "t1", "opA"⟩, ⟨"a", "t2", "opA"⟩, ⟨"b", "t3", "opB"⟩]
      only := some ["a"] }
  refine ⟨["--doh", "r1=dns1@192.0.2.1", "--doh", "r2=dns2@192.0.2.2", "--nts", "a=t1@opA",
      "--nts", "a=t2@opA", "--nts", "b=t3@opB", "--only", "a"], o, 7,
    [(⟨"r1", "dns1", [.v4 0xC0000201#32]⟩, ⟨"a", "t1", "opA"⟩),
      (⟨"r2", "dns2", [.v4 0xC0000202#32]⟩, ⟨"a", "t2", "opA"⟩)], ?_, ?_, ?_, ?_⟩ <;>
    decide +kernel

/-! ## A resolver of its own for every pair -/

/-- The positions in the list of resolvers that a seed draws. -/
def drawnResolvers (o : Options) (seed : UInt64) : List Nat :=
  Quorum.sample (List.range o.resolvers.length) o.pairCount (seed + 1)

/-- The resolvers at the drawn positions carry pairwise distinct names. -/
def DrawnApart (o : Options) (seed : UInt64) : Prop :=
  ∀ i ∈ drawnResolvers o seed, ∀ j ∈ drawnResolvers o seed,
    o.resolvers[i]?.map (·.name) = o.resolvers[j]?.map (·.name) → i = j

/-- The names drawn are those at the positions drawn. -/
theorem map_some_sample_names (o : Options) (seed : UInt64) :
    (Quorum.sample (o.resolvers.map (·.name)) o.pairCount (seed + 1)).map some
      = (drawnResolvers o seed).map fun i => o.resolvers[i]?.map (·.name) := by
  rw [Quorum.map_some_sample, List.length_map, drawnResolvers]
  exact List.map_congr_left fun i _ => List.getElem?_map

/-- The resolvers are drawn apart just if no name is drawn twice. -/
theorem drawnApart_iff_nodup (o : Options) (seed : UInt64) :
    DrawnApart o seed ↔
      (Quorum.sample (o.resolvers.map (·.name)) o.pairCount (seed + 1)).Nodup := by
  have hdrawn : (drawnResolvers o seed).Nodup := Quorum.nodup_sample List.nodup_range _ _
  rw [← List.nodup_map_iff (Option.some_injective _), map_some_sample_names,
    List.nodup_map_iff_inj_on hdrawn]
  rfl

/-- Distinct names draw apart whatever the seed. -/
theorem drawnApart_of_nodup {o : Options} (h : (o.resolvers.map (·.name)).Nodup)
    (seed : UInt64) : DrawnApart o seed :=
  (drawnApart_iff_nodup o seed).mpr (Quorum.nodup_sample h _ _)

/-- A pair's resolver is determined by the name drawn for it. -/
theorem PairsOf.nodup_resolvers_iff {o : Options} {seed : UInt64}
    {pairs : List (Resolver × TimeServer)} (hof : PairsOf o seed pairs) :
    (pairs.map (·.1)).Nodup ↔ (pairs.map (·.1.name)).Nodup := by
  have hcomp : pairs.map (·.1.name) = (pairs.map (·.1)).map (·.name) := by
    rw [List.map_map]
    rfl
  rw [hcomp]
  constructor
  · intro h
    refine h.map_on fun r hr r' hr' heq => ?_
    obtain ⟨p, hp, rfl⟩ := List.mem_map.mp hr
    obtain ⟨p', hp', rfl⟩ := List.mem_map.mp hr'
    have hlook := (hof.lookup p hp).2
    rw [heq, (hof.lookup p' hp').2] at hlook
    exact (Except.ok.inj hlook).symm
  · exact List.Nodup.of_map _

/-- **A resolver of its own for every pair, exactly when**: `choose` succeeds with
pairwise distinct configured resolvers if and only if there are as many resolvers
as pairs to ask and the positions drawn among them carry distinct names. -/
theorem own_resolver_iff {args : List String} {o : Options}
    (hargs : parseArgs args = .ok (.run o)) (seed : UInt64) :
    (∃ pairs, choose o seed = .ok pairs ∧ (pairs.map (·.1)).Nodup ∧
        ∀ p ∈ pairs, p.1 ∈ o.resolvers) ↔
      o.pairCount ≤ o.resolvers.length ∧ DrawnApart o seed := by
  rw [drawnApart_iff_nodup]
  obtain ⟨hlt, herr⟩ | ⟨hle, pairs, hok, hof⟩ := choose_spec (parseArgs_eq_run hargs) seed
  · constructor
    · rintro ⟨pairs, hok, -⟩
      rw [herr] at hok
      cases hok
    · rintro ⟨hle, -⟩
      omega
  · rw [← hof.names, ← hof.nodup_resolvers_iff]
    constructor
    · rintro ⟨pairs', hok', hnodup, -⟩
      rw [hok] at hok'
      cases hok'
      exact ⟨hle, hnodup⟩
    · rintro ⟨-, hnodup⟩
      exact ⟨pairs, hok, hnodup, fun p hp => (hof.lookup p hp).1⟩

theorem own_resolver_iff_sampled :
    parseArgs sampleArgs = .ok (.run sampleOptions) ∧
      ∃ pairs, choose sampleOptions 7 = .ok pairs ∧ (pairs.map (·.1)).Nodup ∧
        ∀ p ∈ pairs, p.1 ∈ sampleOptions.resolvers := by
  have hargs : parseArgs sampleArgs = .ok (.run sampleOptions) := by decide +kernel
  refine ⟨hargs, (own_resolver_iff hargs 7).mpr ⟨by decide, drawnApart_of_nodup ?_ 7⟩⟩
  decide

/-- Two resolvers under one name: both pairs are handed the first. And a server
name given three times, listed once: three pairs, for which two resolvers are not
enough. -/
theorem repeated_names_share_or_lack_resolver :
    (∃ args o seed pairs, parseArgs args = .ok (.run o) ∧ choose o seed = .ok pairs ∧
      ¬ (pairs.map (·.1)).Nodup) ∧
    ∃ args o seed e, parseArgs args = .ok (.run o) ∧ choose o seed = .error e := by
  constructor
  · let o : Options :=
      { resolvers := [⟨"r", "dns1", [.v4 0xC0000201#32]⟩, ⟨"r", "dns2", [.v4 0xC0000202#32]⟩]
        servers := [⟨"a", "t1", "opA"⟩, ⟨"b", "t3", "opB"⟩] }
    refine ⟨["--doh", "r=dns1@192.0.2.1", "--doh", "r=dns2@192.0.2.2", "--nts", "a=t1@opA",
        "--nts", "b=t3@opB"], o, 7,
      [(⟨"r", "dns1", [.v4 0xC0000201#32]⟩, ⟨"b", "t3", "opB"⟩),
        (⟨"r", "dns1", [.v4 0xC0000201#32]⟩, ⟨"a", "t1", "opA"⟩)], ?_, ?_, ?_⟩ <;>
      decide +kernel
  · let o : Options :=
      { resolvers := sampleOptions.resolvers
        servers := [⟨"a", "t1", "opA"⟩, ⟨"a", "t2", "opA"⟩, ⟨"a", "t3", "opB"⟩]
        only := some ["a"] }
    refine ⟨["--doh", "r1=dns1@192.0.2.1", "--doh", "r2=dns2@192.0.2.2", "--nts", "a=t1@opA",
        "--nts", "a=t2@opA", "--nts", "a=t3@opB", "--only", "a"], o, 7,
      .err "not enough DoH resolvers to give each server its own", ?_, ?_⟩ <;>
      decide +kernel

end HostServices.TimeCorrection
