import HostServices.Lib.Protocol
import HostServices.Scripts.GuardedBuild
import HostServices.Scripts.UpgradePlan

/-!
# The build before an upgrade (`modules/auto-upgrade.nix`)

`nixos-upgrade-prebuild` finds out what nix is going to build, puts the derivations in the order
in which the store lists them, and builds them one after the other, each under the disk guard.
It ends at the first command that fails.

- `prebuild`: the script;
- `buildAll_spec`: the loop over the derivations;
- `prebuild_in_order`: what is built, in which order, and what the status says.
-/

namespace HostServices.Scripts.Prebuild

open HostServices.Lib HostServices.Scripts.UpgradePlan

/-- A derivation's path. -/
abbrev Drv := List UInt8

/-! ## The script -/

/-- The status of a command that failed. -/
abbrev Failure := { status : Nat // status ≠ 0 }

/-- What nix answers. -/
structure Nix where
  /-- `nix flake update` -/
  update : Except Failure Unit
  /-- `nix eval --raw`: the derivation of the whole system -/
  eval : Except Failure Drv
  /-- `nix build --dry-run` -/
  dryRun : Drv → Except Failure TextFile
  /-- what `nix-store --query --requisites` prints, whether it fails or not -/
  requisites : Drv → TextFile

/-- A run of `guarded_build` that has returned. -/
structure GuardedRun (c : GuardedBuild.Config) where
  guard : String
  state : GuardedBuild.State
  rc : Nat
  reached : Reached (GuardedBuild.step c) (fun _ _ => True) { guard } state
  returned : state.parent = .returned rc

/-- A derivation that `guarded_build` was called for. -/
structure Built (config : Drv → GuardedBuild.Config) where
  drv : Drv
  run : GuardedRun (config drv)

section

variable (collation : Collation (List UInt8)) {config : Drv → GuardedBuild.Config} (nix : Nix)
  (run : List (Built config) → (drv : Drv) → GuardedRun (config drv))

/-- The loop over the derivations; how a build goes may depend on those before it. -/
def buildAll : List (Built config) → List Drv → Nat × List (Built config)
  | done, [] => (0, done)
  | done, drv :: rest =>
    let built : Built config := ⟨drv, run done drv⟩
    if built.run.rc = 0 then buildAll (done ++ [built]) rest
    else (built.run.rc, done ++ [built])

/-- `grep '[.]drv$'` -/
def isDrv (line : List UInt8) : Bool := drvSuffix.isSuffixOf line

/-- `awk 'NR == FNR { want[$0] = 1; next } ($0 in want)'`, of a first file with a line in it. -/
def wanted (todo topo : List Drv) : List Drv := topo.filter todo.contains

/-- The status of the script, and what it called `guarded_build` for. -/
def prebuild : Nat × List (Built config) :=
  match nix.update with
  | .error status => (status, [])
  | .ok () =>
    match nix.eval with
    | .error status => (status, [])
    | .ok drv =>
      match nix.dryRun drv with
      | .error status => (status, [])
      | .ok plan =>
        let parsed := parsePlan collation plan
        if parsed.status ≠ 0 then (parsed.status, [])
        else
          let count := parsed.output.length
          if count = 0 then (0, [])
          else
            let topo := (nix.requisites drv).lines.filter isDrv
            let ordered := wanted parsed.output topo
            -- a derivation of the plan that the closure does not list
            if ordered.length ≠ count then (1, []) else buildAll run [] ordered

end

/-! ## The loop -/

/-- The derivation was built, and the disk guard had nothing to say. -/
def Built.Sound {config : Drv → GuardedBuild.Config} (built : Built config) : Prop :=
  built.run.state.build = .exited 0 ∧ built.run.state.tripped = false

/-- A build with status zero has built its output. -/
theorem Built.sound_of_rc {config : Drv → GuardedBuild.Config} {built : Built config}
    (h : built.run.rc = 0) : built.Sound :=
  (GuardedBuild.annotated_of_reached built.run.reached).honest.zero (h ▸ built.run.returned)

section

variable {config : Drv → GuardedBuild.Config}
  {run : List (Built config) → (drv : Drv) → GuardedRun (config drv)}

/-- How the loop ended: everything was built, or all but the last one it came to. -/
def Ended (drvs : List Drv) (status : Nat) (built : List (Built config)) : Prop :=
  (∀ b ∈ built, b.Sound) ∧ status = 0 ∧ built.map (·.drv) = drvs ∨
    ∃ front last, built = front ++ [last] ∧ (∀ b ∈ front, b.Sound) ∧ status ≠ 0 ∧
      last.run.rc = status ∧ built.map (·.drv) <+: drvs

/-- What the loop builds, and how it ends. -/
theorem buildAll_spec (done : List (Built config)) (drvs : List Drv) :
    ∃ built, (buildAll run done drvs).2 = done ++ built ∧
      Ended drvs (buildAll run done drvs).1 built := by
  induction drvs generalizing done with
  | nil => exact ⟨[], (List.append_nil _).symm, .inl ⟨List.forall_mem_nil _, rfl, rfl⟩⟩
  | cons drv rest ih =>
    rw [buildAll]
    dsimp only
    by_cases hrc : (run done drv).rc = 0
    · rw [if_pos hrc]
      obtain ⟨built, hbuilt, hended⟩ := ih (done ++ [⟨drv, run done drv⟩])
      have hsound : Built.Sound ⟨drv, run done drv⟩ := Built.sound_of_rc hrc
      refine ⟨⟨drv, run done drv⟩ :: built, by rw [hbuilt, List.append_assoc]; rfl, ?_⟩
      rcases hended with ⟨hall, hstatus, hmap⟩ | ⟨front, last, rfl, hfront, hstatus, hlast, hmap⟩
      · exact .inl ⟨List.forall_mem_cons.mpr ⟨hsound, hall⟩, hstatus, congrArg (drv :: ·) hmap⟩
      · exact .inr ⟨⟨drv, run done drv⟩ :: front, last, rfl,
          List.forall_mem_cons.mpr ⟨hsound, hfront⟩, hstatus, hlast,
          List.cons_prefix_cons.mpr ⟨rfl, hmap⟩⟩
    · rw [if_neg hrc]
      exact ⟨[⟨drv, run done drv⟩], rfl, .inr ⟨[], _, rfl, List.forall_mem_nil _, hrc, rfl,
        List.cons_prefix_cons.mpr ⟨rfl, List.nil_prefix⟩⟩⟩

end

/-! ## The order -/

/-- A derivation stands behind all that it needs. -/
def DependenciesFirst (needs : Drv → Drv → Prop) (drvs : List Drv) : Prop :=
  Justified (fun before drv => ∀ input, needs drv input → input ∈ before) drvs

/-- What is built is a derivation. -/
theorem isDrv_of_mem_todo {collation : Collation (List UInt8)} {plan : TextFile} {drv : Drv}
    (h : drv ∈ todo collation plan) : isDrv drv = true := by
  rw [todo, sortUnique, List.mem_mergeSort, List.mem_dedup, UpgradePlan.entries, List.mem_map] at h
  obtain ⟨line, hline, rfl⟩ := h
  obtain ⟨front, rfl⟩ := suffix_of_isEntry (List.mem_filter.mp hline).2
  have hplain : drvSuffix.filter (· ≠ space) = drvSuffix := by decide +kernel
  rw [isDrv, List.isSuffixOf_iff_suffix, List.filter_append, hplain]
  exact List.suffix_append _ _

/-- A derivation is listed once. -/
theorem nodup_todo {collation : Collation (List UInt8)} {plan : TextFile} :
    (todo collation plan).Nodup :=
  ((UpgradePlan.entries plan).nodup_dedup.perm (List.mergeSort_perm _ _).symm)

section

variable {collation : Collation (List UInt8)} {plan : TextFile} {lines : List (List UInt8)}

/-- The derivations of the plan that the closure lists, in its order. -/
theorem ordered_spec {needs : Drv → Drv → Prop} (hsorted : DependenciesFirst needs lines) :
    Justified (fun before drv => drv ∈ todo collation plan ∧
        ∀ input ∈ todo collation plan, needs drv input → input ∈ before)
      (wanted (todo collation plan) (lines.filter isDrv)) := by
  rw [wanted, List.filter_filter]
  refine hsorted.filter _ fun before drv hdrv hneeds => ?_
  rw [Bool.and_eq_true, List.contains_iff_mem] at hdrv
  refine ⟨hdrv.1, fun input hinput hneed => List.mem_filter.mpr ⟨hneeds input hneed, ?_⟩⟩
  rw [Bool.and_eq_true, List.contains_iff_mem]
  exact ⟨hinput, isDrv_of_mem_todo hinput⟩

/-- If none of them is missing, they are the plan. -/
theorem ordered_perm (hnodup : lines.Nodup)
    (hcount : (wanted (todo collation plan) (lines.filter isDrv)).length
      = (todo collation plan).length) :
    (wanted (todo collation plan) (lines.filter isDrv)).Perm (todo collation plan) := by
  have hsub : wanted (todo collation plan) (lines.filter isDrv) ⊆ todo collation plan := by
    intro drv hdrv
    exact List.contains_iff_mem.mp (List.mem_filter.mp hdrv).2
  refine (List.subperm_of_subset ((hnodup.filter _).filter _) hsub).perm_of_length_le ?_
  exact hcount.ge

end

/-- What is built of a plan, and what the status says of it. -/
structure Account {config : Drv → GuardedBuild.Config} (collation : Collation (List UInt8))
    (needs : Drv → Drv → Prop) (plan : TextFile) (status : Nat) (built : List (Built config)) :
    Prop where
  /-- success: the parser accepted the plan, and all that it printed was built; it is what every
  header announces, if there is one header at most or they are all right -/
  complete : status = 0 →
    (parsePlan collation plan).status = 0 ∧
      (Headed plan → Understood plan (built.map (·.drv))) ∧
      (built.map (·.drv)).Perm (todo collation plan) ∧ ∀ b ∈ built, b.Sound
  /-- a build that failed was the last one -/
  stopped : status ≠ 0 → built ≠ [] →
    ∃ front last, built = front ++ [last] ∧ (∀ b ∈ front, b.Sound) ∧ last.run.rc = status
  /-- a derivation of the plan is built once, behind all that it needs -/
  in_order : Justified (fun before b => b.drv ∈ todo collation plan ∧ b.drv ∉ before.map (·.drv) ∧
    ∀ input ∈ todo collation plan, needs b.drv input → ∃ e ∈ before, e.drv = input ∧ e.Sound) built

/-- Where nothing is built there is nothing to account for. -/
theorem Account.nothing {config : Drv → GuardedBuild.Config} {collation : Collation (List UInt8)}
    {needs : Drv → Drv → Prop} {plan : TextFile} {status : Nat}
    (h : status = 0 → Accepted plan ∧ todo collation plan = []) :
    Account collation needs plan status ([] : List (Built config)) where
  complete hstatus := by
    obtain ⟨haccepted, hnone⟩ := h hstatus
    refine ⟨accepted_iff.mpr haccepted, fun hheaded => ?_, ?_, List.forall_mem_nil _⟩
    · have hunderstood : Understood plan (todo collation plan) := hheaded.understood haccepted
      rwa [hnone] at hunderstood
    · rw [hnone]
      exact List.Perm.refl _
  stopped _ h := absurd rfl h
  in_order before b after h := by simp at h

/-- The loop keeps the order that it is given. -/
theorem Ended.account {config : Drv → GuardedBuild.Config} {collation : Collation (List UInt8)}
    {needs : Drv → Drv → Prop} {plan : TextFile} {drvs : List Drv} {status : Nat}
    {built : List (Built config)} (h : Ended drvs status built) (haccepted : Accepted plan)
    (hperm : drvs.Perm (todo collation plan))
    (hsorted : Justified (fun before drv => drv ∈ todo collation plan ∧
      ∀ input ∈ todo collation plan, needs drv input → input ∈ before) drvs) :
    Account collation needs plan status built where
  complete hstatus := by
    rcases h with ⟨hall, -, hmap⟩ | ⟨_, _, _, _, hfailed, _⟩
    · rw [hmap]
      exact ⟨accepted_iff.mpr haccepted,
        fun hheaded => (hheaded.understood haccepted).of_perm hperm.symm, hperm, hall⟩
    · exact absurd hstatus hfailed
  stopped hstatus _ := by
    rcases h with ⟨_, hzero, _⟩ | ⟨front, last, hbuilt, hfront, _, hlast, _⟩
    · exact absurd hzero hstatus
    · exact ⟨front, last, hbuilt, hfront, hlast⟩
  in_order := by
    rintro before b after rfl
    -- what was built before it, was built with success
    have hbefore : ∀ e ∈ before, e.Sound := by
      intro e he
      rcases h with ⟨hall, -, -⟩ | ⟨front, last, heq, hfront, -⟩
      · exact hall e (List.mem_append_left _ he)
      · refine hfront e ?_
        have hdrop := congrArg List.dropLast heq
        rw [List.dropLast_concat, List.dropLast_append_of_ne_nil (List.cons_ne_nil _ _)] at hdrop
        exact hdrop ▸ List.mem_append_left _ he
    obtain ⟨more, hdrvs⟩ : (before ++ b :: after).map (·.drv) <+: drvs := by
      rcases h with ⟨-, -, hmap⟩ | ⟨_, _, _, _, _, _, hprefix⟩
      · rw [hmap]
      · exact hprefix
    rw [List.map_append, List.map_cons, List.append_assoc, List.cons_append] at hdrvs
    obtain ⟨hmem, hneeds⟩ := hsorted _ _ _ hdrvs.symm
    have hnodup : drvs.Nodup := hperm.symm.nodup nodup_todo
    rw [← hdrvs] at hnodup
    refine ⟨hmem, fun htwice => ?_, fun input hinput hneed => ?_⟩
    · exact (List.nodup_append.mp hnodup).2.2 _ htwice _ List.mem_cons_self rfl
    · obtain ⟨e, he, rfl⟩ := List.mem_map.mp (hneeds input hinput hneed)
      exact ⟨e, he, rfl, hbefore e he⟩

/-- **The plan is built one derivation at a time, each behind all that it needs.** Whatever the
builds do and whenever the script ends: a derivation is built at most once, only if the plan has
it, and only when every derivation of the plan that it needs was built before it, with success.
The script succeeds only if the parser accepted the plan and all that it printed was built, and the
disk guard never tripped; it fails with the status of the first build that fails, which is the last
one. -/
theorem prebuild_in_order {collation : Collation (List UInt8)}
    {config : Drv → GuardedBuild.Config} {nix : Nix}
    {run : List (Built config) → (drv : Drv) → GuardedRun (config drv)}
    {needs : Drv → Drv → Prop}
    (hnodup : ∀ drv, (nix.requisites drv).lines.Nodup)
    (hsorted : ∀ drv, DependenciesFirst needs (nix.requisites drv).lines) :
    let (status, built) := prebuild collation nix run
    (∃ drv plan, nix.eval = .ok drv ∧ nix.dryRun drv = .ok plan ∧
      Account collation needs plan status built) ∨ status ≠ 0 ∧ built = [] := by
  unfold prebuild
  rcases nix.update with status | ⟨⟩
  · exact .inr ⟨status.2, rfl⟩
  rcases heval : nix.eval with status | drv
  · exact .inr ⟨status.2, rfl⟩
  dsimp only
  rcases hplan : nix.dryRun drv with status | plan
  · exact .inr ⟨status.2, rfl⟩
  dsimp only
  by_cases hparsed : (parsePlan collation plan).status = 0
  · have haccepted := accepted_iff.mp hparsed
    rw [parsePlan_of_accepted haccepted]
    dsimp only
    rw [if_neg (not_not.mpr rfl)]
    split_ifs with hcount hordered
    · exact .inl ⟨drv, plan, rfl, hplan,
        .nothing fun _ => ⟨haccepted, List.length_eq_zero_iff.mp hcount⟩⟩
    · exact .inl ⟨drv, plan, rfl, hplan, .nothing fun h => by cases h⟩
    · obtain ⟨built, hbuilt, hended⟩ := @buildAll_spec config run []
        (wanted (todo collation plan) ((nix.requisites drv).lines.filter isDrv))
      rw [List.nil_append] at hbuilt
      have haccount := hended.account haccepted (ordered_perm (hnodup drv) (not_not.mp hordered))
        (ordered_spec (hsorted drv))
      rw [← hbuilt] at haccount
      exact .inl ⟨drv, plan, rfl, hplan, haccount⟩
  · rw [if_pos hparsed]
    exact .inr ⟨hparsed, rfl⟩

/-! ## Two derivations -/

/-- `b` needs `a`. -/
def sampleDrvs : List Drv := mixedPlan.derivations.map Derivation.path

theorem isTextLine_sample : ∀ line ∈ sampleDrvs, IsTextLine line := by
  intro line hline
  obtain ⟨d, -, rfl⟩ := List.mem_map.mp hline
  exact isTextLine_path d

/-- Answers of nix for the sample plan. -/
def sampleNix : Nix where
  update := .ok ()
  eval := .ok (utf8Bytes "/nix/store/system.drv")
  dryRun _ := .ok mixedPlan.text
  requisites _ := .ofLines sampleDrvs isTextLine_sample

/-- A build that goes well. -/
def sampleEvents : List GuardedBuild.Event :=
  GuardedBuild.sampleStart ++ [.build 0 [], .parent none true, .parent none true, .watchdogDies,
    .parent none true, .parent none true]

/-- A build of the sample that succeeds. -/
def sampleRun (_ : List (Built fun _ => GuardedBuild.sampleConfig)) (_ : Drv) :
    GuardedRun GuardedBuild.sampleConfig where
  guard := ""
  state := sampleEvents.foldl (GuardedBuild.step GuardedBuild.sampleConfig) { guard := "" }
  rc := 0
  reached := by
    have h : Permitted (GuardedBuild.step GuardedBuild.sampleConfig) (fun _ _ => True)
        { guard := "" } sampleEvents := by
      decide +kernel
    exact h.reached .start
  returned := by decide +kernel

theorem lines_requisites (drv : Drv) : (sampleNix.requisites drv).lines = sampleDrvs :=
  TextFile.lines_ofLines isTextLine_sample

theorem prebuild_sample :
    (prebuild byteOrder sampleNix sampleRun).1 = 0 ∧
      (prebuild byteOrder sampleNix sampleRun).2.map (·.drv) = sampleDrvs := by
  have hperm : (todo byteOrder mixedPlan.text).Perm sampleDrvs := by
    rw [todo, Plan.entries_text]
    exact perm_sortUnique byteOrder mixedPlan.distinct
  have hdrv : sampleDrvs.filter isDrv = sampleDrvs := by decide +kernel
  have hordered : ∀ drv, wanted (todo byteOrder mixedPlan.text)
      ((sampleNix.requisites drv).lines.filter isDrv) = sampleDrvs := by
    intro drv
    rw [lines_requisites, hdrv, wanted, List.filter_eq_self]
    exact fun drv hmem => List.contains_iff_mem.mpr (hperm.mem_iff.mpr hmem)
  have hlength : (todo byteOrder mixedPlan.text).length = 2 := hperm.length_eq
  have htwo : sampleDrvs.length = 2 := rfl
  have hplan : sampleNix.dryRun (utf8Bytes "/nix/store/system.drv") = .ok mixedPlan.text := rfl
  have heval : sampleNix.eval = .ok (utf8Bytes "/nix/store/system.drv") := rfl
  have hupdate : sampleNix.update = .ok () := rfl
  unfold prebuild
  simp only [hupdate, heval, hplan, parsePlan_of_accepted mixedPlan.accepted_text]
  rw [if_neg (not_not.mpr rfl), hordered, hlength, htwo, if_neg (by decide),
    if_neg (not_not.mpr rfl)]
  exact ⟨rfl, rfl⟩

theorem prebuild_in_order_two :
    Account byteOrder (fun drv input => sampleDrvs = [input, drv])
      mixedPlan.text 0 (prebuild byteOrder sampleNix sampleRun).2 := by
  have hnodup : sampleDrvs.Nodup := by decide +kernel
  have hsorted : DependenciesFirst (fun drv input => sampleDrvs = [input, drv]) sampleDrvs := by
    intro before drv after heq input hneed
    rw [hneed] at heq hnodup
    rcases before with _ | ⟨first, _ | ⟨second, before⟩⟩
    · cases heq
      simp at hnodup
    · cases heq
      exact List.mem_cons_self
    · simp at heq
  have h : (∃ drv plan, sampleNix.eval = .ok drv ∧ sampleNix.dryRun drv = .ok plan ∧
      Account byteOrder (fun drv input => sampleDrvs = [input, drv]) plan
        (prebuild byteOrder sampleNix sampleRun).1 (prebuild byteOrder sampleNix sampleRun).2) ∨
      (prebuild byteOrder sampleNix sampleRun).1 ≠ 0 ∧
        (prebuild byteOrder sampleNix sampleRun).2 = [] :=
    prebuild_in_order (fun drv => by rw [lines_requisites]; exact hnodup)
      (fun drv => by rw [lines_requisites]; exact hsorted)
  rw [prebuild_sample.1] at h
  rcases h with ⟨drv, plan, -, hplan, haccount⟩ | ⟨hfailed, -⟩
  · cases hplan
    exact haccount
  · exact absurd rfl hfailed

end HostServices.Scripts.Prebuild
