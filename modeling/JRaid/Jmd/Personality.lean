import JRaid.Jmd.Recorded

/-!
# Loading and unloading the personality

The personality of level 5 lives in a module of its own, `jraid5`. `jraid5_init` enters it into the
table `pers`, `do_jmd_run` copies the entry to `jmddev->pers`, and `jmd_make_request` calls through
that copy. Nothing takes a reference to the module, so it can be unloaded at any time; `jraid5_exit`
then frees the configuration of the array and clears the entry of the table, but neither
`jmddev->pers` nor `jmddev->private`.

The loads, the unloads, the `add_store` calls and the requests are the events of
`personalitySystem`. An array that has been started and whose module has been unloaded is orphaned.
It stays so, also if the module is loaded again: it cannot be started (`orphaned_forever`), and the
next request or the next unload follows a dangling pointer. Nothing else does (`dangling_iff`).

Requests that come before the array has been started are acknowledged without having been looked
at (`acked_until_started`).
-/

namespace JRaid

namespace Jmd

/-! ### The table -/

/-- `MAX_PERSONALITY`. -/
def maxPersonality : ℕ := 7

/-- `RAID5`. -/
def raid5Personality : ℕ := 4

/-- `register_jmd_personality`: its code and the table. -/
def registerJmdPersonality {α : Type*} (pers : ℕ → Option α) (pnum : ℕ) (p : α) :
    Int32 × (ℕ → Option α) :=
  if maxPersonality ≤ pnum then (-einval, pers)
  else if (pers pnum).isSome then (-ebusy, pers)
  else (0, Function.update pers pnum (some p))

/-- `unregister_jmd_personality`. The name of the personality is printed, without a check. -/
def unregisterJmdPersonality {α : Type*} (pers : ℕ → Option α) (pnum : ℕ) :
    Except Fault (Int32 × (ℕ → Option α)) :=
  if maxPersonality ≤ pnum then .ok (-einval, pers)
  else
    match pers pnum with
    | none => .error .badPointer
    | some _ => .ok (0, Function.update pers pnum none)

variable {α : Type*} {pers : ℕ → Option α} {pnum : ℕ}

theorem registerJmdPersonality_of_none (hlt : pnum < maxPersonality) (h : pers pnum = none)
    (p : α) : registerJmdPersonality pers pnum p = (0, Function.update pers pnum (some p)) := by
  rw [registerJmdPersonality, if_neg (Nat.not_le.mpr hlt), if_neg (by simp [h])]

theorem unregisterJmdPersonality_of_some {p : α} (hlt : pnum < maxPersonality)
    (h : pers pnum = some p) :
    unregisterJmdPersonality pers pnum = .ok (0, Function.update pers pnum none) := by
  rw [unregisterJmdPersonality, if_neg (Nat.not_le.mpr hlt), h]

theorem raid5Personality_lt : raid5Personality < maxPersonality := by decide

/-! ### The machine -/

/-- What the kernel does not survive here. -/
inductive Crash where
  | fault (f : Fault)
  /-- `make_request` of a module that has been unloaded is called -/
  | unloadedCode
  /-- the configuration is used after it has been freed -/
  | freedConf
  deriving DecidableEq, Repr

/-- A dangling pointer has been followed. -/
def Crash.Dangling (c : Crash) : Prop := c = .unloadedCode ∨ c = .freedConf

/-- The array, the table and the module. Copies of the module are numbered in the order in which
they are loaded. -/
structure PersState where
  jmddev : Jmddev
  /-- the table: the copy whose `jraid5_personality` an entry points to -/
  pers : ℕ → Option ℕ
  /-- the copy that is in memory -/
  loaded : Option ℕ
  /-- the number of copies so far -/
  loads : ℕ
  /-- the copy that `jmddev->pers` points to -/
  owner : Option ℕ
  /-- what `jmddev->private` points to has been freed -/
  freed : Bool
  /-- the requests that have been acknowledged without having been looked at -/
  acked : List ℕ
  /-- the requests that a personality has been given -/
  passed : List ℕ

/-- What happens to the array and its module. -/
inductive PersEvent where
  /-- `insmod` of `jraid5` -/
  | load
  /-- `rmmod` of `jraid5` -/
  | unload
  | add (call : AddStoreCall)
  /-- a request with this number arrives -/
  | request (bio : ℕ)

namespace PersState

/-- `jraid5_init`. A module that is in memory is not loaded again. -/
def jraid5Init (k : PersState) : PersState :=
  if k.loaded.isSome then k
  else
    let r := registerJmdPersonality k.pers raid5Personality k.loads
    { k with
      pers := r.2
      loads := k.loads + 1
      loaded := if r.1 = 0 then some k.loads else none }

/-- `jraid5_exit`, as far as pointers are concerned. `private` still points to the configuration
afterwards. -/
def jraid5Exit (k : PersState) : Except Crash PersState :=
  if k.loaded = none then .ok k
  else if k.jmddev.conf.isSome && k.freed then .error .freedConf
  else
    match unregisterJmdPersonality k.pers raid5Personality with
    | .error f => .error (.fault f)
    | .ok (_, pers) => .ok { k with pers := pers, loaded := none, freed := k.jmddev.conf.isSome }

end PersState

/-- A call of `add_store` that finds this entry in the table. -/
def AddStoreCall.withPers (call : AddStoreCall) (entry : Option ℕ) : AddStoreCall :=
  { call with env := { call.env with run := { call.env.run with raid5 := entry.isSome } } }

namespace PersState

/-- `add_store`. The entry of the table is that of the copy in memory (`Inv.pers`), so that its
`run` can be called. -/
def addStore (k : PersState) (call : AddStoreCall) : Except Crash PersState :=
  let entry := k.pers raid5Personality
  match k.jmddev.addStore (call.withPers entry) with
  | .error f => .error (.fault f)
  | .ok (_, jmddev) =>
    if !k.jmddev.pers && jmddev.pers then
      .ok { k with jmddev := jmddev, owner := entry, freed := false }
    else .ok { k with jmddev := jmddev }

/-- `jmd_make_request`. Without a personality it says that the request has succeeded. -/
def jmdMakeRequest (k : PersState) (bio : ℕ) : Except Crash PersState :=
  if !k.jmddev.pers then .ok { k with acked := k.acked ++ [bio] }
  else
    match k.owner with
    | none => .error (.fault .badPointer)
    | some n =>
      if k.loaded = some n then .ok { k with passed := k.passed ++ [bio] }
      else .error .unloadedCode

/-- One event. -/
def step (k : PersState) : PersEvent → Except Crash PersState
  | .load => .ok k.jraid5Init
  | .unload => k.jraid5Exit
  | .add call => k.addStore call
  | .request bio => k.jmdMakeRequest bio

end PersState

/-- The array and its personality, from the time when `jmd` has been loaded. -/
def personalitySystem (device : DevT → BlockDev) : FallibleSystem PersState PersEvent Crash where
  init := ⟨.fresh device, fun _ => none, none, 0, none, false, [], []⟩
  step := PersState.step

/-! ### The configuration of the array -/

/-- `jraid5_run` leaves a configuration exactly if it succeeds. -/
theorem Jmddev.conf_of_jraid5Run {s s' : Jmddev} {sb : Superblock} {env : RunEnv} {err : Int32}
    (hconf : s.conf = none) (h : s.jraid5Run sb env = .ok (err, s')) :
    s'.conf.isSome = decide (err = 0) := by
  rw [jraid5Run_eq] at h
  split at h
  · obtain ⟨rfl, rfl⟩ := Prod.mk.inj (Except.ok.inj h)
    rw [hconf]
    rfl
  split at h
  · obtain ⟨rfl, rfl⟩ := Prod.mk.inj (Except.ok.inj h)
    rfl
  obtain ⟨⟨err', st⟩, -, heq⟩ := Except.exists_of_map_eq_ok h
  obtain ⟨rfl, rfl⟩ := Prod.mk.inj heq
  by_cases hz : err' = 0 <;> simp [hz]

/-- The configuration is there exactly while `pers` is set. -/
def Jmddev.Configured (s : Jmddev) : Prop := s.conf.isSome = s.pers

theorem Jmddev.Configured.startPers {s s' : Jmddev} {sb : Superblock} {env : RunEnv} {err : Int32}
    (hs : s.Configured) (hsb : s.sb = some sb) (hstop : s.pers = false)
    (h : s.startPers sb env = .ok (err, s')) : s'.Configured := by
  have hnone : s.conf = none := by
    rw [← Option.not_isSome_iff_eq_none, hs, hstop]
    exact Bool.false_ne_true
  unfold Jmddev.startPers at h
  dsimp only at h
  obtain ⟨⟨serr, s₁⟩, hsized⟩ : ∃ r, s.deviceSizeCalculation sb = r := ⟨_, rfl⟩
  rw [hsized] at h
  obtain ⟨disks, jmdSize, rfl, -⟩ := Jmddev.deviceSizeCalculation_cases hsized
  split at h
  · obtain ⟨-, rfl⟩ := Prod.mk.inj (Except.ok.inj h)
    exact hs
  split at h
  · cases h
  rename_i rerr s₂ hrun
  have hconf := Jmddev.conf_of_jraid5Run (by exact hnone) hrun
  obtain ⟨sb₂, conf, rfl, -⟩ := Jmddev.jraid5Run_cases (by exact hsb) hrun
  split at h
  · rename_i hrerr
    obtain ⟨-, rfl⟩ := Prod.mk.inj (Except.ok.inj h)
    exact hconf.trans (decide_eq_false hrerr)
  rename_i hrerr
  split at h
  · cases h
  rename_i hupdate
  obtain ⟨_, _, _, rfl, -⟩ := Jmddev.jmdUpdateSb_cases hupdate
  obtain ⟨-, rfl⟩ := Prod.mk.inj (Except.ok.inj h)
  exact hconf.trans (decide_eq_true (not_not.mp hrerr))

/-- What `do_jmd_run` does to `pers`: it is never cleared again, and it is only set if the
personality has been registered. -/
structure Jmddev.PersStep (s s' : Jmddev) (registered : Bool) : Prop where
  configured : s.Configured → s'.Configured
  kept : s.pers = true → s'.pers = true
  set : s.pers = false → s'.pers = true → registered = true

theorem Jmddev.PersStep.of_eq {s s' : Jmddev} (registered : Bool) (hconf : s'.conf = s.conf)
    (hpers : s'.pers = s.pers) : s.PersStep s' registered where
  configured hs := by rw [Jmddev.Configured, hconf, hpers]; exact hs
  kept hrun := hpers.trans hrun
  set hstop hrun := absurd ((hstop.symm.trans hpers.symm).trans hrun) (by decide)

theorem Jmddev.persStep_doJmdRun {s s' : Jmddev} {env : RunEnv} {err : Int32}
    (h : s.doJmdRun env = .ok (err, s')) : s.PersStep s' env.raid5 := by
  obtain ⟨-, rfl, -⟩ | ⟨-, hstop, aerr, s₁, hanalyze, hrest⟩ := doJmdRun_cases h
  · exact .of_eq _ rfl rfl
  have hkept : s₁.conf = s.conf ∧ s₁.pers = s.pers := by
    obtain ⟨-, rfl⟩ | ⟨_, _, _, -, -, -, -, rfl⟩ := analyzeSbs_cases hanalyze
    · exact ⟨rfl, rfl⟩
    · exact ⟨rfl, rfl⟩
  obtain ⟨-, rfl⟩ | ⟨-, sb, hsb, hcheck, hstart⟩ := hrest
  · exact .of_eq _ hkept.1 hkept.2
  have hregistered : env.raid5 = true := by
    simp only [Superblock.checkGeometry, Bool.and_eq_true] at hcheck
    exact hcheck.2
  refine ⟨fun hs => ?_, fun hrun => absurd (hstop.symm.trans hrun) (by decide),
    fun _ _ => hregistered⟩
  have hs₁ : s₁.Configured := (Jmddev.PersStep.of_eq true hkept.1 hkept.2).configured hs
  exact hs₁.startPers hsb (hkept.2.trans hstop) hstart

theorem Jmddev.AddOutcome.conf {s s' : Jmddev} {env : ImportEnv} {info : JmdDiskInfo}
    {err : Int32} (h : s.AddOutcome env info err s') : s'.conf = s.conf := by
  cases h <;> rfl

theorem Jmddev.conf_prepare (s : Jmddev) (call : AddStoreCall) :
    (s.prepare call).conf = s.conf := by
  unfold prepare setArrayInfo
  split
  · split <;> rfl
  · rfl

/-- What `add_store` does to `pers`. -/
theorem Jmddev.persStep_addStore {s s' : Jmddev} {call : AddStoreCall} {ret : Int64}
    (h : s.addStore call = .ok (ret, s')) : s.PersStep s' call.env.run.raid5 := by
  unfold addStore at h
  split at h
  · obtain ⟨-, rfl⟩ := Prod.mk.inj (Except.ok.inj h)
    exact .of_eq _ rfl rfl
  split at h
  · obtain ⟨-, rfl⟩ := Prod.mk.inj (Except.ok.inj h)
    exact .of_eq _ rfl rfl
  split at h
  · obtain ⟨-, rfl⟩ := Prod.mk.inj (Except.ok.inj h)
    exact .of_eq _ rfl rfl
  split at h
  · cases h
  rename_i bdev hbdev
  split at h
  · cases h
  rename_i s₁ hmember
  obtain ⟨⟨err, s₂⟩, hadd, rfl⟩ := Except.exists_of_map_eq_ok hmember
  have houtcome := addOutcome hadd
  have hadded : s.PersStep s₂ call.env.run.raid5 :=
    .of_eq _ (houtcome.conf.trans (s.conf_prepare call)) houtcome.pers_eq
  split at h
  · split at h
    · cases h
    rename_i hrun
    obtain ⟨-, rfl⟩ := Prod.mk.inj (Except.ok.inj h)
    have hstarted := persStep_doJmdRun hrun
    exact ⟨fun hs => hstarted.configured (hadded.configured hs),
      fun hs => hstarted.kept (hadded.kept hs),
      fun hs => hstarted.set (houtcome.pers_eq.trans hs)⟩
  · obtain ⟨-, rfl⟩ := Prod.mk.inj (Except.ok.inj h)
    exact hadded

/-! ### What holds throughout -/

namespace PersState

variable {device : DevT → BlockDev} {k k' : PersState}

/-- The array has been started, and the module that it was started with is gone. -/
def Orphaned (k : PersState) : Prop := k.jmddev.pers = true ∧ k.owner ≠ k.loaded

instance (k : PersState) : Decidable k.Orphaned := inferInstanceAs (Decidable (_ ∧ _))

/-- What holds of the pointers in every state that is reached. -/
structure Inv (device : DevT → BlockDev) (k : PersState) : Prop where
  /-- what the array does, it could do without the module -/
  array : (addStoreSystem device).Reachable k.jmddev
  configured : k.jmddev.Configured
  /-- the table has the copy that is in memory -/
  pers : k.pers raid5Personality = k.loaded
  owner : k.owner.isSome = k.jmddev.pers
  loaded_lt : ∀ n, k.loaded = some n → n < k.loads
  owner_lt : ∀ n, k.owner = some n → n < k.loads
  freed : k.freed = true ↔ k.Orphaned

theorem inv_init : Inv device (personalitySystem device).init where
  array := FallibleSystem.reachable_init
  configured := rfl
  pers := rfl
  owner := rfl
  loaded_lt := nofun
  owner_lt := nofun
  freed := ⟨fun h => absurd h Bool.false_ne_true, fun h => absurd h.1 Bool.false_ne_true⟩

/-- Loading the module: a new copy is in memory, and in the table. -/
theorem Inv.jraid5Init_eq (h : Inv device k) (hno : k.loaded = none) :
    k.jraid5Init = { k with
      pers := Function.update k.pers raid5Personality (some k.loads)
      loads := k.loads + 1
      loaded := some k.loads } := by
  rw [jraid5Init, if_neg (by simp [hno]),
    registerJmdPersonality_of_none raid5Personality_lt (h.pers.trans hno)]
  rfl

/-- Unloading the module: the entry of the table is cleared, and a configuration is freed. -/
theorem Inv.jraid5Exit_eq (h : Inv device k) {n : ℕ} (hload : k.loaded = some n) :
    k.jraid5Exit = if k.Orphaned then .error .freedConf else
      .ok { k with
        pers := Function.update k.pers raid5Personality none
        loaded := none
        freed := k.jmddev.pers } := by
  have hconf : k.jmddev.conf.isSome = k.jmddev.pers := h.configured
  by_cases horphaned : k.Orphaned
  · rw [if_pos horphaned, jraid5Exit, if_neg (by simp [hload]), if_pos]
    rw [hconf, horphaned.1, h.freed.mpr horphaned, Bool.and_self]
  · have hfreed : k.freed = false := Bool.eq_false_iff.mpr fun hf => horphaned (h.freed.mp hf)
    rw [if_neg horphaned, jraid5Exit, if_neg (by simp [hload]), if_neg (by simp [hfreed]),
      unregisterJmdPersonality_of_some raid5Personality_lt (h.pers.trans hload), hconf]

/-- How an event ends. -/
inductive Outcome (k : PersState) : PersEvent → PersState → Prop
  /-- the module is in memory already -/
  | loadedAlready (h : k.loaded.isSome) : Outcome k .load k
  | load (h : k.loaded = none) : Outcome k .load { k with
      pers := Function.update k.pers raid5Personality (some k.loads)
      loads := k.loads + 1
      loaded := some k.loads }
  /-- the module is not in memory -/
  | notLoaded (h : k.loaded = none) : Outcome k .unload k
  | unload (h : k.loaded.isSome) (hlive : ¬ k.Orphaned) : Outcome k .unload { k with
      pers := Function.update k.pers raid5Personality none
      loaded := none
      freed := k.jmddev.pers }
  /-- the array has not been started by the call -/
  | added (call : AddStoreCall) (jmddev : Jmddev) (ret : Int64)
      (h : k.jmddev.addStore (call.withPers k.loaded) = .ok (ret, jmddev))
      (hsame : jmddev.pers = k.jmddev.pers) : Outcome k (.add call) { k with jmddev := jmddev }
  | started (call : AddStoreCall) (jmddev : Jmddev) (ret : Int64)
      (h : k.jmddev.addStore (call.withPers k.loaded) = .ok (ret, jmddev))
      (hstop : k.jmddev.pers = false) (hrun : jmddev.pers = true) (hload : k.loaded.isSome) :
      Outcome k (.add call) { k with jmddev := jmddev, owner := k.loaded, freed := false }
  | acked (bio : ℕ) (h : k.jmddev.pers = false) :
      Outcome k (.request bio) { k with acked := k.acked ++ [bio] }
  | passed (bio : ℕ) (h : k.jmddev.pers = true) (hlive : ¬ k.Orphaned) :
      Outcome k (.request bio) { k with passed := k.passed ++ [bio] }

/-- **What an event does.** -/
theorem Inv.outcome {e : PersEvent} (hk : Inv device k) (h : k.step e = .ok k') :
    k.Outcome e k' := by
  cases e with
  | load =>
    obtain rfl := Except.ok.inj h
    cases hload : k.loaded with
    | some n =>
      rw [jraid5Init, if_pos (by simp [hload])]
      exact .loadedAlready (by simp [hload])
    | none =>
      rw [hk.jraid5Init_eq hload]
      exact .load hload
  | unload =>
    change k.jraid5Exit = _ at h
    cases hload : k.loaded with
    | none =>
      rw [jraid5Exit, if_pos hload] at h
      obtain rfl := Except.ok.inj h
      exact .notLoaded hload
    | some n =>
      rw [hk.jraid5Exit_eq hload] at h
      split at h
      · cases h
      · obtain rfl := Except.ok.inj h
        exact .unload (by simp [hload]) ‹_›
  | add call =>
    change k.addStore call = _ at h
    unfold addStore at h
    dsimp only at h
    rw [hk.pers] at h
    split at h
    · cases h
    rename_i ret jmddev hstore
    have hstep : k.jmddev.PersStep jmddev k.loaded.isSome := Jmddev.persStep_addStore hstore
    split at h
    · rename_i hstart
      obtain rfl := Except.ok.inj h
      obtain ⟨hstop, hrun⟩ : k.jmddev.pers = false ∧ jmddev.pers = true := by simpa using hstart
      exact .started call jmddev ret hstore hstop hrun (hstep.set hstop hrun)
    · rename_i hsame
      obtain rfl := Except.ok.inj h
      refine .added call jmddev ret hstore ?_
      cases hpers : k.jmddev.pers with
      | true => exact hstep.kept hpers
      | false =>
        rw [hpers] at hsame
        exact Bool.eq_false_iff.mpr hsame
  | request bio =>
    change k.jmdMakeRequest bio = _ at h
    unfold jmdMakeRequest at h
    split at h
    · obtain rfl := Except.ok.inj h
      exact .acked bio (by simpa using ‹(!k.jmddev.pers) = true›)
    rename_i hrun
    split at h
    · cases h
    rename_i n howner
    split at h
    · rename_i hload
      obtain rfl := Except.ok.inj h
      exact .passed bio (by simpa using hrun) fun horphaned => horphaned.2 (howner.trans hload.symm)
    · cases h

/-- Every event keeps what holds of the pointers. -/
theorem Inv.step {e : PersEvent} (hk : Inv device k) (h : k.step e = .ok k') : Inv device k' := by
  have hneverLoaded : k.owner ≠ some k.loads := fun howner => (hk.owner_lt _ howner).ne rfl
  have hgone : k.jmddev.pers = true → k.owner ≠ none := fun hrun howner => by
    simpa [howner, hrun] using hk.owner
  cases hk.outcome h with
  | loadedAlready => exact hk
  | notLoaded => exact hk
  | load hno =>
    have hentry := Function.update_self raid5Personality (some k.loads) k.pers
    refine ⟨hk.array, hk.configured, hentry, hk.owner, ?_, ?_, ?_⟩
    · rintro n hn
      obtain rfl := Option.some.inj hn
      exact Nat.lt_succ_self _
    · exact fun n hn => (hk.owner_lt n hn).trans (Nat.lt_succ_self _)
    · -- the new copy is not the one that the array was started with
      rw [hk.freed, Orphaned, Orphaned, hno]
      exact and_congr_right fun hrun => iff_of_true (hgone hrun) hneverLoaded
  | unload hload hlive =>
    have hentry := Function.update_self raid5Personality none k.pers
    refine ⟨hk.array, hk.configured, hentry, hk.owner, nofun, hk.owner_lt, ?_⟩
    exact ⟨fun hrun => ⟨hrun, hgone hrun⟩, fun horphaned => horphaned.1⟩
  | added call jmddev ret hstore hsame =>
    have hstep := Jmddev.persStep_addStore hstore
    refine ⟨hk.array.step (e := call.withPers k.loaded) (congrArg (Except.map Prod.snd) hstore),
      hstep.configured hk.configured, hk.pers, hk.owner.trans hsame.symm, hk.loaded_lt,
      hk.owner_lt, ?_⟩
    rw [hk.freed, Orphaned, Orphaned, hsame]
  | started call jmddev ret hstore hstop hrun hload =>
    have hstep := Jmddev.persStep_addStore hstore
    refine ⟨hk.array.step (e := call.withPers k.loaded) (congrArg (Except.map Prod.snd) hstore),
      hstep.configured hk.configured, hk.pers, hload.trans hrun.symm, hk.loaded_lt, hk.loaded_lt,
      ?_⟩
    exact ⟨fun h => absurd h Bool.false_ne_true, fun horphaned => absurd rfl horphaned.2⟩
  | acked => exact ⟨hk.array, hk.configured, hk.pers, hk.owner, hk.loaded_lt, hk.owner_lt, hk.freed⟩
  | passed =>
    exact ⟨hk.array, hk.configured, hk.pers, hk.owner, hk.loaded_lt, hk.owner_lt, hk.freed⟩

/-- **The pointers are in order in every state that is reached.** -/
theorem Inv.of_reachable (h : (personalitySystem device).Reachable k) : Inv device k :=
  FallibleSystem.Reachable.invariant inv_init (fun _ _ _ _ hk hstep => hk.step hstep) h

/-! ### Dangling pointers -/

/-- The event follows a pointer of the array into the module. -/
def Follows (k : PersState) (e : PersEvent) : Prop :=
  (∃ bio, e = .request bio) ∨ (e = .unload ∧ k.loaded.isSome)

/-- An event follows a dangling pointer if it follows one, and the array is orphaned. -/
theorem Inv.dangling_step_iff (hk : Inv device k) (e : PersEvent) :
    (∃ c, k.step e = .error c ∧ c.Dangling) ↔ k.Follows e ∧ k.Orphaned := by
  constructor
  · rintro ⟨c, hstop, hc⟩
    cases e with
    | load => cases hstop
    | unload =>
      change k.jraid5Exit = _ at hstop
      cases hload : k.loaded with
      | none =>
        rw [jraid5Exit, if_pos hload] at hstop
        cases hstop
      | some n =>
        rw [hk.jraid5Exit_eq hload] at hstop
        split at hstop
        · exact ⟨Or.inr ⟨rfl, by simp [hload]⟩, ‹_›⟩
        · cases hstop
    | add call =>
      change k.addStore call = _ at hstop
      unfold addStore at hstop
      dsimp only at hstop
      split at hstop
      · obtain rfl := Except.error.inj hstop
        rcases hc with hc | hc <;> cases hc
      · split at hstop <;> cases hstop
    | request bio =>
      change k.jmdMakeRequest bio = _ at hstop
      refine ⟨Or.inl ⟨bio, rfl⟩, ?_⟩
      unfold jmdMakeRequest at hstop
      split at hstop
      · cases hstop
      rename_i hrun
      split at hstop
      · obtain rfl := Except.error.inj hstop
        rcases hc with hc | hc <;> cases hc
      rename_i n howner
      split at hstop
      · cases hstop
      rename_i hload
      exact ⟨by simpa using hrun, fun h => hload (h.symm.trans howner)⟩
  · rintro ⟨⟨bio, rfl⟩ | ⟨rfl, hload⟩, horphaned⟩
    · obtain ⟨n, howner⟩ := Option.isSome_iff_exists.mp (hk.owner.trans horphaned.1)
      have hload : k.loaded ≠ some n := fun h => horphaned.2 (howner.trans h.symm)
      refine ⟨.unloadedCode, ?_, Or.inl rfl⟩
      change k.jmdMakeRequest bio = _
      rw [jmdMakeRequest, if_neg (by simp [horphaned.1]), howner]
      exact if_neg hload
    · obtain ⟨n, hload⟩ := Option.isSome_iff_exists.mp hload
      refine ⟨.freedConf, ?_, Or.inr rfl⟩
      change k.jraid5Exit = _
      rw [hk.jraid5Exit_eq hload, if_pos horphaned]

/-- What orphans an array: its module is unloaded while it runs. -/
theorem Inv.orphaned_step_iff {e : PersEvent} (hk : Inv device k) (h : k.step e = .ok k') :
    k'.Orphaned ↔ k.Orphaned ∨ (e = .unload ∧ k.jmddev.pers = true ∧ k.loaded.isSome) := by
  have hk' := hk.step h
  rw [← hk'.freed, ← hk.freed]
  cases hk.outcome h with
  | loadedAlready => simp
  | load => simp
  | notLoaded hno => simp [hno]
  | unload hload hlive =>
    have hfreed : ¬ k.freed = true := fun hf => hlive (hk.freed.mp hf)
    simp [hfreed, hload]
  | added => simp
  | started _ _ _ _ hstop =>
    have hfreed : ¬ k.freed = true := fun hf =>
      Bool.false_ne_true (hstop.symm.trans (hk.freed.mp hf).1)
    simp [hfreed]
  | acked => simp
  | passed => simp

/-- **When a dangling pointer is followed**: a request or an unload follows a pointer of the array,
and the module has been unloaded while the array was running. -/
theorem dangling_iff {es : List PersEvent} {e : PersEvent}
    (h : (personalitySystem device).exec (personalitySystem device).init es = .ok k) :
    (∃ c, (personalitySystem device).step k e = .error c ∧ c.Dangling) ↔
      k.Follows e ∧ ∃ as bs a, es = as ++ .unload :: bs ∧
        (personalitySystem device).exec (personalitySystem device).init as = .ok a ∧
          a.jmddev.pers = true ∧ a.loaded.isSome := by
  have hk : Inv device k := .of_reachable (FallibleSystem.reachable_of_exec h)
  have hflag := FallibleSystem.exec_flag_iff (I := Inv device) (P := Orphaned)
    (g := fun a e => e = .unload ∧ a.jmddev.pers = true ∧ a.loaded.isSome)
    (fun _ _ _ ha hstep => ha.step hstep) (fun _ _ _ ha hstep => ha.orphaned_step_iff hstep)
    inv_init h
  refine (hk.dangling_step_iff e).trans (and_congr_right fun _ => hflag.trans ?_)
  constructor
  · rintro (hinit | ⟨as, e, bs, a, hes, ha, rfl, hrun⟩)
    · exact absurd hinit.1 Bool.false_ne_true
    · exact ⟨as, bs, a, hes, ha, hrun⟩
  · rintro ⟨as, bs, a, hes, ha, hrun⟩
    exact Or.inr ⟨as, .unload, bs, a, hes, ha, rfl, hrun⟩

/-! ### Orphaned arrays -/

/-- An event that an orphaned array survives changes neither list of requests, and is not a request
itself. -/
theorem Inv.orphaned_step {e : PersEvent} (hk : Inv device k) (horphaned : k.Orphaned)
    (h : k.step e = .ok k') :
    k'.Orphaned ∧ k'.acked = k.acked ∧ k'.passed = k.passed ∧ ∀ bio, e ≠ .request bio := by
  refine ⟨(hk.orphaned_step_iff h).mpr (Or.inl horphaned), ?_⟩
  cases hk.outcome h with
  | loadedAlready => exact ⟨rfl, rfl, nofun⟩
  | load => exact ⟨rfl, rfl, nofun⟩
  | notLoaded => exact ⟨rfl, rfl, nofun⟩
  | unload _ hlive => exact absurd horphaned hlive
  | added => exact ⟨rfl, rfl, nofun⟩
  | started => exact ⟨rfl, rfl, nofun⟩
  | acked _ hstop => exact absurd (hstop.symm.trans horphaned.1) Bool.false_ne_true
  | passed _ _ hlive => exact absurd horphaned hlive

/-- **An orphaned array stays orphaned**, also if the module is loaded again: no request is
answered or passed on any more, and every start is refused. -/
theorem orphaned_forever {es : List PersEvent} (hk : (personalitySystem device).Reachable k)
    (horphaned : k.Orphaned) (h : (personalitySystem device).exec k es = .ok k') :
    k'.Orphaned ∧ k'.acked = k.acked ∧ k'.passed = k.passed ∧ (∀ bio, .request bio ∉ es) ∧
      ∀ env, k'.jmddev.doJmdRun env = .ok (-ebusy, k'.jmddev) := by
  have hinv : Inv device k := .of_reachable hk
  clear hk
  induction es generalizing k with
  | nil =>
    obtain rfl := Except.ok.inj h
    refine ⟨horphaned, rfl, rfl, fun _ => List.not_mem_nil, fun env => ?_⟩
    have hnb := ((Jmddev.Sound.of_reachable hinv.array).running horphaned.1).1
    rw [Jmddev.doJmdRun, if_neg hnb, if_pos horphaned.1]
  | cons e es ih =>
    rw [FallibleSystem.exec] at h
    cases hstep : (personalitySystem device).step k e with
    | error c =>
      rw [hstep] at h
      cases h
    | ok k₁ =>
      rw [hstep] at h
      obtain ⟨horphaned₁, hacked, hpassed, hne⟩ := hinv.orphaned_step horphaned hstep
      obtain ⟨hend, hacked', hpassed', hnone, hbusy⟩ := ih horphaned₁ h (hinv.step hstep)
      refine ⟨hend, hacked'.trans hacked, hpassed'.trans hpassed, fun bio hmem => ?_, hbusy⟩
      rcases List.mem_cons.mp hmem with heq | hmem
      · exact hne bio heq.symm
      · exact hnone bio hmem

/-! ### Requests before the start -/

/-- The number of the request, if the event is one. -/
def bioOf : PersEvent → Option ℕ
  | .request bio => some bio
  | _ => none

/-- The requests of a schedule. -/
def bios (es : List PersEvent) : List ℕ := es.filterMap bioOf

@[simp]
theorem bios_nil : bios [] = [] := rfl

theorem bios_cons (e : PersEvent) (es : List PersEvent) :
    bios (e :: es) = (bioOf e).toList ++ bios es := by
  cases e <;> rfl

/-- A running array passes a request on. -/
theorem Inv.running_step {e : PersEvent} (hk : Inv device k) (hrun : k.jmddev.pers = true)
    (h : k.step e = .ok k') :
    k'.jmddev.pers = true ∧ k'.acked = k.acked ∧ k'.passed = k.passed ++ (bioOf e).toList := by
  cases hk.outcome h with
  | added _ _ _ _ hsame => exact ⟨hsame.trans hrun, rfl, (List.append_nil _).symm⟩
  | started _ _ _ _ hstop => exact absurd (hstop.symm.trans hrun) Bool.false_ne_true
  | acked _ hstop => exact absurd (hstop.symm.trans hrun) Bool.false_ne_true
  | passed => exact ⟨hrun, rfl, rfl⟩
  | _ => exact ⟨hrun, rfl, (List.append_nil _).symm⟩

/-- An array that has not been started acknowledges a request. -/
theorem Inv.stopped_step {e : PersEvent} (hk : Inv device k) (hstop : k.jmddev.pers = false)
    (h : k.step e = .ok k') : k'.passed = k.passed ∧ k'.acked = k.acked ++ (bioOf e).toList ∧
      (k'.jmddev.pers = true → ∃ call, e = .add call) := by
  cases hk.outcome h with
  | added call => exact ⟨rfl, (List.append_nil _).symm, fun _ => ⟨call, rfl⟩⟩
  | started call => exact ⟨rfl, (List.append_nil _).symm, fun _ => ⟨call, rfl⟩⟩
  | acked => exact ⟨rfl, rfl, fun hrun => absurd (hstop.symm.trans hrun) Bool.false_ne_true⟩
  | passed _ hrun => exact absurd (hstop.symm.trans hrun) Bool.false_ne_true
  | _ =>
    exact ⟨rfl, (List.append_nil _).symm,
      fun hrun => absurd (hstop.symm.trans hrun) Bool.false_ne_true⟩

/-- A running array passes all its requests on. -/
theorem Inv.passed_of_exec {es : List PersEvent} (hk : Inv device k) (hrun : k.jmddev.pers = true)
    (h : (personalitySystem device).exec k es = .ok k') :
    k'.acked = k.acked ∧ k'.passed = k.passed ++ bios es := by
  induction es generalizing k with
  | nil =>
    obtain rfl := Except.ok.inj h
    exact ⟨rfl, (List.append_nil _).symm⟩
  | cons e es ih =>
    rw [FallibleSystem.exec] at h
    cases hstep : (personalitySystem device).step k e with
    | error c =>
      rw [hstep] at h
      cases h
    | ok k₁ =>
      rw [hstep] at h
      obtain ⟨hrun₁, hacked, hpassed⟩ := hk.running_step hrun hstep
      obtain ⟨hacked', hpassed'⟩ := ih (hk.step hstep) hrun₁ h
      exact ⟨hacked'.trans hacked, by rw [hpassed', hpassed, bios_cons, List.append_assoc]⟩

/-- What becomes of the requests of an array that has not been started. -/
theorem Inv.requests_of_exec {es : List PersEvent} (hk : Inv device k)
    (hstop : k.jmddev.pers = false) (h : (personalitySystem device).exec k es = .ok k') :
    (k'.jmddev.pers = false ∧ k'.acked = k.acked ++ bios es ∧ k'.passed = k.passed) ∨
      ∃ as call bs a a', es = as ++ .add call :: bs ∧
        (personalitySystem device).exec k as = .ok a ∧ a.jmddev.pers = false ∧
          (personalitySystem device).step a (.add call) = .ok a' ∧ a'.jmddev.pers = true ∧
            k'.acked = k.acked ++ bios as ∧ k'.passed = k.passed ++ bios bs := by
  induction es generalizing k with
  | nil =>
    obtain rfl := Except.ok.inj h
    exact Or.inl ⟨hstop, (List.append_nil _).symm, rfl⟩
  | cons e es ih =>
    rw [FallibleSystem.exec] at h
    cases hstep : (personalitySystem device).step k e with
    | error c =>
      rw [hstep] at h
      cases h
    | ok k₁ =>
      rw [hstep] at h
      obtain ⟨hpassed, hacked, hadd⟩ := hk.stopped_step hstop hstep
      cases hpers : k₁.jmddev.pers with
      | true =>
        obtain ⟨call, rfl⟩ := hadd hpers
        obtain ⟨hacked', hpassed'⟩ := (hk.step (e := .add call) hstep).passed_of_exec hpers h
        refine Or.inr ⟨[], call, es, k, k₁, rfl, rfl, hstop, hstep, hpers, ?_, ?_⟩
        · exact hacked'.trans hacked
        · exact hpassed'.trans (congrArg (· ++ bios es) hpassed)
      | false =>
        obtain ⟨hstop', hacked', hpassed'⟩ | ⟨as, call, bs, a, a', rfl, has, hrest⟩ :=
          ih (hk.step hstep) hpers h
        · refine Or.inl ⟨hstop', ?_, hpassed'.trans hpassed⟩
          rw [hacked', hacked, bios_cons, List.append_assoc]
        · obtain ⟨hstop', hstart, hrun, hacked', hpassed'⟩ := hrest
          refine Or.inr ⟨e :: as, call, bs, a, a', rfl, ?_, hstop', hstart, hrun, ?_, ?_⟩
          · rw [FallibleSystem.exec, hstep]
            exact has
          · rw [hacked', hacked, bios_cons, List.append_assoc]
          · rw [hpassed', hpassed]

/-- **What becomes of the requests**: those in front of the call that starts the array have been
acknowledged without having been looked at, and those behind it have been passed to the personality,
in the order in which they came. -/
theorem acked_until_started {es : List PersEvent}
    (h : (personalitySystem device).exec (personalitySystem device).init es = .ok k) :
    (k.jmddev.pers = false ∧ k.acked = bios es ∧ k.passed = []) ∨
      ∃ as call bs a a', es = as ++ .add call :: bs ∧
        (personalitySystem device).exec (personalitySystem device).init as = .ok a ∧
          a.jmddev.pers = false ∧ (personalitySystem device).step a (.add call) = .ok a' ∧
            a'.jmddev.pers = true ∧ k.acked = bios as ∧ k.passed = bios bs :=
  inv_init.requests_of_exec rfl h

/-! ### An array whose module is unloaded -/

/-- The module is loaded, a request comes too early, three devices are added, a request is served,
and the module is unloaded. -/
def orphaning : List PersEvent :=
  .load :: .request 0 :: (threeCalls.map .add ++ [.request 1, .unload])

theorem exec_orphaning : ∃ k, (personalitySystem evenDevices).exec
      (personalitySystem evenDevices).init orphaning = .ok k ∧
    (k.jmddev.pers, k.owner, k.loaded, k.acked, k.passed) = (true, some 0, none, [0], [1]) :=
  FallibleSystem.exists_exec (by decide +kernel)

/-- The next request calls code that is gone. -/
theorem dangling_iff_three : ∃ k,
    (personalitySystem evenDevices).exec (personalitySystem evenDevices).init orphaning = .ok k ∧
      (∃ c, (personalitySystem evenDevices).step k (.request 2) = .error c ∧ c.Dangling) ∧
      ((∃ c, (personalitySystem evenDevices).step k (.request 2) = .error c ∧ c.Dangling) ↔
        k.Follows (.request 2) ∧ ∃ as bs a, orphaning = as ++ .unload :: bs ∧
          (personalitySystem evenDevices).exec (personalitySystem evenDevices).init as = .ok a ∧
            a.jmddev.pers = true ∧ a.loaded.isSome) := by
  obtain ⟨k, hexec, hshow⟩ := exec_orphaning
  simp only [Prod.mk.injEq] at hshow
  obtain ⟨hrun, howner, hload, -⟩ := hshow
  refine ⟨k, hexec, ⟨.unloadedCode, ?_, Or.inl rfl⟩, dangling_iff hexec⟩
  change k.jmdMakeRequest 2 = _
  rw [jmdMakeRequest, if_neg (by simp [hrun]), howner]
  exact if_neg (by simp [hload])

/-- Loading the module again does not help. -/
theorem orphaned_forever_three : ∃ k k',
    (personalitySystem evenDevices).Reachable k ∧ k.Orphaned ∧
      (personalitySystem evenDevices).exec k [.load] = .ok k' ∧
        (k'.Orphaned ∧ k'.acked = k.acked ∧ k'.passed = k.passed ∧
          (∀ bio, .request bio ∉ [PersEvent.load]) ∧
            ∀ env, k'.jmddev.doJmdRun env = .ok (-ebusy, k'.jmddev)) := by
  obtain ⟨k, hexec, hshow⟩ := exec_orphaning
  simp only [Prod.mk.injEq] at hshow
  obtain ⟨hrun, howner, hload, -⟩ := hshow
  have horphaned : k.Orphaned := ⟨hrun, by simp [howner, hload]⟩
  have hk := FallibleSystem.reachable_of_exec hexec
  exact ⟨k, k.jraid5Init, hk, horphaned, rfl, orphaned_forever hk horphaned rfl⟩

/-- The first request has been acknowledged, the second one has been served. -/
theorem acked_until_started_three : ∃ k,
    (personalitySystem evenDevices).exec (personalitySystem evenDevices).init orphaning = .ok k ∧
      ((k.jmddev.pers = false ∧ k.acked = bios orphaning ∧ k.passed = []) ∨
        ∃ as call bs a a', orphaning = as ++ .add call :: bs ∧
          (personalitySystem evenDevices).exec (personalitySystem evenDevices).init as = .ok a ∧
            a.jmddev.pers = false ∧
              (personalitySystem evenDevices).step a (.add call) = .ok a' ∧
                a'.jmddev.pers = true ∧ k.acked = bios as ∧ k.passed = bios bs) := by
  obtain ⟨k, hexec, -⟩ := exec_orphaning
  exact ⟨k, hexec, acked_until_started hexec⟩

end PersState

end Jmd

end JRaid
