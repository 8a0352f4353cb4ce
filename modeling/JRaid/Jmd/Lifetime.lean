import JRaid.Jmd.Restart
import JRaid.Jmd.StoreLedger

/-!
# What the module `jmd` leaves behind

`jmd_init` does not look at what `jmd_alloc` answers: if it gives up, the module is loaded all the
same. So it is if the thread is refused, since the major number is returned then, which is no error
code. `jmd_exit` later follows a pointer that is `NULL`, or that of a `kobject` that has been
released.

If nothing fails, `jmd_exit` gives back the claims and the pages of the members and most of what
`jmd_init` has acquired. What stays behind after any sequence of `add_store` calls is listed in
`left_behind`: the `kobject`, the superblock of the array, the `jmd_rdev` of every member, every
device that was open when an allocation was refused, the page of every refused claim, every file
system that `get_super` has found, and what the updates of the superblocks have not given back.

What the two functions do to the pages of the cache is in `JRaid.Jmd.CacheMem`, and left out here,
and so is what `jraid5_run` acquires (`JRaid.Jmd.FailedStart`, `JRaid.Requests.Exit`).
-/

namespace JRaid

namespace Jmd

open Ledger

/-! ### Loading and unloading -/

/-- What the kernel answers during `jmd_init`. -/
structure InitEnv where
  /-- `register_blkdev` -/
  major : Int32
  /-- `jmd_register_thread` -/
  thread : Bool
  /-- `kzalloc` in `jmddev_find` -/
  mddev : Bool
  /-- `blk_alloc_queue` -/
  queue : Bool
  /-- `alloc_disk` -/
  disk : Bool
  /-- `kobject_create_and_add` -/
  kobj : Bool
  /-- `sysfs_create_files` -/
  files : Int32

/-- `kobj_base`. -/
inductive KobjBase where
  | null
  | live
  /-- what it points to has been released -/
  | freed
  deriving DecidableEq

/-- The globals of the module, and its ledger. -/
structure JmdModule where
  /-- `g_jmddev` -/
  jmddev : Option Jmddev
  queue : Bool
  gendisk : Bool
  kobjBase : KobjBase
  /-- `jmd_recovery_thread` -/
  thread : Bool
  /-- the number of `add_store` calls so far -/
  calls : ℕ
  /-- the calls that have bound the members, in the order of the member list -/
  bound : List ℕ
  log : List (Entry JmdResource)

namespace JmdModule

/-- Before `jmd_init`. -/
def blank : JmdModule := ⟨none, false, false, .null, false, 0, [], []⟩

/-- Enter something into the ledger. -/
def enter (m : JmdModule) (e : Entry JmdResource) : JmdModule := { m with log := m.log ++ [e] }

/-- What follows the labels of `jmd_alloc`. For `NULL` neither function does anything. -/
def putKobj (m : JmdModule) : JmdModule :=
  match m.kobjBase with
  | .live => { m with kobjBase := .freed }.enter (.release .kobj)
  | _ => m

/-- `jmd_alloc`. An array that has just been made has no disk yet. -/
def jmdAlloc (m : JmdModule) (device : DevT → BlockDev) (env : InitEnv) :
    Except Fault (Int32 × JmdModule) :=
  if !env.mddev then .error .badPointer
  else
    let m := { m with jmddev := some (.fresh device) }.enter (.acquire .mddev)
    if !env.queue then .ok (-enomem, m.putKobj)
    else
      let m := { m with queue := true }.enter (.acquire .queue)
      if !env.disk then .ok (-enomem, m.putKobj)
      else
        let m := { m with gendisk := true }.enter (.acquire .disk)
        if !env.kobj then .ok (-enomem, m.putKobj)
        else
          let m := { m with kobjBase := .live }.enter (.acquire .kobj)
          if env.files ≠ 0 then .ok (env.files, m.putKobj)
          else .ok (0, m.enter (.acquire .files))

end JmdModule

/-- `jmd_init`. -/
def jmdInit (device : DevT → BlockDev) (env : InitEnv) : Except Fault (Int32 × JmdModule) :=
  let m := JmdModule.blank
  if env.major < 0 then .ok (env.major, m)
  else
    let m := m.enter (.acquire .major)
    if !env.thread then .ok (env.major, m.enter (.release .major))
    else
      let m := { m with thread := true }.enter (.acquire .recoveryThread)
      match m.jmdAlloc device env with
      | .error f => .error f
      | .ok (_, m) => .ok (0, m)

namespace JmdModule

/-- A write to the file `add`, if it is there. -/
def addStore (m : JmdModule) (call : AddStoreCall) : Except Fault JmdModule :=
  match m.jmddev, m.kobjBase with
  | some jmddev, .live =>
    match jmddev.addStoreLedger m.calls call with
    | .error f => .error f
    | .ok (_, jmddev', log) =>
      .ok { m with
        jmddev := some jmddev'
        calls := m.calls + 1
        bound := if jmddev'.nbDev = jmddev.nbDev + 1 then m.calls :: m.bound else m.bound
        log := m.log ++ log }
  | _, _ => .ok m

/-- What the loop of `jmd_exit` releases: `unlock_jrdev` and `free_disk_sb` for each member. -/
def memberResources (bound : List ℕ) : List JmdResource :=
  bound.flatMap fun i => [.store i (.imported .claim), .store i (.imported .sbPage)]

/-- What `jmd_exit` releases after the loop. -/
def ownResources (m : JmdModule) : List JmdResource :=
  [.files] ++ (if m.gendisk then [.disk] else []) ++ (if m.queue then [.queue] else []) ++
    [.major] ++ (if m.thread then [.recoveryThread] else []) ++ [.mddev]

/-- `jmd_exit`: the whole ledger of the module. -/
def jmdExit (m : JmdModule) : Except Fault (List (Entry JmdResource)) :=
  match m.jmddev, m.kobjBase with
  | some _, .live =>
    .ok (m.log ++ (memberResources m.bound ++ m.ownResources).map .release)
  | _, _ => .error .badPointer

end JmdModule

/-- The writes to the file `add` of a module that has been loaded. -/
def moduleSystem (m₀ : JmdModule) : FallibleSystem JmdModule AddStoreCall Fault where
  init := m₀
  step := JmdModule.addStore

/-! ### How `jmd_init` ends -/

/-- Everything is granted. -/
structure InitEnv.Complete (env : InitEnv) : Prop where
  major : ¬ env.major < 0
  thread : env.thread = true
  mddev : env.mddev = true
  queue : env.queue = true
  disk : env.disk = true
  kobj : env.kobj = true
  files : env.files = 0

/-- The module as `jmd_init` leaves it if nothing fails. -/
def JmdModule.whole (device : DevT → BlockDev) : JmdModule :=
  ⟨some (.fresh device), true, true, .live, true, 0, [],
    [.acquire .major, .acquire .recoveryThread, .acquire .mddev, .acquire .queue, .acquire .disk,
      .acquire .kobj, .acquire .files]⟩

/-- **How `jmd_init` ends**: nothing fails, or the module is loaded without the file `add` and with
a pointer that `jmd_exit` must not follow, or the module is not loaded. -/
theorem jmdInit_cases {device : DevT → BlockDev} {env : InitEnv} {ret : Int32} {m : JmdModule}
    (h : jmdInit device env = .ok (ret, m)) :
    (env.Complete ∧ m = .whole device) ∨
      (¬ env.Complete ∧ (m.jmddev = none ∨ m.kobjBase ≠ .live)) := by
  unfold jmdInit at h
  dsimp only at h
  split at h
  · rename_i hmajor
    cases h
    exact Or.inr ⟨fun hc => hc.major hmajor, Or.inl rfl⟩
  rename_i hmajor
  split at h
  · rename_i hthread
    cases h
    exact Or.inr ⟨fun hc => by simp [hc.thread] at hthread, Or.inl rfl⟩
  rename_i hthread
  split at h
  · cases h
  rename_i err m' halloc
  cases h
  unfold JmdModule.jmdAlloc at halloc
  dsimp only at halloc
  split at halloc
  · cases halloc
  rename_i hmddev
  split at halloc
  · rename_i hqueue
    cases halloc
    exact Or.inr ⟨fun hc => by simp [hc.queue] at hqueue, Or.inr nofun⟩
  rename_i hqueue
  split at halloc
  · rename_i hdisk
    cases halloc
    exact Or.inr ⟨fun hc => by simp [hc.disk] at hdisk, Or.inr nofun⟩
  rename_i hdisk
  split at halloc
  · rename_i hkobj
    cases halloc
    exact Or.inr ⟨fun hc => by simp [hc.kobj] at hkobj, Or.inr nofun⟩
  rename_i hkobj
  split at halloc
  · rename_i hfiles
    cases halloc
    exact Or.inr ⟨fun hc => hfiles hc.files, Or.inr nofun⟩
  rename_i hfiles
  cases halloc
  simp only [Bool.not_eq_true', Bool.not_eq_false] at hthread hmddev hqueue hdisk hkobj
  exact Or.inl ⟨⟨hmajor, hthread, hmddev, hqueue, hdisk, hkobj, not_not.mp hfiles⟩, rfl⟩

/-- Without the file `add` nothing is added. -/
theorem JmdModule.exec_of_not_live {m₀ m m' : JmdModule} {calls : List AddStoreCall}
    (hno : m.jmddev = none ∨ m.kobjBase ≠ .live) (h : (moduleSystem m₀).exec m calls = .ok m') :
    m' = m := by
  induction calls with
  | nil => exact (Except.ok.inj h).symm
  | cons call calls ih =>
    have hstep : (moduleSystem m₀).step m call = .ok m := by
      change m.addStore call = _
      unfold JmdModule.addStore
      split
      · rename_i jmddev hjmddev hlive
        rcases hno with hnone | hne
        · exact absurd (hnone.symm.trans hjmddev) nofun
        · exact absurd hlive hne
      · rfl
    rw [FallibleSystem.exec, hstep] at h
    exact ih h

/-! ### A run of the module -/

/-- What `jmd_init` has acquired. -/
def initResources : List JmdResource :=
  [.major, .recoveryThread, .mddev, .queue, .disk, .kobj, .files]

/-- Call number `i` of the sequence satisfies `P` in the state of the array in which it comes. -/
def CallTurn (device : DevT → BlockDev) (P : Jmddev → AddStoreCall → Prop)
    (calls : List AddStoreCall) (i : ℕ) : Prop :=
  (addStoreSystem device).Turn P (addStoreSystem device).init calls i

/-- What is held after the calls, without the superblock of the array. -/
def heldAfter (device : DevT → BlockDev) (calls : List AddStoreCall) : Set JmdResource :=
  {a | a ∈ initResources ∨
    ∃ i r, a = .store i r ∧ CallTurn device (fun s call => s.Holds call r) calls i}

/-- What holds of a module after the calls: it is as `jmd_init` has left it but for the array, which
is that of the calls, the member list, of which the calls are known that have bound its entries, and
the ledger. -/
structure JmdModule.After (device : DevT → BlockDev) (calls : List AddStoreCall) (m : JmdModule)
    (s : Jmddev) : Prop where
  exec : (addStoreSystem device).exec (addStoreSystem device).init calls = .ok s
  whole : m = { JmdModule.whole device with
    jmddev := some s, calls := calls.length, bound := m.bound, log := m.log }
  leads : Leads ∅ m.log (heldAfter device calls ∪ {a | a = .arraySb ∧ s.sb.isSome})
  mem_bound : ∀ i, i ∈ m.bound ↔ CallTurn device Jmddev.BindsDevice calls i
  nodup : m.bound.Nodup
  length : m.bound.length = s.nbDev

variable {device : DevT → BlockDev} {calls : List AddStoreCall}

theorem CallTurn.lt {P : Jmddev → AddStoreCall → Prop} {i : ℕ}
    (h : CallTurn device P calls i) : i < calls.length := by
  obtain ⟨_, _, hget, -⟩ := h
  exact (List.getElem?_eq_some_iff.mp hget).1

/-- A call has one turn only. -/
theorem CallTurn.and_not_iff {P Q : Jmddev → AddStoreCall → Prop} {i : ℕ} :
    CallTurn device (fun s call => P s call ∧ ¬ Q s call) calls i ↔
      CallTurn device P calls i ∧ ¬ CallTurn device Q calls i := by
  constructor
  · rintro ⟨s, call, hget, hexec, hP, hQ⟩
    refine ⟨⟨s, call, hget, hexec, hP⟩, ?_⟩
    rintro ⟨s', call', hget', hexec', hQ'⟩
    obtain rfl := Option.some.inj (hget.symm.trans hget')
    obtain rfl := Except.ok.inj (hexec.symm.trans hexec')
    exact hQ hQ'
  · rintro ⟨⟨s, call, hget, hexec, hP⟩, hQ⟩
    exact ⟨s, call, hget, hexec, hP, fun hQ' => hQ ⟨s, call, hget, hexec, hQ'⟩⟩

theorem CallTurn.and_right_iff {P : Jmddev → AddStoreCall → Prop} {p : Prop} {i : ℕ} :
    CallTurn device (fun s call => P s call ∧ p) calls i ↔ CallTurn device P calls i ∧ p := by
  constructor
  · rintro ⟨s, call, hget, hexec, hP, hp⟩
    exact ⟨⟨s, call, hget, hexec, hP⟩, hp⟩
  · rintro ⟨⟨s, call, hget, hexec, hP⟩, hp⟩
    exact ⟨s, call, hget, hexec, hP, hp⟩

/-- What a further call adds to what is held. -/
theorem heldAfter_concat {s : Jmddev} (call : AddStoreCall)
    (h : (addStoreSystem device).exec (addStoreSystem device).init calls = .ok s) :
    heldAfter device (calls ++ [call]) =
      JmdResource.store calls.length '' {r | s.Holds call r} ∪ heldAfter device calls := by
  ext a
  simp only [heldAfter, CallTurn, FallibleSystem.turn_concat_iff h, Set.mem_union, Set.mem_image,
    Set.mem_ofPred_eq]
  constructor
  · rintro (ha | ⟨i, r, rfl, hturn | ⟨rfl, hholds⟩⟩)
    · exact Or.inr (Or.inl ha)
    · exact Or.inr (Or.inr ⟨i, r, rfl, hturn⟩)
    · exact Or.inl ⟨r, hholds, rfl⟩
  · rintro (⟨r, hholds, rfl⟩ | ha | ⟨i, r, rfl, hturn⟩)
    · exact Or.inr ⟨_, r, rfl, Or.inr ⟨rfl, hholds⟩⟩
    · exact Or.inl ha
    · exact Or.inr ⟨i, r, rfl, Or.inl hturn⟩

theorem JmdModule.after_nil : JmdModule.After device [] (.whole device) (.fresh device) where
  exec := rfl
  whole := rfl
  leads := by
    have hheld : heldAfter device [] ∪ {a | a = .arraySb ∧ (Jmddev.fresh device).sb.isSome} =
        ∅ ∪ {a | a ∈ initResources} := by
      ext a
      have hnone : ∀ P i, ¬ CallTurn device P [] i := fun P i h => Nat.not_lt_zero _ h.lt
      simp [heldAfter, hnone, Jmddev.fresh]
    rw [hheld]
    exact Leads.acquires (l := initResources) (by decide) fun _ _ => Set.notMem_empty _
  mem_bound i := iff_of_false List.not_mem_nil fun h => Nat.not_lt_zero _ h.lt
  nodup := List.nodup_nil
  length := rfl

/-- **What a call does to the module.** -/
theorem JmdModule.After.addStore {m m' : JmdModule} {s : Jmddev} {call : AddStoreCall}
    (h : m.After device calls s) (hstep : m.addStore call = .ok m') :
    ∃ s', m'.After device (calls ++ [call]) s' := by
  rw [h.whole] at hstep
  unfold JmdModule.addStore at hstep
  dsimp only [JmdModule.whole] at hstep
  split at hstep
  · cases hstep
  rename_i ret s' log hledger
  cases hstep
  have hstore : s.addStore call = .ok (ret, s') := by
    rw [← s.map_addStoreLedger calls.length call, hledger]
    rfl
  have hexec : (addStoreSystem device).exec (addStoreSystem device).init (calls ++ [call]) =
      .ok s' := by
    rw [FallibleSystem.exec_concat, h.exec]
    exact congrArg (Except.map Prod.snd) hstore
  have hbinds : s.BindsDevice call ↔ s'.nbDev = s.nbDev + 1 := by
    constructor
    · rintro ⟨ret', t, ht, hnb⟩
      obtain ⟨-, rfl⟩ := Prod.mk.inj (Except.ok.inj (hstore.symm.trans ht))
      exact hnb
    · exact fun hnb => ⟨ret, s', hstore, hnb⟩
  have hmem : ∀ i, CallTurn device Jmddev.BindsDevice (calls ++ [call]) i ↔
      i ∈ m.bound ∨ (i = calls.length ∧ s'.nbDev = s.nbDev + 1) := fun i => by
    rw [h.mem_bound, ← hbinds]
    exact FallibleSystem.turn_concat_iff h.exec call i
  have hfresh : calls.length ∉ m.bound := fun hin => ((h.mem_bound _).mp hin).lt.ne rfl
  refine ⟨s', hexec, ?_, ?_, ?_, ?_, ?_⟩
  · simp [JmdModule.whole]
  · obtain ⟨-, hleads⟩ := leads_addStoreLedger (A := heldAfter device calls) hledger
      (by rintro (hin | ⟨i, r, heq, -⟩)
          · simp [initResources] at hin
          · cases heq)
      (by rintro r (hin | ⟨i, r', heq, hturn⟩)
          · simp [initResources] at hin
          · obtain ⟨rfl, rfl⟩ := JmdResource.store.inj heq
            exact hturn.lt.ne rfl)
    rw [heldAfter_concat call h.exec, Set.union_assoc]
    refine h.leads.append ?_
    rwa [besides, Set.image_empty, Set.empty_union] at hleads
  · intro i
    rw [hmem]
    dsimp only
    split
    · rename_i hnb
      rw [List.mem_cons, or_comm]
      simp [hnb]
    · rename_i hnb
      simp [hnb]
  · dsimp only
    split
    · exact List.nodup_cons.mpr ⟨hfresh, h.nodup⟩
    · exact h.nodup
  · dsimp only
    split
    · rename_i hnb
      rw [List.length_cons, h.length, hnb]
    · rename_i hnb
      rw [h.length]
      exact ((Jmddev.nbDev_addStore hstore).resolve_right hnb).symm

/-- A module that `jmd_init` has loaded without a failure, after a sequence of calls. -/
theorem JmdModule.after_of_exec {m : JmdModule}
    (h : (moduleSystem (.whole device)).exec (.whole device) calls = .ok m) :
    ∃ s, m.After device calls s := by
  induction calls using List.reverseRecOn generalizing m with
  | nil =>
    obtain rfl := Except.ok.inj h
    exact ⟨_, JmdModule.after_nil⟩
  | append_singleton calls call ih =>
    rw [FallibleSystem.exec_concat] at h
    cases hexec : (moduleSystem (.whole device)).exec (.whole device) calls with
    | error f =>
      rw [hexec] at h
      cases h
    | ok m' =>
      rw [hexec] at h
      obtain ⟨s, hafter⟩ := ih hexec
      exact hafter.addStore h

/-! ### What is left behind -/

/-- What a call leaves behind for ever. -/
inductive Jmddev.Leaves (s : Jmddev) (call : AddStoreCall) : StoreResource → Prop
  /-- the device is open when an allocation is refused -/
  | path (h : call.Abandons) : Leaves s call .path
  /-- nothing frees the `jmd_rdev` of a member -/
  | rdev (h : s.BindsDevice call) : Leaves s call (.imported .rdev)
  | page (h : s.LosesPage call) : Leaves s call (.imported .sbPage)
  /-- the file system is not put -/
  | super (h : s.KeepsSuper call) : Leaves s call .super
  /-- an update gives back neither its pages nor the bios that it does not submit -/
  | write {t : Jmddev} (h : s.Updates call t) {k j : ℕ} {r : SbResource}
    (hkept : (k, j, r) ∈ t.updateKept call.env.run.update) : Leaves s call (.write k j r)

/-- What is held after a call and is not released for a member is left behind. -/
theorem Jmddev.leaves_iff {s : Jmddev} {call : AddStoreCall} {r : StoreResource} :
    s.Leaves call r ↔
      s.Holds call r ∧ ¬ (s.BindsDevice call ∧ (r = .imported .claim ∨ r = .imported .sbPage)) := by
  constructor
  · rintro (habandons | hbinds | hlost | hsuper | ⟨hupdates, hx⟩)
    · exact ⟨.path habandons, by simp⟩
    · exact ⟨.member hbinds .rdev, by simp⟩
    · exact ⟨.page hlost, fun h => hlost.not_bindsDevice h.1⟩
    · exact ⟨.super hsuper, by simp⟩
    · exact ⟨.write hupdates hx, by simp⟩
  · rintro ⟨habandons | ⟨hbinds, r⟩ | hlost | hsuper | ⟨hupdates, hx⟩, hkept⟩
    · exact .path habandons
    · cases r with
      | rdev => exact .rdev hbinds
      | sbPage => exact absurd ⟨hbinds, Or.inr rfl⟩ hkept
      | claim => exact absurd ⟨hbinds, Or.inl rfl⟩ hkept
    · exact .page hlost
    · exact .super hsuper
    · exact .write hupdates hx

/-- What is left behind by a module that has been unloaded after the calls. -/
def leftAfter (device : DevT → BlockDev) (calls : List AddStoreCall) (s : Jmddev) :
    Set JmdResource :=
  {a | a = .kobj ∨ (a = .arraySb ∧ s.sb.isSome) ∨
    ∃ i r, a = .store i r ∧ CallTurn device (fun s call => s.Leaves call r) calls i}

/-- The calls that have bound the members are known. -/
theorem JmdModule.After.mem_memberResources {m : JmdModule} {s : Jmddev}
    (h : m.After device calls s) {i : ℕ} {r : StoreResource} :
    .store i r ∈ memberResources m.bound ↔
      CallTurn device Jmddev.BindsDevice calls i ∧
        (r = .imported .claim ∨ r = .imported .sbPage) := by
  simp only [memberResources, List.mem_flatMap, h.mem_bound, List.mem_cons, List.not_mem_nil,
    or_false, JmdResource.store.injEq]
  constructor
  · rintro ⟨j, hturn, ⟨rfl, hr⟩ | ⟨rfl, hr⟩⟩
    · exact ⟨hturn, Or.inl hr⟩
    · exact ⟨hturn, Or.inr hr⟩
  · rintro ⟨hturn, hr | hr⟩
    · exact ⟨i, hturn, Or.inl ⟨rfl, hr⟩⟩
    · exact ⟨i, hturn, Or.inr ⟨rfl, hr⟩⟩

theorem JmdModule.eq_store_of_mem {bound : List ℕ} {a : JmdResource}
    (h : a ∈ memberResources bound) : ∃ i r, a = .store i r := by
  obtain ⟨i, -, hr⟩ := List.mem_flatMap.mp h
  rcases List.mem_pair.mp hr with rfl | rfl
  · exact ⟨i, _, rfl⟩
  · exact ⟨i, _, rfl⟩

/-- The loop of `jmd_exit` releases nothing twice. -/
theorem JmdModule.nodup_memberResources {bound : List ℕ} (h : bound.Nodup) :
    (memberResources bound).Nodup := by
  refine List.nodup_flatMap.mpr ⟨fun i _ => by simp, h.imp fun {i j} hne => ?_⟩
  intro a hi hj
  have hstore : ∀ k, a ∈ [JmdResource.store k (.imported .claim), .store k (.imported .sbPage)] →
      ∃ r, a = .store k r := fun k hk => by
    rcases List.mem_pair.mp hk with rfl | rfl
    · exact ⟨_, rfl⟩
    · exact ⟨_, rfl⟩
  obtain ⟨r, rfl⟩ := hstore i hi
  obtain ⟨r', heq⟩ := hstore j hj
  exact hne (JmdResource.store.inj heq).1

/-- **What `jmd_exit` leaves behind.** -/
theorem JmdModule.After.leads_jmdExit {m : JmdModule} {s : Jmddev} (h : m.After device calls s) :
    ∃ log, m.jmdExit = .ok log ∧ Leads ∅ log (leftAfter device calls s) := by
  have hown : m.ownResources = [.files, .disk, .queue, .major, .recoveryThread, .mddev] := by
    rw [h.whole]
    rfl
  have hexit : m.jmdExit =
      .ok (m.log ++ (memberResources m.bound ++ m.ownResources).map .release) := by
    rw [h.whole]
    rfl
  refine ⟨_, hexit, h.leads.append ?_⟩
  rw [hown]
  have hmember : ∀ a ∈ memberResources m.bound,
      a ∉ [JmdResource.files, .disk, .queue, .major, .recoveryThread, .mddev] := by
    intro a ha
    obtain ⟨i, r, rfl⟩ := eq_store_of_mem ha
    simp
  have hnodup := List.nodup_append'.mpr
    ⟨nodup_memberResources h.nodup, (by decide), fun a ha hb => hmember a ha hb⟩
  refine (congrArg (Leads _ _) ?_).mp (Leads.releases hnodup fun a ha => ?_)
  · have hnone : ∀ {a}, (∀ i r, a ≠ .store i r) → a ∉ memberResources m.bound := fun hne ha => by
      obtain ⟨i, r, heq⟩ := eq_store_of_mem ha
      exact hne i r heq
    ext a
    cases a with
    | store i r =>
      have hleaves : CallTurn device (fun s call => s.Leaves call r) calls i ↔
          CallTurn device (fun s call => s.Holds call r) calls i ∧
            .store i r ∉ memberResources m.bound := by
        simp only [h.mem_memberResources, Jmddev.leaves_iff]
        rw [CallTurn.and_not_iff, CallTurn.and_right_iff]
      simp [heldAfter, leftAfter, initResources, hleaves]
    | _ => simp [heldAfter, leftAfter, initResources, hnone]
  · rcases List.mem_append.mp ha with ha | ha
    · obtain ⟨i, r, rfl⟩ := eq_store_of_mem ha
      obtain ⟨⟨t, call, hget, hexec, hbinds⟩, hr⟩ := h.mem_memberResources.mp ha
      refine Or.inl (Or.inr ⟨i, r, rfl, t, call, hget, hexec, ?_⟩)
      rcases hr with rfl | rfl
      · exact .member hbinds _
      · exact .member hbinds _
    · refine Or.inl (Or.inl ?_)
      revert ha
      cases a <;> simp [initResources]

/-- **What is left behind** by a module that is loaded, used and unloaded: if something has failed
while it was loaded, `jmd_exit` follows a pointer that leads nowhere; if nothing has, it goes over
all members, the ledger of the whole lifetime is in order, and leads to the things that `leftAfter`
lists. -/
theorem left_behind {env : InitEnv} {ret : Int32} {m₀ m : JmdModule}
    (hinit : jmdInit device env = .ok (ret, m₀))
    (hrun : (moduleSystem m₀).exec m₀ calls = .ok m) :
    (¬ env.Complete ∧ m.jmdExit = .error .badPointer) ∨
      (env.Complete ∧ ∃ s log, (addStoreSystem device).exec (addStoreSystem device).init calls =
        .ok s ∧ m.bound.length = s.disks.length ∧ m.jmdExit = .ok log ∧
          Leads ∅ log (leftAfter device calls s)) := by
  obtain ⟨hcomplete, rfl⟩ | ⟨hno, hpointer⟩ := jmdInit_cases hinit
  · obtain ⟨s, hafter⟩ := JmdModule.after_of_exec hrun
    obtain ⟨log, hexit, hleads⟩ := hafter.leads_jmdExit
    have hsound := Jmddev.Sound.of_reachable (FallibleSystem.reachable_of_exec hafter.exec)
    exact Or.inr ⟨hcomplete, s, log, hafter.exec, hafter.length.trans hsound.nbDev, hexit, hleads⟩
  · obtain rfl := JmdModule.exec_of_not_live hpointer hrun
    refine Or.inl ⟨hno, ?_⟩
    unfold JmdModule.jmdExit
    split
    · rename_i jmddev hjmddev hlive
      rcases hpointer with hnone | hne
      · exact absurd (hnone.symm.trans hjmddev) nofun
      · exact absurd hlive hne
    · rfl

/-- Everything is granted while the module is loaded. -/
def initAll : InitEnv := ⟨252, true, true, true, true, true, 0⟩

/-- Three devices that are bound, so that the array is started, and between them one that stays open
because an allocation is refused, one whose claim is refused, and one from which a file system is
mounted just before `get_super` looks. -/
def lossyCalls : List AddStoreCall :=
  [addCall 3 0 0, { addCall 3 1 16 with env := { (addCall 3 1 16).env with info := false } },
    { addCall 3 2 32 with env := { (addCall 3 2 32).env with add := noClaim } },
    { addCall 3 2 48 with
      env := { (addCall 3 2 48).env with add := { importAll with activeSuper := true } } },
    addCall 3 1 16, addCall 3 2 32]

theorem left_behind_lossy : ∃ m₀ m, jmdInit evenDevices initAll = .ok (0, m₀) ∧
    (moduleSystem m₀).exec m₀ lossyCalls = .ok m ∧
      (m.bound = [5, 4, 0] ∧ .acquire (.store 5 (.write 0 2 .page)) ∈ m.log) ∧
        ((¬ initAll.Complete ∧ m.jmdExit = .error .badPointer) ∨
          (initAll.Complete ∧ ∃ s log,
            (addStoreSystem evenDevices).exec (addStoreSystem evenDevices).init lossyCalls = .ok s ∧
              m.bound.length = s.disks.length ∧ m.jmdExit = .ok log ∧
                Leads ∅ log (leftAfter evenDevices lossyCalls s))) := by
  have hinit : jmdInit evenDevices initAll = .ok (0, .whole evenDevices) := rfl
  have hrun : ((moduleSystem (.whole evenDevices)).exec (.whole evenDevices)
      lossyCalls).toOption.map (fun m => (m.bound,
        decide (Entry.acquire (JmdResource.store 5 (.write 0 2 .page)) ∈ m.log))) =
      some ([5, 4, 0], true) := by decide +kernel
  obtain ⟨m, hexec, hshow⟩ := FallibleSystem.exists_exec hrun
  obtain ⟨hbound, hpage⟩ := Prod.mk.inj hshow
  exact ⟨.whole evenDevices, m, hinit, hexec, ⟨hbound, of_decide_eq_true hpage⟩,
    left_behind hinit hexec⟩

end Jmd

end JRaid
