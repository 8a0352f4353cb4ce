import JRaid.Jmd.ChunkSize
import JRaid.Jmd.FailedAdd
import JRaid.Jmd.Reachable
import JRaid.Jmd.Stale

/-!
# Indices into the two tables

The descriptors of a superblock and the slots of `conf->disks` are `MD_SB_DISKS` each. What is
used as an index into them comes from whoever writes to the `add` file and from the disks, and is
compared with `nr_disks` and `raid_disks` only, which come from there too. Whether a run stays in
the tables is therefore a matter of what is written and of what is on the disks: a call stays there
if and only if the number it enters is below `MD_SB_DISKS` (`Jmddev.NumbersInTable`) and the array
that it starts, if it starts one, names descriptors and slots that exist (`Jmddev.StartsInTable`).
-/

namespace JRaid

namespace Jmd

/-! ### Arrays that name what exists -/

/-- The number is that of a descriptor that exists, and this names a slot that exists or none. -/
def Superblock.HasPlace (sb : Superblock) (nr : Int32) : Prop :=
  ∃ i, descIndex nr = some i ∧
    ((sb.disks i).raidDisk ≤ sb.raidDisks → (sb.disks i).raidDisk.toNat < mdSbDisks)

/-- What `jraid5_run` uses as an index, if these descriptors are faulty: each member has a place,
the slots that the faulty descriptors name exist, and so do the slots up to `raid_disks`, if it
comes to the marks. -/
@[mk_iff]
structure Superblock.Indexes (sb : Superblock) (disks : List Rdev) (faulty : Fin mdSbDisks → Prop)
    (env : RunEnv) : Prop where
  member : ∀ m ∈ disks, sb.HasPlace m.descNr
  dropped : ∀ i, faulty i → (sb.disks i).raidDisk < sb.raidDisks →
    (sb.disks i).raidDisk.toNat < mdSbDisks
  slots : sb.raidDisks.toNat ≤ mdSbDisks ∨ env.thread = false ∨ env.stripes = false ∨
    algorithmRightSymmetric < sb.layout.toInt32 ∨
    1 < sb.raidDisks.toInt32 - Int32.ofNat (sb.taken disks).card

/-- The pass that follows the members comes to the member `m`. -/
def RenameReaches (sb : Superblock) (disks : List Rdev) (m : Rdev) : Prop :=
  ∃ before after sb' disks', disks = before ++ m :: after ∧
    renamePass sb before = .ok (true, sb', disks')

/-- `analyze_sbs` adopts the superblock of `f`. -/
structure Jmddev.Adopts (s : Jmddev) (alloc : Bool) (f : Rdev) : Prop where
  room : s.sb.isSome = true ∨ alloc = true
  good : ∀ m ∈ s.disks, m.faulty = false ∧ m.checkDiskSb = 0
  fresh : freshest (s.disks.map Rdev.age) = some f

/-- `do_jmd_run` does not turn the array down at once, and adopts the superblock of `f`. -/
structure Jmddev.StartsFrom (s : Jmddev) (env : RunEnv) (f : Rdev) : Prop where
  bound : s.nbDev ≠ 0
  stopped : s.pers = false
  adopts : s.Adopts env.sb f

/-- The start comes to the slots: `analyze_sbs` succeeds, the chunk size and the level are accepted,
so are the sizes of the devices, and there is memory for the configuration. -/
def Jmddev.ComesToSlots (s : Jmddev) (env : RunEnv) : Prop :=
  ∃ s' sb, { s with jmdSize := 0 }.analyzeSbs env.sb = .ok (0, s') ∧ s'.sb = some sb ∧
    sb.checkGeometry env = true ∧ (s'.deviceSizeCalculation sb).1 = 0 ∧
    env.conf = true ∧ env.hashtbl = true

/-- What `do_jmd_run` uses as an index when it is called: the numbers of the members that it
follows, and if it comes to the slots, what the adopted superblock names. -/
structure Jmddev.StartsInTable (s : Jmddev) (env : RunEnv) : Prop where
  followed : ∀ f, s.StartsFrom env f → ∀ m, RenameReaches f.sb (s.disks.map Rdev.age) m →
    m.Moved f.sb → m.descNr ≠ -1 → (descIndex m.descNr).isSome
  indexes : ∀ f, s.StartsFrom env f → s.ComesToSlots env →
    f.sb.Indexes (s.disks.map Rdev.age) (f.sb.EndsFaulty (s.disks.map Rdev.age)) env

/-- What `add_new_disk` uses as an index: a new device with a number below `nr_disks` has one that
is below the size of the table too. -/
def Jmddev.NumbersInTable (s : Jmddev) (info : JmdDiskInfo) : Prop :=
  ∀ sb, info.dev ∉ s.all → s.sb = some sb → info.number.toUInt32 < sb.nrDisks →
    (descIndex info.number).isSome

/-- What a call of `add_store` uses as an index, if it gets the memory that it asks for first. -/
structure Jmddev.StaysInTable (s : Jmddev) (call : AddStoreCall) : Prop where
  add : call.env.granted = true → ∀ bdev, call.env.bdev = some bdev →
    (s.prepare call).NumbersInTable (call.diskInfo bdev)
  run : call.env.granted = true → ∀ bdev s', call.env.bdev = some bdev →
    s.addMember call bdev = .ok s' → (s'.nbDev : ℤ) = call.totalNum.toInt →
      (s'.publish call.totalNum).StartsInTable call.env.run

/-! ### `analyze_sbs` -/

/-- What the pass does with a member: it is left there, leaves the table, or goes on. -/
theorem renamePass_cons_cases (sb : Superblock) (jrdev : Rdev) :
    (∀ rest, renamePass sb (jrdev :: rest) = .ok (false, sb, jrdev :: rest)) ∨
      (jrdev.faulty = false ∧ jrdev.Moved sb ∧ jrdev.descNr ≠ -1 ∧
        descIndex jrdev.descNr = none) ∨
      ∃ sb₁ jrdev', sb₁.event = sb.event ∧ ∀ rest, renamePass sb (jrdev :: rest) =
        (renamePass sb₁ rest).map fun r => (r.1, r.2.1, jrdev' :: r.2.2) := by
  cases hfaulty : jrdev.faulty with
  | true => exact Or.inl fun rest => by rw [renamePass, if_pos hfaulty]
  | false =>
    have hgood : ¬jrdev.faulty = true := Bool.eq_false_iff.mp hfaulty
    by_cases hmoved : jrdev.Moved sb
    swap
    · exact Or.inr (Or.inr ⟨sb, jrdev, rfl, fun rest => by
        rw [renamePass, if_neg hgood, if_neg hmoved]⟩)
    by_cases hne : jrdev.descNr = -1
    · exact Or.inl fun rest => by rw [renamePass, if_neg hgood, if_pos hmoved, if_pos hne]
    cases hi : descIndex jrdev.descNr with
    | none => exact Or.inr (Or.inl ⟨rfl, hmoved, hne, rfl⟩)
    | some i =>
      by_cases hold : jrdev.oldDev ≠ (sb.disks i).dev
      · refine Or.inl fun rest => ?_
        rw [renamePass, if_neg hgood, if_pos hmoved, if_neg hne, hi]
        exact if_pos hold
      · refine Or.inr (Or.inr ⟨sb.setDisk i ((sb.disks i).withDev jrdev.dev), jrdev.renamed, rfl,
          fun rest => ?_⟩)
        rw [renamePass, if_neg hgood, if_pos hmoved, if_neg hne, hi]
        exact if_neg hold

theorem renamePass_of_none {sb : Superblock} {m : Rdev} (hgood : m.faulty = false)
    (hmoved : m.Moved sb) (hne : m.descNr ≠ -1) (hnone : descIndex m.descNr = none)
    (rest : List Rdev) : renamePass sb (m :: rest) = .error .outOfTable := by
  rw [renamePass, if_neg (Bool.eq_false_iff.mp hgood), if_pos hmoved, if_neg hne, hnone]

/-- The pass in two parts. -/
theorem renamePass_append {sb sb' : Superblock} {before before' : List Rdev}
    (h : renamePass sb before = .ok (true, sb', before')) (after : List Rdev) :
    renamePass sb (before ++ after) =
      (renamePass sb' after).map fun r => (r.1, r.2.1, before' ++ r.2.2) := by
  induction before generalizing sb before' with
  | nil =>
    obtain ⟨rfl, rfl⟩ : sb = sb' ∧ [] = before' := by simpa [renamePass] using h
    rw [List.nil_append]
    cases renamePass sb after with
    | error e => rfl
    | ok r => rfl
  | cons jrdev rest ih =>
    obtain hstop | ⟨hgood, hmoved, hne, hnone⟩ | ⟨sb₁, jrdev', -, hstep⟩ :=
      renamePass_cons_cases sb jrdev
    · rw [hstop] at h
      cases h
    · rw [renamePass_of_none hgood hmoved hne hnone] at h
      cases h
    rw [hstep] at h
    obtain ⟨⟨all, sb₂, rest'⟩, hrest, hout⟩ := Except.exists_of_map_eq_ok h
    obtain ⟨rfl, rfl, rfl⟩ : all = true ∧ sb₂ = sb' ∧ jrdev' :: rest' = before' := by
      simpa using hout
    rw [List.cons_append, hstep, ih hrest]
    cases renamePass sb₂ after with
    | error e => rfl
    | ok r => rfl

/-- **When the pass leaves the table**: it comes to a member that it follows but that has no
descriptor. -/
theorem renamePass_eq_outOfTable_iff (sb : Superblock) (disks : List Rdev) :
    renamePass sb disks = .error .outOfTable ↔ ∃ m, RenameReaches sb disks m ∧
      m.faulty = false ∧ m.Moved sb ∧ m.descNr ≠ -1 ∧ descIndex m.descNr = none := by
  constructor
  · intro h
    induction disks generalizing sb with
    | nil => cases h
    | cons jrdev rest ih =>
      obtain hstop | hnone | ⟨sb₁, jrdev', hevent, hstep⟩ := renamePass_cons_cases sb jrdev
      · rw [hstop] at h
        cases h
      · exact ⟨jrdev, ⟨[], rest, sb, [], rfl, rfl⟩, hnone⟩
      rw [hstep] at h
      obtain ⟨m, ⟨before, after, sb', disks', rfl, hbefore⟩, hgood, hmoved, hnone⟩ :=
        ih sb₁ (Except.eq_error_of_map h)
      refine ⟨m, ⟨jrdev :: before, after, sb', jrdev' :: disks', rfl, ?_⟩, hgood, ?_, hnone⟩
      · rw [hstep, hbefore]
        rfl
      · rwa [Rdev.Moved, hevent] at hmoved
  · rintro ⟨m, ⟨before, after, sb', disks', rfl, hbefore⟩, hgood, hmoved, hne, hnone⟩
    have hmoved' : m.Moved sb' := by
      rwa [Rdev.Moved, (renamePass_followed hbefore).event]
    rw [renamePass_append hbefore, renamePass_of_none hgood hmoved' hne hnone]
    rfl

theorem allocArraySb_isSome_iff (sb : Option Superblock) (alloc : Bool) :
    (allocArraySb sb alloc).isSome = true ↔ sb.isSome = true ∨ alloc = true := by
  cases sb with
  | some sb => simp [allocArraySb]
  | none => cases alloc <;> simp [allocArraySb]

/-- What it takes to adopt a superblock. -/
theorem Jmddev.adopt_eq_iff (s : Jmddev) (alloc : Bool) (sb : Superblock) (disks : List Rdev) :
    s.adopt alloc = .ok (some (sb, disks)) ↔
      ∃ f, s.Adopts alloc f ∧ f.sb = sb ∧ s.disks.map Rdev.age = disks := by
  constructor
  · intro h
    obtain ⟨hgood, f, hf, rfl, rfl⟩ := of_adopt h
    refine ⟨f, ⟨?_, hgood, hf⟩, rfl, rfl⟩
    rw [← allocArraySb_isSome_iff, ← Option.ne_none_iff_isSome]
    intro hnone
    rw [adopt, hnone] at h
    split at h
    · cases h
    · cases h
  · rintro ⟨f, hf, rfl, rfl⟩
    obtain ⟨sb, hsb⟩ := Option.isSome_iff_exists.mp ((allocArraySb_isSome_iff _ _).mpr hf.room)
    have hany : ¬(s.disks.any fun jrdev => jrdev.faulty || jrdev.checkDiskSb != 0) = true := by
      rw [List.any_eq_true]
      rintro ⟨m, hm, hbad⟩
      obtain ⟨hfaulty, hcheck⟩ := hf.good m hm
      simp [hfaulty, hcheck] at hbad
    rw [adopt, if_neg hany, hsb]
    dsimp only
    rw [hf.fresh]

theorem Jmddev.adopt_ne_outOfTable (s : Jmddev) (alloc : Bool) :
    s.adopt alloc ≠ .error .outOfTable := by
  intro h
  unfold adopt at h
  split at h
  · cases h
  split at h
  · cases h
  dsimp only at h
  split at h
  · cases h
  · cases h

/-- **When `analyze_sbs` leaves the table.** -/
theorem Jmddev.analyzeSbs_eq_outOfTable_iff (s : Jmddev) (alloc : Bool) :
    s.analyzeSbs alloc = .error .outOfTable ↔ ∃ f, s.Adopts alloc f ∧
      ∃ m, RenameReaches f.sb (s.disks.map Rdev.age) m ∧
        m.Moved f.sb ∧ m.descNr ≠ -1 ∧ descIndex m.descNr = none := by
  constructor
  · intro h
    unfold analyzeSbs at h
    split at h
    · rename_i hadopt
      rw [Except.error.inj h] at hadopt
      exact absurd hadopt (s.adopt_ne_outOfTable alloc)
    · cases h
    rename_i hadopt
    obtain ⟨f, hf, rfl, rfl⟩ := (s.adopt_eq_iff alloc _ _).mp hadopt
    split at h
    · rename_i hrename
      rw [Except.error.inj h] at hrename
      obtain ⟨m, hm, -, hrest⟩ := (renamePass_eq_outOfTable_iff _ _).mp hrename
      exact ⟨f, hf, m, hm, hrest⟩
    · cases h
    · cases h
  · rintro ⟨f, hf, m, hm, hrest⟩
    have hgood : m.faulty = false := by
      obtain ⟨before, after, sb', disks', hsplit, -⟩ := hm
      have hmem : m ∈ s.disks.map Rdev.age := hsplit ▸ List.mem_append_cons_self
      obtain ⟨m', hm', rfl⟩ := List.mem_map.mp hmem
      exact (congrArg Profile.faulty m'.profile_age).trans (hf.good m' hm').1
    rw [analyzeSbs, (s.adopt_eq_iff alloc _ _).mpr ⟨f, hf, rfl, rfl⟩]
    dsimp only
    rw [(renamePass_eq_outOfTable_iff _ _).mpr ⟨m, hm, hgood, hrest⟩]

/-! ### `jraid5_run` -/

theorem Disk.faulty_marks (d : Disk) : d.markActive.markSync.faulty = d.faulty := by
  have h : ∀ n : UInt32, n &&& ((1 : UInt32) <<< 0) = 0 → ∀ state : UInt32,
      (state ||| n) &&& ((1 : UInt32) <<< 0) = state &&& ((1 : UInt32) <<< 0) := by
    intro n hn state
    have hdistrib : (state ||| n) &&& ((1 : UInt32) <<< 0) =
        (state &&& ((1 : UInt32) <<< 0)) ||| (n &&& ((1 : UInt32) <<< 0)) :=
      UInt32.toBitVec_inj.mp BitVec.and_or_distrib_right
    rw [hdistrib, hn, UInt32.or_zero]
  rw [faulty, markSync, markActive, h _ (by decide), h _ (by decide)]
  rfl

/-- The first loop does not change which descriptors are faulty. -/
theorem RunState.faulty_placeMembers {st st' : RunState} {disks : List Rdev}
    (h : st.placeMembers disks = .ok st') (i : Fin mdSbDisks) :
    (st'.sb.disks i).faulty = (st.sb.disks i).faulty := by
  refine map_placeMembers (f := fun sb => (sb.disks i).faulty) (fun sb j => ?_) h
  by_cases hij : i = j
  · rw [hij, Superblock.setDisk_self, Disk.faulty_marks]
  · rw [Superblock.setDisk_of_ne _ _ hij]

theorem descIndex_toInt32 (n : UInt32) (h : n.toNat < mdSbDisks) :
    descIndex n.toInt32 = some ⟨_, h⟩ := by
  rw [descIndex_eq_some_iff, UInt32.toUInt32_toInt32]

theorem descIndex_toInt32_eq_none {n : UInt32} (h : ¬n.toNat < mdSbDisks) :
    descIndex n.toInt32 = none :=
  dif_neg (by rwa [UInt32.toUInt32_toInt32])

/-- A member is placed exactly if it has a place. -/
theorem RunState.Filled.placeMember_cases {sb : Superblock} {l : List Rdev} {st : RunState}
    (h : st.Filled sb l) (m : Rdev) :
    (st.placeMember m = .error .outOfTable ∧ ¬sb.HasPlace m.descNr) ∨
      (∃ st', st.placeMember m = .ok st') ∧ sb.HasPlace m.descNr := by
  rw [RunState.placeMember]
  cases hi : descIndex m.descNr with
  | none =>
    refine Or.inl ⟨rfl, ?_⟩
    rintro ⟨i, hi', -⟩
    cases hi.symm.trans hi'
  | some i =>
    have hraid : (st.sb.disks i).markActive.markSync.raidDisk = (sb.disks i).raidDisk :=
      h.raidDisk i
    have hdisks : (st.sb.setDisk i (st.sb.disks i).markActive.markSync).raidDisks =
        sb.raidDisks := h.raidDisks
    dsimp only
    rw [hraid, hdisks]
    by_cases hpast : sb.raidDisks < (sb.disks i).raidDisk
    · exact Or.inr ⟨⟨_, if_pos hpast⟩, i, hi, fun hle => absurd hpast (UInt32.not_lt.mpr hle)⟩
    rw [if_neg hpast]
    by_cases hlt : (sb.disks i).raidDisk.toNat < mdSbDisks
    · rw [descIndex_toInt32 _ hlt]
      refine Or.inr ⟨?_, i, hi, fun _ => hlt⟩
      dsimp only
      split
      · exact ⟨_, rfl⟩
      · exact ⟨_, rfl⟩
    · rw [descIndex_toInt32_eq_none hlt]
      refine Or.inl ⟨rfl, ?_⟩
      rintro ⟨i', hi', hslot⟩
      obtain rfl := Option.some.inj (hi.symm.trans hi')
      exact hlt (hslot (UInt32.not_lt.mp hpast))

/-- **The first loop** stays in the table exactly if each member has a place. -/
theorem RunState.Filled.placeMembers_cases {sb : Superblock} {l : List Rdev} {st : RunState}
    (h : st.Filled sb l) (rest : List Rdev) :
    (st.placeMembers rest = .error .outOfTable ∧ ¬∀ m ∈ rest, sb.HasPlace m.descNr) ∨
      (∃ st', st.placeMembers rest = .ok st') ∧ ∀ m ∈ rest, sb.HasPlace m.descNr := by
  induction rest generalizing l st with
  | nil => exact Or.inr ⟨⟨st, rfl⟩, fun _ hm => absurd hm List.not_mem_nil⟩
  | cons m rest ih =>
    rw [List.forall_mem_cons]
    obtain ⟨hstop, hno⟩ | ⟨⟨st₁, hone⟩, hplace⟩ := h.placeMember_cases m
    · rw [RunState.placeMembers, hstop]
      exact Or.inl ⟨rfl, fun hall => hno hall.1⟩
    · rw [RunState.placeMembers, hone]
      exact (ih (h.placeMember hone)).imp (And.imp_right fun hno hall => hno hall.2)
        (And.imp_right fun hall => ⟨hplace, hall⟩)

/-- A faulty descriptor of the array is placed exactly if its slot exists. -/
theorem RunState.placeFaulty_cases (st : RunState) (i : Fin mdSbDisks) :
    (st.placeFaulty i = .error .outOfTable ∧ ¬((st.sb.disks i).faulty = true →
        (st.sb.disks i).raidDisk < st.sb.raidDisks →
          (st.sb.disks i).raidDisk.toNat < mdSbDisks)) ∨
      (∃ st', st.placeFaulty i = .ok st') ∧ ((st.sb.disks i).faulty = true →
        (st.sb.disks i).raidDisk < st.sb.raidDisks →
          (st.sb.disks i).raidDisk.toNat < mdSbDisks) := by
  by_cases hfaulty : (st.sb.disks i).faulty = true ∧ (st.sb.disks i).raidDisk < st.sb.raidDisks
  swap
  · exact Or.inr ⟨⟨st, if_neg hfaulty⟩, fun hf hlt => absurd ⟨hf, hlt⟩ hfaulty⟩
  rw [placeFaulty, if_pos hfaulty]
  by_cases hlt : (st.sb.disks i).raidDisk.toNat < mdSbDisks
  · rw [descIndex_toInt32 _ hlt]
    refine Or.inr ⟨?_, fun _ _ => hlt⟩
    dsimp only
    split
    · exact ⟨_, rfl⟩
    · exact ⟨_, rfl⟩
  · rw [descIndex_toInt32_eq_none hlt]
    exact Or.inl ⟨rfl, fun hslot => hlt (hslot hfaulty.1 hfaulty.2)⟩

/-- **The second loop** stays in the table exactly if the slots of the faulty descriptors exist. -/
theorem RunState.placeAllFaulty_cases (st : RunState) (l : List (Fin mdSbDisks)) :
    (st.placeAllFaulty l = .error .outOfTable ∧ ¬∀ i ∈ l, (st.sb.disks i).faulty = true →
        (st.sb.disks i).raidDisk < st.sb.raidDisks →
          (st.sb.disks i).raidDisk.toNat < mdSbDisks) ∨
      (∃ st', st.placeAllFaulty l = .ok st') ∧ ∀ i ∈ l, (st.sb.disks i).faulty = true →
        (st.sb.disks i).raidDisk < st.sb.raidDisks →
          (st.sb.disks i).raidDisk.toNat < mdSbDisks := by
  induction l generalizing st with
  | nil => exact Or.inr ⟨⟨st, rfl⟩, fun _ hi => absurd hi List.not_mem_nil⟩
  | cons i l ih =>
    rw [List.forall_mem_cons]
    obtain ⟨hstop, hno⟩ | ⟨⟨st₁, hone⟩, hslot⟩ := st.placeFaulty_cases i
    · rw [placeAllFaulty, hstop]
      exact Or.inl ⟨rfl, fun hall => hno hall.1⟩
    · have hrest := ih st₁
      rw [sb_placeFaulty hone] at hrest
      rw [placeAllFaulty, hone]
      exact hrest.imp (And.imp_right fun hno hall => hno hall.2)
        (And.imp_right fun hall => ⟨hslot, hall⟩)

/-- After the checks only the marks can leave the table. -/
theorem RunState.finish_eq_outOfTable_iff (st : RunState) (env : RunEnv) :
    st.finish env = .error .outOfTable ↔ (st.Passes ∧ env.thread = true ∧ env.stripes = true) ∧
      mdSbDisks < st.sb.raidDisks.toNat := by
  constructor
  · intro h
    obtain ⟨st', hfail⟩ | ⟨hpasses, sb, -, hshape, hend⟩ := st.finish_cases env
    · cases h.symm.trans hfail
    refine ⟨hpasses, ?_⟩
    obtain ⟨e', hstop, -⟩ | ⟨st', -, hdone⟩ := hend
    · unfold markInSync at hstop
      split at hstop
      · rename_i hmany
        rwa [← show sb.raidDisks = st.sb.raidDisks from congrArg Shape.raidDisks hshape]
      · cases hstop
    · cases h.symm.trans hdone
  · rintro ⟨⟨hpasses, hthread, hstripes⟩, hmany⟩
    unfold finish
    dsimp only
    rw [ite_passes, if_pos hpasses, hthread, hstripes, Bool.not_true, if_neg Bool.false_ne_true,
      if_neg Bool.false_ne_true, markInSync, if_pos]
    split
    · exact hmany
    · exact hmany

/-- **The two loops** stay in the table exactly if each member has a place and the slots of the
faulty descriptors exist. -/
theorem Jmddev.fillSlots_cases (s : Jmddev) (sb : Superblock) :
    (s.fillSlots sb = .error .outOfTable ∧ ¬((∀ m ∈ s.disks, sb.HasPlace m.descNr) ∧
        ∀ i, (sb.disks i).faulty = true → (sb.disks i).raidDisk < sb.raidDisks →
          (sb.disks i).raidDisk.toNat < mdSbDisks)) ∨
      (∃ st, s.fillSlots sb = .ok st) ∧ (∀ m ∈ s.disks, sb.HasPlace m.descNr) ∧
        ∀ i, (sb.disks i).faulty = true → (sb.disks i).raidDisk < sb.raidDisks →
          (sb.disks i).raidDisk.toNat < mdSbDisks := by
  rw [fillSlots]
  obtain ⟨hstop, hno⟩ | ⟨⟨st, hplace⟩, hall⟩ :=
    (RunState.Filled.nil sb).placeMembers_cases s.disks
  · rw [hstop]
    exact Or.inl ⟨rfl, fun h => hno h.1⟩
  rw [hplace]
  have hf : st.Filled sb s.disks := (RunState.Filled.nil sb).placeMembers hplace
  have hsecond := st.placeAllFaulty_cases (List.finRange mdSbDisks)
  simp only [RunState.faulty_placeMembers hplace, hf.raidDisk, hf.raidDisks, List.mem_finRange,
    true_imp_iff] at hsecond
  exact hsecond.imp (And.imp_right fun hno h => hno h.2) (And.imp_right fun hslots =>
    ⟨hall, hslots⟩)

/-- The loops and the rest, from the superblock and the members they start from. -/
theorem Jmddev.runState_eq_outOfTable_iff (s : Jmddev) {sb : Superblock} {env : RunEnv}
    (hchunk : ¬(sb.chunkSize.toInt32 = 0 ∨ sb.chunkSize.toInt32 % 4 ≠ 0)) :
    s.runState sb env = .error .outOfTable ↔
      ¬sb.Indexes s.disks (fun i => (sb.disks i).faulty = true) env := by
  rw [Superblock.indexes_iff, ← and_assoc, runState]
  obtain ⟨hstop, hno⟩ | ⟨⟨st, hst⟩, hloops⟩ := s.fillSlots_cases sb
  · rw [hstop]
    exact iff_of_true rfl fun h => hno h.1
  rw [hst]
  have hf : st.Filled sb s.disks := Jmddev.filled hst
  refine (st.finish_eq_outOfTable_iff env).trans ?_
  have hpasses : st.Passes ↔ ¬algorithmRightSymmetric < sb.layout.toInt32 ∧
      ¬1 < sb.raidDisks.toInt32 - Int32.ofNat (sb.taken s.disks).card := by
    rw [RunState.Passes, RunState.conf, hf.workingDisks, hf.raidDisks,
      show st.sb.chunkSize = sb.chunkSize from congrArg Shape.chunkSize hf.shape,
      show st.sb.layout = sb.layout from congrArg Shape.layout hf.shape, and_iff_right hchunk]
  rw [hpasses, hf.raidDisks, ← Bool.not_eq_false, ← Bool.not_eq_false]
  constructor
  · rintro ⟨⟨⟨hlayout, hfew⟩, hthread, hstripes⟩, hmany⟩ ⟨-, hle | h | h | h | h⟩
    · exact absurd hmany (Nat.not_lt.mpr hle)
    · exact hthread h
    · exact hstripes h
    · exact hlayout h
    · exact hfew h
  · intro hno
    have hmarks := not_or.mp fun h => hno ⟨hloops, h⟩
    rw [not_or, not_or, not_or, Nat.not_le] at hmarks
    obtain ⟨hmany, hthread, hstripes, hlayout, hfew⟩ := hmarks
    exact ⟨⟨⟨hlayout, hfew⟩, hthread, hstripes⟩, hmany⟩

/-- **When `jraid5_run` leaves the tables.** -/
theorem Jmddev.jraid5Run_eq_outOfTable_iff (s : Jmddev) {sb : Superblock} {env : RunEnv}
    (hcheck : sb.checkGeometry env = true) :
    s.jraid5Run sb env = .error .outOfTable ↔ (env.conf = true ∧ env.hashtbl = true) ∧
      ¬sb.Indexes s.disks (fun i => (sb.disks i).faulty = true) env := by
  have hlevel : ¬(sb.level ≠ 5 ∧ sb.level ≠ 4) := fun hno =>
    (Superblock.of_checkGeometry hcheck).1.elim hno.2 hno.1
  rw [jraid5Run_eq, if_neg hlevel,
    ← s.runState_eq_outOfTable_iff (Superblock.chunk_of_checkGeometry hcheck)]
  cases env.conf with
  | false => exact iff_of_false (by rintro ⟨⟩) fun h => absurd h.1.1 (by decide)
  | true =>
    cases env.hashtbl with
    | false => exact iff_of_false (by rintro ⟨⟩) fun h => absurd h.1.2 (by decide)
    | true =>
      refine Iff.trans ⟨Except.eq_error_of_map, fun h => ?_⟩ (and_iff_right ⟨rfl, rfl⟩).symm
      rw [if_neg (by decide), h]
      rfl

/-! ### Before and after an analysis -/

/-- The analysis does not change which slots are taken. -/
theorem Tabled.taken_eq {f sb : Superblock} {aged disks disks' : List Rdev}
    (ht : Tabled f aged sb disks)
    (hsame : disks'.map Rdev.standing = disks.map Rdev.standing) :
    sb.taken disks' = f.taken aged := by
  ext k
  have hocc := congrArg Option.isSome (ht.map_occupant hsame k)
  rw [Option.isSome_map, Option.isSome_map] at hocc
  simp only [Superblock.taken, FirstClaim.held, Finset.mem_filter, Finset.mem_univ, true_and]
  exact hocc ▸ Iff.rfl

theorem Tabled.hasPlace_iff {f sb : Superblock} {aged disks : List Rdev}
    (ht : Tabled f aged sb disks) (nr : Int32) : sb.HasPlace nr ↔ f.HasPlace nr := by
  simp only [Superblock.HasPlace, ht.raidDisk,
    show sb.raidDisks = f.raidDisks from congrArg Shape.raidDisks ht.shape]

/-- What is used as an index after an analysis shows in the adopted superblock. -/
theorem Tabled.indexes_iff {f sb : Superblock} {aged disks disks' : List Rdev}
    (ht : Tabled f aged sb disks)
    (hsame : disks'.map Rdev.standing = disks.map Rdev.standing) (env : RunEnv) :
    sb.Indexes disks' (fun i => (sb.disks i).faulty = true) env ↔
      f.Indexes aged (f.EndsFaulty aged) env := by
  have hmember : (∀ m ∈ disks', sb.HasPlace m.descNr) ↔ ∀ m ∈ aged, f.HasPlace m.descNr := by
    have hnr := map_descNr_of_standing (hsame.trans ht.standing)
    rw [← List.forall_mem_map (f := Rdev.descNr), ← List.forall_mem_map (f := Rdev.descNr), hnr]
    exact forall₂_congr fun nr _ => ht.hasPlace_iff nr
  rw [Superblock.indexes_iff, Superblock.indexes_iff, hmember, ht.taken_eq hsame,
    show sb.raidDisks = f.raidDisks from congrArg Shape.raidDisks ht.shape,
    show sb.layout = f.layout from congrArg Shape.layout ht.shape]
  simp only [ht.raidDisk, ht.faulty]

/-! ### `do_jmd_run` and `add_store` -/

theorem Jmddev.jmdUpdateSb_ne_outOfTable (s : Jmddev) (env : ℕ → PassEnv) :
    s.jmdUpdateSb env ≠ .error .outOfTable := by
  suffices h : ∀ count (s : Jmddev), s.updatePasses env count ≠ .error .outOfTable from h 100 s
  intro count
  induction count with
  | zero =>
    intro s h
    cases h
  | succ count ih =>
    intro s h
    rw [updatePasses] at h
    split at h
    · cases h
    dsimp only at h
    split at h
    · cases h
    split at h
    · exact ih _ (Except.eq_error_of_map h)
    · cases h

/-- **When the start leaves the table**, after the checks. -/
theorem Jmddev.startPers_eq_outOfTable_iff {s : Jmddev} {sb f : Superblock} {aged : List Rdev}
    {env : RunEnv} (hcheck : sb.checkGeometry env = true) (ht : Tabled f aged sb s.disks) :
    s.startPers sb env = .error .outOfTable ↔
      ((s.deviceSizeCalculation sb).1 = 0 ∧ env.conf = true ∧ env.hashtbl = true) ∧
        ¬f.Indexes aged (f.EndsFaulty aged) env := by
  obtain ⟨⟨serr, s₂⟩, hsize⟩ : ∃ r, s.deviceSizeCalculation sb = r := ⟨_, rfl⟩
  obtain ⟨disks, jmdSize, hs₂, hmap, -, -⟩ := deviceSizeCalculation_cases hsize
  have hsame : s₂.disks.map Rdev.standing = s.disks.map Rdev.standing := by
    rw [hs₂]
    exact hmap fun _ _ => rfl
  have hrun : { s₂ with pers := true }.jraid5Run sb env = .error .outOfTable ↔
      (env.conf = true ∧ env.hashtbl = true) ∧ ¬f.Indexes aged (f.EndsFaulty aged) env := by
    rw [← ht.indexes_iff hsame]
    exact jraid5Run_eq_outOfTable_iff { s₂ with pers := true } hcheck
  rw [startPers, hsize]
  dsimp only
  by_cases hzero : serr = 0
  swap
  · rw [if_pos hzero]
    exact iff_of_false (by rintro ⟨⟩) fun h => hzero h.1.1
  rw [if_neg (not_not.mpr hzero), and_assoc, and_iff_right hzero, ← hrun]
  constructor
  · intro hstop
    split at hstop
    · rename_i e he
      rw [he, Except.error.inj hstop]
    · split at hstop
      · cases hstop
      split at hstop
      · rename_i e hupdate
        rw [Except.error.inj hstop] at hupdate
        exact absurd hupdate (jmdUpdateSb_ne_outOfTable _ _)
      · cases hstop
  · intro hstop
    rw [hstop]

/-- A superblock has been adopted when an analysis succeeds. -/
theorem Jmddev.exists_adopts {s s' : Jmddev} {alloc : Bool}
    (h : s.analyzeSbs alloc = .ok (0, s')) : ∃ f, s.Adopts alloc f := by
  unfold analyzeSbs at h
  split at h
  · cases h
  · exact absurd (Prod.mk.inj (Except.ok.inj h)).1 (by decide)
  · rename_i hadopt
    obtain ⟨f, hf, -⟩ := (s.adopt_eq_iff alloc _ _).mp hadopt
    exact ⟨f, hf⟩

/-- **When `do_jmd_run` stays in the tables.** -/
theorem Jmddev.doJmdRun_ne_outOfTable_iff (s : Jmddev) (env : RunEnv) :
    s.doJmdRun env ≠ .error .outOfTable ↔ s.StartsInTable env := by
  have hadopts : ∀ f, { s with jmdSize := 0 }.Adopts env.sb f ↔ s.Adopts env.sb f :=
    fun f => ⟨fun h => ⟨h.room, h.good, h.fresh⟩, fun h => ⟨h.room, h.good, h.fresh⟩⟩
  constructor
  · intro hne
    refine ⟨fun f hf m hm hmoved hnr => ?_, fun f hf hcomes => ?_⟩
    · by_contra hnone
      have hstop : { s with jmdSize := 0 }.analyzeSbs env.sb = .error .outOfTable :=
        (analyzeSbs_eq_outOfTable_iff _ _).mpr ⟨f, (hadopts f).mpr hf.adopts, m, hm, hmoved, hnr,
          Option.not_isSome_iff_eq_none.mp hnone⟩
      refine hne ?_
      rw [doJmdRun, if_neg hf.bound, if_neg (Bool.eq_false_iff.mp hf.stopped), hstop]
    · by_contra hno
      obtain ⟨s₁, sb, hanalyze, hsb, hcheck, hgranted⟩ := hcomes
      obtain ⟨f', sb', hf', hsb', -, ht⟩ := tabled hanalyze
      obtain rfl : sb' = sb := Option.some.inj (hsb'.symm.trans hsb)
      obtain rfl : f = f' := Option.some.inj (hf.adopts.fresh.symm.trans hf')
      refine hne ?_
      rw [doJmdRun, if_neg hf.bound, if_neg (Bool.eq_false_iff.mp hf.stopped), hanalyze]
      dsimp only
      rw [if_neg (by decide), hsb]
      dsimp only
      rw [hcheck, Bool.not_true, if_neg Bool.false_ne_true]
      exact (startPers_eq_outOfTable_iff hcheck ht).mpr ⟨hgranted, hno⟩
  · intro h hstop
    unfold doJmdRun at hstop
    split at hstop
    · cases hstop
    rename_i hbound
    split at hstop
    · cases hstop
    rename_i hpers
    have hstarts : ∀ f, { s with jmdSize := 0 }.Adopts env.sb f → s.StartsFrom env f :=
      fun f hf => ⟨hbound, Bool.eq_false_iff.mpr hpers, (hadopts f).mp hf⟩
    split at hstop
    · rename_i hanalyze
      rw [Except.error.inj hstop] at hanalyze
      obtain ⟨f, hf, m, hm, hmoved, hnr, hnone⟩ := (analyzeSbs_eq_outOfTable_iff _ _).mp hanalyze
      have hsome := h.followed f (hstarts f hf) m hm hmoved hnr
      rw [hnone] at hsome
      cases hsome
    rename_i err s₁ hanalyze
    split at hstop
    · cases hstop
    rename_i herr
    obtain rfl : err = 0 := not_not.mp herr
    split at hstop
    · cases hstop
    rename_i sb hsb
    split at hstop
    · cases hstop
    rename_i hcheck
    have hcheck : sb.checkGeometry env = true := by simpa using hcheck
    obtain ⟨f, sb', hfresh, hsb', -, ht⟩ := tabled hanalyze
    obtain rfl : sb' = sb := Option.some.inj (hsb'.symm.trans hsb)
    obtain ⟨hgranted, hno⟩ := (startPers_eq_outOfTable_iff hcheck ht).mp hstop
    obtain ⟨f', hf'⟩ := exists_adopts hanalyze
    obtain rfl : f' = f := Option.some.inj (hf'.fresh.symm.trans hfresh)
    exact hno (h.indexes f' (hstarts f' hf') ⟨s₁, sb', hanalyze, hsb, hcheck, hgranted⟩)

theorem Jmddev.addStore_of_not_granted (s : Jmddev) {call : AddStoreCall}
    (h : call.env.granted = false) : s.addStore call = .ok ((-enomem).toInt64, s) := by
  unfold addStore
  split
  · rfl
  split
  · rfl
  split
  · rfl
  simp_all [AddStoreEnv.granted]

/-- **When a call stays in the tables.** -/
theorem Jmddev.addStore_ne_outOfTable_iff (s : Jmddev) (call : AddStoreCall) :
    s.addStore call ≠ .error .outOfTable ↔ s.StaysInTable call := by
  have hadd : ∀ bdev, s.addMember call bdev ≠ .error .outOfTable ↔
      (s.prepare call).NumbersInTable (call.diskInfo bdev) := by
    intro bdev
    have hmap : s.addMember call bdev = .error .outOfTable ↔
        (s.prepare call).addNewDisk call.env.add (call.diskInfo bdev) = .error .outOfTable :=
      ⟨Except.eq_error_of_map, congrArg (Except.map Prod.snd)⟩
    rw [ne_eq, hmap, addNewDisk_eq_outOfTable_iff, NumbersInTable]
    simp only [not_and, not_exists, ← Option.isSome_iff_ne_none]
    exact ⟨fun h sb hall => h hall sb, fun h hall sb => h sb hall⟩
  cases hgranted : call.env.granted with
  | false =>
    rw [s.addStore_of_not_granted hgranted]
    refine iff_of_true (by rintro ⟨⟩) ⟨fun h => ?_, fun h => ?_⟩
    · cases hgranted.symm.trans h
    · cases hgranted.symm.trans h
  | true =>
    obtain ⟨hdtdev, harrayInfo, hinfo⟩ : call.env.dtdev = true ∧ call.env.arrayInfo = true ∧
        call.env.info = true := by
      simpa [AddStoreEnv.granted, and_assoc] using hgranted
    unfold addStore
    rw [hdtdev, harrayInfo, hinfo, Bool.not_true, if_neg Bool.false_ne_true,
      if_neg Bool.false_ne_true, if_neg Bool.false_ne_true]
    cases hbdev : call.env.bdev with
    | none =>
      refine iff_of_true (by rintro ⟨⟩) ⟨fun _ bdev h => ?_, fun _ bdev _ h => ?_⟩
      · cases hbdev.symm.trans h
      · cases hbdev.symm.trans h
    | some bdev =>
      dsimp only
      refine ⟨fun hne => ⟨fun _ bdev' hb => ?_, fun _ bdev' s' hb hs' hnb => ?_⟩,
        fun h hstop => ?_⟩
      · obtain rfl := Option.some.inj (hbdev.symm.trans hb)
        exact (hadd bdev).mp fun hstop => hne (by rw [hstop])
      · obtain rfl := Option.some.inj (hbdev.symm.trans hb)
        refine (doJmdRun_ne_outOfTable_iff _ _).mp fun hstop => hne ?_
        rw [hs']
        dsimp only
        rw [if_pos hnb, hstop]
      · split at hstop
        · rename_i hs'
          rw [Except.error.inj hstop] at hs'
          exact (hadd bdev).mpr (h.add hgranted bdev hbdev) hs'
        rename_i s' hs'
        split at hstop
        · rename_i hnb
          split at hstop
          · rename_i hrun
            rw [Except.error.inj hstop] at hrun
            exact (doJmdRun_ne_outOfTable_iff _ _).mpr (h.run hgranted bdev s' hbdev hs' hnb) hrun
          · cases hstop
        · cases hstop

/-- **Runs that stay in the tables.** A run uses no index that is not there, if and only if each of
its calls meets the condition when its turn comes. -/
theorem runs_stay_in_table (device : DevT → BlockDev) (calls : List AddStoreCall) :
    (addStoreSystem device).exec (Jmddev.fresh device) calls ≠ .error .outOfTable ↔
      (addStoreSystem device).Allows Jmddev.StaysInTable (Jmddev.fresh device) calls := by
  refine FallibleSystem.exec_ne_error_iff (fun s call => ?_) _ _
  rw [← s.addStore_ne_outOfTable_iff call]
  refine not_congr ⟨Except.eq_error_of_map, fun hstop => ?_⟩
  exact congrArg (Except.map Prod.snd) hstop

/-- Two calls that start an array of two disks meet the condition. With a number that no descriptor
has they do not. -/
theorem runs_stay_in_table_two :
    (∃ s, (addStoreSystem evenDevices).exec (Jmddev.fresh evenDevices)
      [addCall 2 0 0, addCall 2 1 16] = .ok s ∧ s.pers = true ∧ s.disks.length = 2) ∧
    (addStoreSystem evenDevices).Allows Jmddev.StaysInTable (Jmddev.fresh evenDevices)
      [addCall 2 0 0, addCall 2 1 16] ∧
    ¬(addStoreSystem evenDevices).Allows Jmddev.StaysInTable (Jmddev.fresh evenDevices)
      [addCall 100 0 0, addCall 100 50 16] := by
  have hrun : ((addStoreSystem evenDevices).exec (Jmddev.fresh evenDevices)
      [addCall 2 0 0, addCall 2 1 16]).toOption.map (fun s => (s.pers, s.disks.length)) =
        some (true, 2) := by
    decide +kernel
  obtain ⟨s, hexec, hshow⟩ := FallibleSystem.exists_exec hrun
  obtain ⟨hpers, hdisks⟩ := Prod.mk.inj hshow
  refine ⟨⟨s, hexec, hpers, hdisks⟩, (runs_stay_in_table _ _).mp (by simp [hexec]), fun h => ?_⟩
  exact (runs_stay_in_table _ _).mpr h rfl

/-- Disk number 50 of an array of 100 disks. -/
theorem run_leaves_table :
    (addStoreSystem evenDevices).exec (Jmddev.fresh evenDevices) [addCall 100 50 0] =
      .error .outOfTable :=
  rfl

end Jmd

end JRaid
