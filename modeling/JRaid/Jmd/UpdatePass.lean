import JRaid.Jmd.Crash
import Mathlib.Data.Int.ModEq

/-!
# The passes of an update

`jmd_update_sb` repeats its pass while the codes of `write_disk_sb` do not add up to 0, at most
a hundred times. `Jmddev.passes` lists the passes that it makes, with what each of them finds,
builds and is told; the loop is the composition of its passes (`updatePasses_eq_passes`).

Each pass counts one event and leaves every member that has a descriptor with a copy that
verifies (`jmdUpdateSb_passes`). Its outcome is the sum of the codes: a skipped member counts
1 and a member for which there is no memory -12, so twelve of the former hide one of the
latter. The loop notices all failures exactly if this does not happen (`failures_noticed_iff`).
-/

namespace JRaid

namespace Jmd

/-! ### The passes -/

/-- A pass of `jmd_update_sb`. -/
structure Pass where
  /-- the array when the pass begins -/
  start : Jmddev
  /-- the array after `sync_sbs` -/
  synced : Jmddev
  /-- what the calls of `write_disk_sb` return, one for each member that is not faulty -/
  codes : List Int32
  /-- the writes that they submit -/
  log : List SbWrite

/-- The variable `err` at the end of a pass. -/
def Pass.err (p : Pass) : Int32 := p.codes.foldl (· + ·) 0

/-- The array at the end of a pass. -/
def Pass.finish (p : Pass) : Jmddev := p.synced.carryOut p.log

/-- The pass that an array with the superblock `sb` goes through. Nothing is written if the
superblocks are not persistent. -/
def Jmddev.onePass (s : Jmddev) (sb : Superblock) (env : PassEnv) : Pass :=
  let synced := s.syncPass sb env.seconds
  let calls := if (sb.nextPass env.seconds).notPersistent ≠ 0 then [] else
    synced.writeDiskSbs env.write
  ⟨s, synced, calls.map Prod.fst, calls.filterMap Prod.snd⟩

/-- The passes that `jmd_update_sb` makes, with `count` passes left. -/
def Jmddev.passes (env : ℕ → PassEnv) : ℕ → Jmddev → List Pass
  | 0, _ => []
  | count + 1, s =>
    match s.sb with
    | none => []
    | some sb =>
      let p := s.onePass sb (env count)
      p :: if p.err ≠ 0 ∧ count ≠ 0 then p.finish.passes env count else []

section

variable {s : Jmddev} {sb : Superblock} {env : ℕ → PassEnv} {count : ℕ}

theorem Jmddev.passes_succ (h : s.sb = some sb) : s.passes env (count + 1) =
    s.onePass sb (env count) ::
      if (s.onePass sb (env count)).err ≠ 0 ∧ count ≠ 0 then
        (s.onePass sb (env count)).finish.passes env count
      else [] := by
  rw [passes, h]

theorem Jmddev.sb_finish (s : Jmddev) (sb : Superblock) (env : PassEnv) :
    (s.onePass sb env).finish.sb = some (sb.nextPass env.seconds) := rfl

theorem Jmddev.codes_of_notPersistent {env : PassEnv}
    (h : (sb.nextPass env.seconds).notPersistent ≠ 0) :
    (s.onePass sb env).codes = [] ∧ (s.onePass sb env).log = [] := by
  rw [onePass]
  simp only [if_pos h, List.map_nil, List.filterMap_nil, and_self]

theorem Jmddev.codes_of_persistent {env : PassEnv}
    (h : ¬(sb.nextPass env.seconds).notPersistent ≠ 0) :
    (s.onePass sb env).codes =
        ((s.syncPass sb env.seconds).writeDiskSbs env.write).map Prod.fst ∧
      (s.onePass sb env).log = (s.syncPass sb env.seconds).submitted env.write := by
  rw [onePass, submitted]
  simp only [if_neg h, and_self]

theorem Jmddev.length_passes_le (s : Jmddev) (env : ℕ → PassEnv) (count : ℕ) :
    (s.passes env count).length ≤ count := by
  induction count generalizing s with
  | zero => exact Nat.le_refl 0
  | succ count ih =>
    rw [passes]
    cases hsb : s.sb with
    | none => exact Nat.zero_le _
    | some sb =>
      dsimp only
      rw [List.length_cons]
      split
      · exact Nat.succ_le_succ (ih _)
      · exact Nat.succ_le_succ (Nat.zero_le count)

/-- The loop makes a pass, and goes on if its codes do not add up to 0. -/
theorem Jmddev.updatePasses_succ (h : s.sb = some sb) : s.updatePasses env (count + 1) =
    if (s.onePass sb (env count)).err ≠ 0 ∧ count ≠ 0 then
      ((s.onePass sb (env count)).finish.updatePasses env count).map fun r =>
        (r.1, (s.onePass sb (env count)).log ++ r.2)
    else .ok ((s.onePass sb (env count)).finish, (s.onePass sb (env count)).log) := by
  rw [updatePasses, h]
  dsimp only
  by_cases hnp : (sb.nextPass (env count).seconds).notPersistent ≠ 0
  · obtain ⟨hcodes, hlog⟩ := codes_of_notPersistent (s := s) hnp
    have herr : (s.onePass sb (env count)).err = 0 := by rw [Pass.err, hcodes, List.foldl_nil]
    rw [if_pos hnp, if_neg fun hagain => hagain.1 herr, Pass.finish, hlog]
    rfl
  · obtain ⟨hcodes, hlog⟩ := codes_of_persistent (s := s) hnp
    rw [if_neg hnp, Pass.finish, hlog, Pass.err, hcodes]
    rfl

/-- **The loop is the composition of its passes**: it returns, the array is as the last pass
leaves it, and what is submitted is what the passes submit. -/
theorem Jmddev.updatePasses_eq_passes (h : s.sb = some sb) :
    ∃ p, (s.passes env (count + 1)).getLast? = some p ∧
      s.updatePasses env (count + 1) =
        .ok (p.finish, (s.passes env (count + 1)).flatMap Pass.log) := by
  induction count generalizing s sb with
  | zero =>
    refine ⟨s.onePass sb (env 0), ?_, ?_⟩
    · rw [passes_succ h, if_neg fun hagain => hagain.2 rfl, List.getLast?_singleton]
    · rw [updatePasses_succ h, passes_succ h, if_neg fun hagain => hagain.2 rfl,
        if_neg fun hagain => hagain.2 rfl, List.flatMap_singleton]
  | succ count ih =>
    rw [passes_succ h, updatePasses_succ h]
    split
    · -- the rest is the loop that begins with the next pass
      obtain ⟨p, hlast, hrest⟩ := ih (s.sb_finish sb (env (count + 1)))
      refine ⟨p, ?_, ?_⟩
      · rw [List.getLast?_cons, hlast, Option.getD_some]
      · rw [hrest, List.flatMap_cons]
        rfl
    · exact ⟨_, List.getLast?_singleton, by rw [List.flatMap_singleton]⟩

end

/-! ### What a pass does -/

/-- No descriptor before the one that is found has the device number. -/
theorem Superblock.dev_ne_of_lt_findDisk {sb : Superblock} {dev : DevT} {i : Fin mdSbDisks}
    (h : sb.findDisk dev = some i) {k : Fin mdSbDisks} (hk : k < i) : (sb.disks k).dev ≠ dev := by
  obtain ⟨-, j, hj, hget, hbefore⟩ := List.find?_eq_some_iff_getElem.mp h
  have hij : (i : ℕ) = j := by rw [← hget, List.getElem_finRange, Fin.val_cast]
  have hkj : (k : ℕ) < j := hij ▸ hk
  have hne := hbefore k hkj
  rw [List.getElem_finRange] at hne
  simpa using hne

theorem Rdev.setThisDisk_thisDisk {sb : Superblock} {jrdev : Rdev} {i : Fin mdSbDisks}
    (h : sb.findDisk jrdev.dev = some i) :
    (jrdev.setThisDisk sb).sb.thisDisk = sb.disks i := by
  unfold setThisDisk
  rw [h]
  rfl

/-- `set_this_disk` copies the first descriptor with the device number. -/
theorem Rdev.syncSb_thisDisk {sb : Superblock} {jrdev : Rdev} {i : Fin mdSbDisks}
    (hup : jrdev.faulty = false) (h : sb.findDisk jrdev.dev = some i) :
    (jrdev.syncSb sb).sb.thisDisk = sb.disks i := by
  have hset : ((jrdev.withPage (jrdev.page.withSb sb)).setThisDisk sb).sb.thisDisk = sb.disks i :=
    setThisDisk_thisDisk h
  have hstore : ∀ page : SbPage, page.storeCsum.sb.thisDisk = page.sb.thisDisk := fun page => by
    rw [SbPage.storeCsum, SbPage.sb_withCsum]
  rw [syncSb, if_neg (by simp [hup])]
  exact (hstore _).trans hset

/-- The member is a copy of the array superblock `sb`: only `this_disk` and the checksum differ,
the one is the first descriptor of its device, and the other verifies. -/
structure Rdev.CopyOf (jrdev : Rdev) (sb : Superblock) (i : Fin mdSbDisks) : Prop where
  dev : (sb.disks i).dev = jrdev.dev
  first : ∀ k < i, (sb.disks k).dev ≠ jrdev.dev
  copy : jrdev.sb = { sb with thisDisk := sb.disks i, sbCsum := jrdev.sb.sbCsum }
  descNr : jrdev.descNr = (sb.disks i).number.toInt32
  verifies : jrdev.page.calcSbCsum = jrdev.sb.sbCsum

/-- What `sync_sbs` leaves of a member that has a descriptor. -/
theorem Rdev.copyOf_syncSb {sb : Superblock} {jrdev : Rdev} {j : Fin mdSbDisks}
    (hup : jrdev.faulty = false) (h : (sb.disks j).dev = jrdev.dev) :
    ∃ i, (jrdev.syncSb sb).CopyOf sb i := by
  obtain ⟨i, hi⟩ := sb.exists_findDisk h
  obtain ⟨d, c, hsb⟩ := jrdev.syncSb_sb sb hup
  have hthis := syncSb_thisDisk hup hi
  refine ⟨i, ?_, fun k hk => ?_, ?_, syncSb_descNr hup hi, syncSb_verifies sb hup⟩
  · rw [syncSb_dev, sb.dev_of_findDisk hi]
  · rw [syncSb_dev]
    exact sb.dev_ne_of_lt_findDisk hi hk
  · rw [hsb] at hthis ⊢
    rw [← hthis]

/-- What a pass has to do: one more event is counted, up to the largest number there is, and
`sync_sbs` leaves a copy of the array superblock with each member that is not faulty and has a
descriptor. -/
structure Pass.Correct (p : Pass) (sb sb' : Superblock) : Prop where
  start : p.start.sb = some sb
  synced : p.synced.sb = some sb'
  finish : p.finish.sb = some sb'
  event : sb'.event.toNat = min (sb.event.toNat + 1) (2 ^ 64 - 1)
  copies : ∀ jrdev ∈ p.synced.disks, jrdev.faulty = false →
    (∃ j, (sb'.disks j).dev = jrdev.dev) → ∃ i, jrdev.CopyOf sb' i

theorem Jmddev.correct_onePass {s : Jmddev} {sb : Superblock} (h : s.sb = some sb)
    (env : PassEnv) : (s.onePass sb env).Correct sb (sb.nextPass env.seconds) := by
  refine ⟨h, rfl, rfl, sb.toNat_event_nextPass env.seconds, ?_⟩
  rintro _ hmem hup ⟨j, hj⟩
  obtain ⟨m, -, rfl⟩ := List.mem_map.mp hmem
  rw [(m.syncSb_same _).faulty] at hup
  rw [Rdev.syncSb_dev] at hj
  exact Rdev.copyOf_syncSb hup hj

theorem Jmddev.correct_of_mem_passes {s : Jmddev} {env : ℕ → PassEnv} {count : ℕ} {p : Pass}
    (h : p ∈ s.passes env count) : ∃ sb sb', p.Correct sb sb' := by
  induction count generalizing s with
  | zero => exact absurd h List.not_mem_nil
  | succ count ih =>
    rw [passes] at h
    cases hsb : s.sb with
    | none =>
      rw [hsb] at h
      exact absurd h List.not_mem_nil
    | some sb =>
      rw [hsb] at h
      obtain rfl | hrest := List.mem_cons.mp h
      · exact ⟨sb, _, correct_onePass hsb (env count)⟩
      · split at hrest
        · exact ih hrest
        · exact absurd hrest List.not_mem_nil

/-- **What the passes of `jmd_update_sb` do**, for every array with a superblock and whatever the
kernel answers: there are at most a hundred, the call returns what they leave, and each counts
one event and brings the copies of the members up to date. -/
theorem jmdUpdateSb_passes {s : Jmddev} (h : s.sb ≠ none) (env : ℕ → PassEnv) :
    (s.passes env 100).length ≤ 100 ∧
      (∃ p, (s.passes env 100).getLast? = some p ∧
        s.jmdUpdateSb env = .ok (p.finish, (s.passes env 100).flatMap Pass.log)) ∧
      ∀ p ∈ s.passes env 100, ∃ sb sb', p.Correct sb sb' := by
  obtain ⟨sb, hsb⟩ := Option.ne_none_iff_exists'.mp h
  exact ⟨s.length_passes_le env 100, Jmddev.updatePasses_eq_passes hsb,
    fun p hp => Jmddev.correct_of_mem_passes hp⟩

/-- The superblock of `oneMember`. -/
def magicSb : Superblock := { Superblock.zero with mdMagic := mdSbMagic }

/-- A superblock with descriptors for the devices 1, 2 and 3. -/
def mixedSb : Superblock :=
  { magicSb with
    disks := fun i => if (i : ℕ) < 3 then
      { Disk.zero with number := .ofNat i, minor := .ofNat (i + 1), raidDisk := .ofNat i }
      else Disk.zero }

/-- Three members with their descriptors. The first one was bound with the superblock of its device,
so that its `sb_offset` is 0. -/
def mixedMembers : Jmddev :=
  { oneMember staleDev zeroPage with
    sb := some mixedSb
    nbDev := 3
    disks := [{ oneRdev staleDev zeroPage with sbOffset := 0 },
      { oneRdev staleDev zeroPage with dev := 2, descNr := 1 },
      { oneRdev staleDev zeroPage with dev := 3, descNr := 2 }] }

/-- There is no memory for the bio of the second member, in any pass. -/
def secondRefused : ℕ → PassEnv := fun _ => ⟨0, fun i => ⟨i != 1, some zeroPage, true⟩⟩

/-- Every member has its descriptor, and is given its copy in each pass. -/
theorem jmdUpdateSb_passes_mixed :
    (∀ jrdev ∈ mixedMembers.disks, ∃ j, (mixedSb.disks j).dev = jrdev.dev) ∧
    (mixedMembers.passes secondRefused 100).length ≤ 100 ∧
      ∀ p ∈ mixedMembers.passes secondRefused 100, ∃ sb sb', p.Correct sb sb' := by
  obtain ⟨hlen, -, hcorrect⟩ :=
    jmdUpdateSb_passes (s := mixedMembers) (Option.some_ne_none _) secondRefused
  refine ⟨fun jrdev hm => ?_, hlen, hcorrect⟩
  obtain rfl | rfl | rfl : jrdev = _ ∨ jrdev = _ ∨ jrdev = _ := by
    simpa [mixedMembers] using hm
  · exact ⟨⟨0, by decide⟩, by decide⟩
  · exact ⟨⟨1, by decide⟩, by decide⟩
  · exact ⟨⟨2, by decide⟩, by decide⟩

/-! ### What the codes add up to -/

/-- The ways in which a call of `write_disk_sb` for a member that is not faulty ends. -/
inductive WriteResult
  | submitted
  /-- the place of the superblock or the size of the device has changed -/
  | moved
  | badMagic
  | noMemory
  deriving DecidableEq, Repr

/-- The code of a result. -/
def WriteResult.code : WriteResult → Int32
  | submitted => 0
  | moved => 1
  | badMagic => -1
  | noMemory => -enomem

/-- Which result it is. -/
def WriteEnv.result (env : WriteEnv) (magic moved : Bool) : WriteResult :=
  if !(env.bio && env.page.isSome) then .noMemory
  else if !magic then .badMagic
  else if moved then .moved
  else .submitted

/-- The member has another place or another size than its device has now. -/
def Jmddev.Moved (s : Jmddev) (jrdev : Rdev) : Prop :=
  jrdev.sbOffset ≠ s.calcDevSboffset jrdev.dev true ∨ s.calcDevSize jrdev.dev true ≠ jrdev.size

instance (s : Jmddev) (jrdev : Rdev) : Decidable (s.Moved jrdev) :=
  inferInstanceAs (Decidable (_ ∨ _))

/-- The results for the members that are not faulty, as the array before a pass and the answers
of the kernel decide them; `sync_sbs` gives all members the magic number of the array. -/
def Jmddev.results (s : Jmddev) (sb : Superblock) (env : ℕ → WriteEnv) : List WriteResult :=
  (s.disks.zipIdx.filter fun m => !m.1.faulty).map fun m =>
    (env m.2).result (decide (sb.mdMagic = mdSbMagic)) (decide (s.Moved m.1))

theorem Jmddev.writeDiskSb_code (s : Jmddev) (env : WriteEnv) {jrdev : Rdev}
    (hup : jrdev.faulty = false) : (s.writeDiskSb env jrdev).1 =
      (env.result (decide (jrdev.sb.mdMagic = mdSbMagic)) (decide (s.Moved jrdev))).code := by
  rw [writeDiskSb, WriteEnv.result]
  cases env.bio with
  | false => rfl
  | true =>
    cases env.page with
    | none => rfl
    | some page =>
      by_cases hmagic : jrdev.sb.mdMagic = mdSbMagic
      · by_cases hoff : jrdev.sbOffset = s.calcDevSboffset jrdev.dev true
        · by_cases hsize : s.calcDevSize jrdev.dev true = jrdev.size
          · simp [hup, hmagic, Moved, hoff, hsize, WriteResult.code]
          · simp [hup, hmagic, Moved, hoff, hsize, WriteResult.code]
        · simp [hup, hmagic, Moved, hoff, WriteResult.code]
      · simp [hup, hmagic, WriteResult.code]

/-- The codes as integers: the sum of a pass is this number, modulo `2 ^ 32`. -/
theorem sum_codes (l : List WriteResult) (z : ℤ) :
    (l.map WriteResult.code).foldl (· + ·) (Int32.ofInt z) =
      Int32.ofInt (z + (l.count .moved - l.count .badMagic - 12 * l.count .noMemory)) := by
  induction l generalizing z with
  | nil => simp
  | cons r l ih =>
    have hstep : ∀ c : ℤ, r.code = Int32.ofInt c →
        Int32.ofInt z + r.code = Int32.ofInt (z + c) := fun c hc => by rw [hc, Int32.ofInt_add]
    rw [List.map_cons, List.foldl_cons]
    cases r with
    | submitted =>
      rw [hstep 0 rfl, ih]
      simp
    | moved =>
      rw [hstep 1 rfl, ih]
      congr 1
      simp
      omega
    | badMagic =>
      rw [hstep (-1) rfl, ih]
      congr 1
      simp
      omega
    | noMemory =>
      rw [hstep (-12) rfl, ih]
      congr 1
      simp
      omega

/-- The results of a pass for which `err` is 0: the skipped members make up for the others. -/
def CancelOut (l : List WriteResult) : Prop :=
  (l.count .moved : ℤ) ≡ l.count .badMagic + 12 * l.count .noMemory [ZMOD 2 ^ 32]

instance (l : List WriteResult) : Decidable (CancelOut l) :=
  inferInstanceAs (Decidable (_ ≡ _ [ZMOD 2 ^ 32]))

theorem sum_codes_eq_zero_iff (l : List WriteResult) :
    (l.map WriteResult.code).foldl (· + ·) 0 = 0 ↔ CancelOut l := by
  have hsum := sum_codes l 0
  rw [Int.zero_add] at hsum
  rw [show (0 : Int32) = Int32.ofInt 0 from rfl, hsum, Int32.ofInt_eq_iff_bmod_eq_toInt,
    CancelOut, Int.modEq_iff_dvd, Int.bmod_def]
  change _ = 0 ↔ _
  omega

theorem cancelOut_of_submitted {l : List WriteResult} (h : ∀ r ∈ l, r = .submitted) :
    CancelOut l := by
  have hcount : ∀ r, r ≠ .submitted → l.count r = 0 := fun r hr =>
    List.count_eq_zero.mpr fun hmem => hr (h r hmem)
  rw [CancelOut, hcount .moved WriteResult.noConfusion, hcount .badMagic WriteResult.noConfusion,
    hcount .noMemory WriteResult.noConfusion]
  exact Int.ModEq.refl _

/-- No member is rejected, skipped or refused exactly if all codes are 0. -/
theorem forall_submitted_iff (l : List WriteResult) :
    (∀ r ∈ l, r = .submitted) ↔ ∀ code ∈ l.map WriteResult.code, code = 0 := by
  rw [List.forall_mem_map]
  refine forall₂_congr fun r _ => ?_
  cases r
  all_goals decide

/-! ### The results do not change from pass to pass -/

theorem Jmddev.moved_congr {s t : Jmddev} {sb sb' : Superblock} (hs : s.sb = some sb)
    (ht : t.sb = some sb') (hchunk : sb'.chunkSize = sb.chunkSize)
    (hdevs : t.disks.map Rdev.dev = s.disks.map Rdev.dev)
    (hsectors : ∀ dev, (t.device dev).sectors = (s.device dev).sectors) {j j' : Rdev}
    (hmem : j ∈ s.disks) (hj : j.SameDevice j') : t.Moved j' ↔ s.Moved j := by
  have hdev : j.dev ∈ s.disks.map Rdev.dev := List.mem_map_of_mem hmem
  have hoff : t.calcDevSboffset j'.dev true = s.calcDevSboffset j.dev true := by
    rw [hj.dev, s.calcDevSboffset_of_mem hdev, t.calcDevSboffset_of_mem (hdevs ▸ hdev), hsectors]
  have hsize : t.calcDevSize j'.dev true = s.calcDevSize j.dev true := by
    rw [calcDevSize, calcDevSize, hs, ht, hoff]
    simp only [hchunk]
  rw [Moved, Moved, hoff, hsize, hj.sbOffset, hj.size]

theorem Jmddev.results_congr {s t : Jmddev} {sb sb' : Superblock} {f : Rdev → Rdev}
    (hdisks : t.disks = s.disks.map f) (hmagic : sb'.mdMagic = sb.mdMagic)
    (hfaulty : ∀ j, (f j).faulty = j.faulty) (hmoved : ∀ j ∈ s.disks, t.Moved (f j) ↔ s.Moved j)
    (env : ℕ → WriteEnv) : t.results sb' env = s.results sb env := by
  rw [results, results, hdisks, List.zipIdx_map, List.filter_map, List.map_map, hmagic]
  have hfilter : ((fun m : Rdev × ℕ => !m.1.faulty) ∘ Prod.map f id) =
      fun m => !m.1.faulty := by
    funext m
    simp [hfaulty]
  rw [hfilter]
  refine List.map_congr_left fun m hm => ?_
  have hmem := List.fst_mem_of_mem_zipIdx (List.mem_of_mem_filter hm)
  simp only [Function.comp_apply, Prod.map_fst, Prod.map_snd, id_eq, hmoved m.1 hmem]

theorem Superblock.nextPass_fields (sb : Superblock) (seconds : UInt32) :
    (sb.nextPass seconds).mdMagic = sb.mdMagic ∧
      (sb.nextPass seconds).chunkSize = sb.chunkSize ∧
      (sb.nextPass seconds).notPersistent = sb.notPersistent := by
  obtain ⟨lo, hi, hnext⟩ := sb.exists_nextPass seconds
  rw [hnext]
  exact ⟨rfl, rfl, rfl⟩

/-- The members of the array that a pass leaves are those that it found. -/
theorem Jmddev.results_pass {s : Jmddev} {sb : Superblock} (h : s.sb = some sb)
    (seconds : UInt32) (log : List SbWrite) (env : ℕ → WriteEnv) :
    ((s.syncPass sb seconds).carryOut log).results (sb.nextPass seconds) env =
      s.results sb env := by
  obtain ⟨hmagic, hchunk, -⟩ := sb.nextPass_fields seconds
  exact results_congr (f := Rdev.syncSb (sb.nextPass seconds)) rfl hmagic
    (fun j => (j.syncSb_same _).faulty) (fun j hmem => moved_congr h rfl hchunk
      (map_dev_syncSbs _ _) (sectors_foldl_carryOut log _) hmem (j.syncSb_same _)) env

theorem Jmddev.codes_writeDiskSbs {t : Jmddev} {sb : Superblock}
    (hmagic : ∀ j ∈ t.disks, j.faulty = false → j.sb.mdMagic = sb.mdMagic)
    (env : ℕ → WriteEnv) :
    (t.writeDiskSbs env).map Prod.fst = (t.results sb env).map WriteResult.code := by
  rw [writeDiskSbs, results, List.map_map, List.map_map]
  refine List.map_congr_left fun m hm => ?_
  have hup : m.1.faulty = false := by simpa using (List.mem_filter.mp hm).2
  have hmem := List.fst_mem_of_mem_zipIdx (List.mem_of_mem_filter hm)
  simp only [Function.comp_apply]
  rw [writeDiskSb_code t (env m.2) hup, hmagic m.1 hmem hup]

/-- The codes of a pass. -/
theorem Jmddev.codes_onePass {s : Jmddev} {sb : Superblock} (h : s.sb = some sb)
    (hp : sb.notPersistent = 0) (env : PassEnv) :
    (s.onePass sb env).codes = (s.results sb env.write).map WriteResult.code := by
  obtain ⟨-, -, hnp⟩ := sb.nextPass_fields env.seconds
  have hmagic : ∀ j ∈ (s.syncPass sb env.seconds).disks, j.faulty = false →
      j.sb.mdMagic = (sb.nextPass env.seconds).mdMagic := by
    intro j hj hup
    obtain ⟨m, -, rfl⟩ := List.mem_map.mp hj
    rw [(m.syncSb_same _).faulty] at hup
    obtain ⟨d, c, hsb⟩ := m.syncSb_sb (sb.nextPass env.seconds) hup
    rw [hsb]
  have hresults := results_pass h env.seconds [] env.write
  rw [(codes_of_persistent (by rw [hnp]; exact not_not.mpr hp)).1, codes_writeDiskSbs hmagic]
  exact congrArg (List.map WriteResult.code) hresults

/-! ### Failures are noticed -/

/-- **Write failures are noticed**: `jmd_update_sb` leaves its loop before the hundredth pass only
if `write_disk_sb` has returned 0 whenever it was called in the last pass. -/
def Jmddev.FailuresNoticed (s : Jmddev) (env : ℕ → PassEnv) (count : ℕ) : Prop :=
  (s.passes env count).length < count →
    ∀ p, (s.passes env count).getLast? = some p → ∀ code ∈ p.codes, code = 0

/-- Whenever the results of a pass add up to 0, in that pass or before it all members have been
written. The pass that leaves `n` passes over is answered by `env n`. -/
def Jmddev.FailuresShow (s : Jmddev) (sb : Superblock) (env : ℕ → PassEnv) (count : ℕ) : Prop :=
  ∀ n, 1 ≤ n → n < count → CancelOut (s.results sb (env n).write) →
    ∃ m, n ≤ m ∧ m < count ∧ ∀ r ∈ s.results sb (env m).write, r = .submitted

section

variable {s : Jmddev} {sb : Superblock} {env : ℕ → PassEnv} {count : ℕ}

theorem Jmddev.err_onePass (h : s.sb = some sb) (hp : sb.notPersistent = 0) (env : PassEnv) :
    (s.onePass sb env).err = 0 ↔ CancelOut (s.results sb env.write) := by
  rw [Pass.err, codes_onePass h hp, sum_codes_eq_zero_iff]

/-- A pass that is the last one notices its failures if there are none. -/
theorem Jmddev.failuresNoticed_last (h : s.sb = some sb) (hp : sb.notPersistent = 0)
    (hlast : s.passes env (count + 2) = [s.onePass sb (env (count + 1))]) :
    s.FailuresNoticed env (count + 2) ↔
      ∀ r ∈ s.results sb (env (count + 1)).write, r = .submitted := by
  rw [forall_submitted_iff, ← codes_onePass h hp (env (count + 1)), FailuresNoticed, hlast]
  constructor
  · intro hnoticed
    exact hnoticed (Nat.succ_lt_succ (Nat.succ_pos count)) _ List.getLast?_singleton
  · rintro hcodes - p hp
    rw [List.getLast?_singleton, Option.some_inj] at hp
    rwa [← hp]

/-- The first pass, if it fails, is noticed: all depends on the passes that follow it. -/
theorem Jmddev.failuresNoticed_next (h : s.sb = some sb)
    (herr : (s.onePass sb (env (count + 1))).err ≠ 0) :
    s.FailuresNoticed env (count + 2) ↔
      (s.onePass sb (env (count + 1))).finish.FailuresNoticed env (count + 1) := by
  obtain ⟨q, hq⟩ : ∃ q, ((s.onePass sb (env (count + 1))).finish.passes env
      (count + 1)).getLast? = some q :=
    (updatePasses_eq_passes (s.sb_finish sb (env (count + 1)))).imp fun _ hq => hq.1
  rw [FailuresNoticed, FailuresNoticed, passes_succ h, if_pos ⟨herr, Nat.succ_ne_zero count⟩,
    List.length_cons, List.getLast?_cons, hq, Option.getD_some, Nat.succ_lt_succ_iff]

/-- A pass whose results do not add up to 0 does not count. -/
theorem Jmddev.failuresShow_next (hcancel : ¬CancelOut (s.results sb (env (count + 1)).write)) :
    s.FailuresShow sb env (count + 2) ↔ s.FailuresShow sb env (count + 1) := by
  have hfirst : ∀ n, n < count + 2 → n = count + 1 ∨ n < count + 1 := fun n hn => by omega
  constructor
  · intro hshow n hn hlt hb
    obtain ⟨m, hnm, hm, hall⟩ := hshow n hn (Nat.lt_succ_of_lt hlt) hb
    obtain rfl | hm := hfirst m hm
    · exact absurd (cancelOut_of_submitted hall) hcancel
    · exact ⟨m, hnm, hm, hall⟩
  · intro hshow n hn hlt hb
    obtain rfl | hlt := hfirst n hlt
    · exact absurd hb hcancel
    · obtain ⟨m, hnm, hm, hall⟩ := hshow n hn hlt hb
      exact ⟨m, hnm, Nat.lt_succ_of_lt hm, hall⟩

theorem Jmddev.failuresShow_last (hcancel : CancelOut (s.results sb (env (count + 1)).write)) :
    s.FailuresShow sb env (count + 2) ↔
      ∀ r ∈ s.results sb (env (count + 1)).write, r = .submitted := by
  constructor
  · intro hshow
    obtain ⟨m, hnm, hm, hall⟩ := hshow (count + 1) (Nat.succ_pos count) (Nat.lt_succ_self _) hcancel
    obtain rfl : m = count + 1 := by omega
    exact hall
  · intro hall n _ hlt _
    exact ⟨count + 1, Nat.le_of_lt_succ hlt, Nat.lt_succ_self _, hall⟩

/-- The loop with `count + 1` passes left. -/
theorem Jmddev.failuresNoticed_iff (h : s.sb = some sb) (hp : sb.notPersistent = 0) :
    s.FailuresNoticed env (count + 1) ↔ s.FailuresShow sb env (count + 1) := by
  induction count generalizing s sb with
  | zero =>
    have hlen : ¬(s.passes env 1).length < 1 := by
      rw [passes_succ h, if_neg fun hagain => hagain.2 rfl]
      exact Nat.lt_irrefl 1
    refine iff_of_true (fun hlt => absurd hlt hlen) fun n hn hlt => ?_
    exact absurd hlt (Nat.not_lt.mpr hn)
  | succ count ih =>
    have herr := err_onePass h hp (env (count + 1))
    by_cases hcancel : CancelOut (s.results sb (env (count + 1)).write)
    · rw [failuresShow_last hcancel, failuresNoticed_last h hp]
      rw [passes_succ h, if_neg fun hagain => hagain.1 (herr.mpr hcancel)]
    · have hnp := (sb.nextPass_fields (env (count + 1)).seconds).2.2
      rw [failuresShow_next hcancel, failuresNoticed_next h (mt herr.mp hcancel),
        ih (s.sb_finish sb (env (count + 1))) (hnp.trans hp)]
      have hresults : ∀ n, (s.onePass sb (env (count + 1))).finish.results
          (sb.nextPass (env (count + 1)).seconds) (env n).write = s.results sb (env n).write :=
        fun n => results_pass h _ _ _
      simp only [FailuresShow, hresults]

/-- Where the superblocks are not persistent `write_disk_sb` is not called. -/
theorem Jmddev.failuresNoticed_of_notPersistent (h : s.sb = some sb)
    (hp : sb.notPersistent ≠ 0) : s.FailuresNoticed env (count + 1) := by
  have hcodes : (s.onePass sb (env count)).codes = [] :=
    (codes_of_notPersistent (by rwa [(sb.nextPass_fields _).2.2])).1
  have herr : (s.onePass sb (env count)).err = 0 := by rw [Pass.err, hcodes, List.foldl_nil]
  rw [FailuresNoticed, passes_succ h, if_neg fun hagain => hagain.1 herr]
  rintro - p hlast code hmem
  rw [List.getLast?_singleton, Option.some_inj] at hlast
  rw [← hlast, hcodes] at hmem
  exact absurd hmem List.not_mem_nil

/-- **When write failures are noticed.** For every array and whatever the kernel answers,
`jmd_update_sb` leaves its loop early only after a pass without failures, exactly if the
superblocks are not persistent, or in no pass before the hundredth the skipped members make up
for those that are rejected or have no memory, unless all members have been written before. -/
theorem failures_noticed_iff (h : s.sb = some sb) (env : ℕ → PassEnv) :
    s.FailuresNoticed env 100 ↔ sb.notPersistent ≠ 0 ∨ s.FailuresShow sb env 100 := by
  by_cases hp : sb.notPersistent = 0
  · rw [Jmddev.failuresNoticed_iff h hp]
    simp [hp]
  · exact iff_of_true (Jmddev.failuresNoticed_of_notPersistent h hp) (Or.inl hp)

end

/-- One member is skipped, there is no memory for another, and the third is written. The codes do
not add up to 0 in any pass, so that the failures are noticed. -/
theorem failures_noticed_iff_mixed :
    (∀ n, mixedMembers.results mixedSb (secondRefused n).write =
      [.moved, .noMemory, .submitted]) ∧ mixedMembers.FailuresNoticed secondRefused 100 := by
  have hfirst : mixedMembers.results mixedSb (secondRefused 99).write =
      [.moved, .noMemory, .submitted] := by decide
  have hresults : ∀ n, mixedMembers.results mixedSb (secondRefused n).write =
      [.moved, .noMemory, .submitted] := fun _ => hfirst
  refine ⟨hresults, (failures_noticed_iff rfl secondRefused).mpr (Or.inr fun n _ _ hcancel => ?_)⟩
  exact absurd (hresults n ▸ hcancel) (by decide)

/-- Thirteen members that were bound with the superblocks of their devices, so that their
`sb_offset` is 0. -/
def thirteenMembers : Jmddev :=
  { oneMember staleDev zeroPage with
    nbDev := 13
    disks := (List.range 13).map fun i =>
      { oneRdev staleDev zeroPage with dev := .ofNat (i + 1), sbOffset := 0 } }

/-- There is no memory for the bio of the last member, in any pass. -/
def lastRefused : ℕ → PassEnv := fun _ => ⟨0, fun i => ⟨i != 12, some zeroPage, true⟩⟩

/-- Twelve members are skipped and there is no memory for the thirteenth, but the loop ends after
the first pass. -/
theorem failure_not_noticed : ¬thirteenMembers.FailuresNoticed lastRefused 100 := by
  have hfirst : thirteenMembers.results magicSb (lastRefused 99).write =
      List.replicate 12 .moved ++ [.noMemory] := by decide
  have hresults : ∀ n, thirteenMembers.results magicSb (lastRefused n).write =
      List.replicate 12 .moved ++ [.noMemory] := fun _ => hfirst
  rw [Jmddev.failuresNoticed_iff (show thirteenMembers.sb = some magicSb from rfl) rfl]
  intro hshow
  obtain ⟨m, -, -, hall⟩ := hshow 99 (by decide) (by decide) (by rw [hresults]; decide)
  rw [hresults] at hall
  exact absurd (hall .noMemory (by decide)) (by decide)

end Jmd

end JRaid
