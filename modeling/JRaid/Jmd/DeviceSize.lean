import JRaid.Jmd.Descriptors
import JRaid.Jmd.Supplied

/-!
# How much of a device is used

`calc_dev_sboffset` takes the last 128 sectors of a device, rounded down to 128, for the
superblock, and `calc_dev_size` rounds what lies in front of them down to chunks. The
subtraction wraps around on a device that has fewer than 128 sectors, and since the mask of the
rounding is an `unsigned int`, what is left is large enough to be accepted
(`superblock_fits_iff`).

`add_new_disk` keeps the smallest of these sizes in a field of 32 bits, where 0 means that there
is none yet. The field holds the smallest size as long as no size is lost to either of the two
(`component_size_minimum`).
-/

namespace JRaid

namespace Jmd

/-! ### The place of the superblock -/

/-- `device_size_calculation` accepts a device: it offers no less than a chunk. -/
def Jmddev.AcceptsSize (s : Jmddev) (sb : Superblock) (dev : DevT) : Prop :=
  (sb.chunkSize / 512).toUInt64 ≤ s.calcDevSize dev (sb.notPersistent = 0)

instance (s : Jmddev) (sb : Superblock) (dev : DevT) : Decidable (s.AcceptsSize sb dev) :=
  inferInstanceAs (Decidable (_ ≤ _))

/-- The loop has accepted, and given its size, every member that had none if it comes to its
end. -/
theorem mem_sizePass {size : DevT → UInt64} {chunkSize : UInt32} {disks : List Rdev}
    (h : (sizePass size chunkSize disks).1 = true) {m : Rdev} (hm : m ∈ disks)
    (hup : m.faulty = false) (hsize : m.size = 0) :
    { m with size := size m.dev } ∈ (sizePass size chunkSize disks).2 := by
  induction disks with
  | nil => exact absurd hm List.not_mem_nil
  | cons m' rest ih =>
    unfold sizePass at h ⊢
    dsimp only at h ⊢
    obtain rfl | hm := List.mem_cons.mp hm
    · rw [if_neg (by simp [hup, hsize])] at h ⊢
      split at h
      · cases h
      · rw [if_neg ‹_›]
        exact List.mem_cons_self
    · split at h
      · rw [if_pos ‹_›]
        exact List.mem_cons_of_mem _ (ih h hm)
      rw [if_neg ‹_›]
      split at h
      · cases h
      · rw [if_neg ‹_›]
        exact List.mem_cons_of_mem _ (ih h hm)

/-- The superblock of a device is on the device, if it keeps one, and the data lies in front of
it. -/
structure Jmddev.SuperblockFits (s : Jmddev) (sb : Superblock) (dev : DevT) : Prop where
  holds : sb.notPersistent = 0 → (s.device dev).Holds (s.calcDevSboffset dev true)
  size : s.calcDevSize dev (sb.notPersistent = 0) ≤ s.calcDevSboffset dev (sb.notPersistent = 0)

theorem maskChunk_le (chunkSize : UInt32) (size : UInt64) : maskChunk chunkSize size ≤ size := by
  rw [maskChunk]
  split
  · rw [UInt64.le_iff_toNat_le, UInt64.toNat_and]
    exact Nat.and_le_left
  · exact UInt64.le_refl size

/-- The mask of a chunk of at least a sector. -/
theorem toNat_chunkMask {chunkSize : UInt32} (h : chunkSize.toNat / 512 ≠ 0) :
    (~~~(chunkSize / 512 - 1)).toUInt64.toNat = 2 ^ 32 - chunkSize.toNat / 512 := by
  have hdiv : (chunkSize / 512).toNat = chunkSize.toNat / 512 := UInt32.toNat_div _ _
  have hlt := chunkSize.toNat_lt
  rw [UInt32.toNat_toUInt64, UInt32.toNat_not, UInt32.toNat_sub, hdiv]
  change 2 ^ 32 - 1 - (2 ^ 32 - 1 + chunkSize.toNat / 512) % 2 ^ 32 = _
  omega

/-- A size with bit 31 set stays larger than a chunk. -/
theorem le_maskChunk {chunkSize : UInt32} {size : UInt64} (h : size.toNat.testBit 31 = true) :
    (chunkSize / 512).toUInt64 ≤ maskChunk chunkSize size := by
  have hdiv : (chunkSize / 512).toNat = chunkSize.toNat / 512 := UInt32.toNat_div _ _
  have hlt := chunkSize.toNat_lt
  rw [UInt64.le_iff_toNat_le, UInt32.toNat_toUInt64, hdiv]
  by_cases hq : chunkSize.toNat / 512 = 0
  · rw [hq]
    exact Nat.zero_le _
  have hne : chunkSize ≠ 0 := by
    rintro rfl
    exact hq rfl
  -- the mask keeps all bits from the 23rd on, whatever the chunk size
  have hbit : (maskChunk chunkSize size).toNat.testBit 31 = true := by
    rw [maskChunk, if_pos hne, UInt64.toNat_and, toNat_chunkMask hq, Nat.testBit_and, h,
      Bool.true_and, Nat.testBit_eq_decide_div_mod_eq]
    exact decide_eq_true (by omega)
  have hge := Nat.ge_two_pow_of_testBit hbit
  omega

/-- **When the superblock fits the device.** If `device_size_calculation` succeeds, it has
accepted each member whose size was open, and on level 5 set its size. A device that is
accepted holds its superblock, with its data in front of it, exactly if it has at least 128
sectors or keeps no superblock. -/
theorem superblock_fits_iff {s : Jmddev} {sb : Superblock} {m : Rdev} (hsb : s.sb = some sb)
    (hm : m ∈ s.disks) (hup : m.faulty = false) (hsize : m.size = 0) :
    (∀ s', s.deviceSizeCalculation sb = (0, s') → s.AcceptsSize sb m.dev ∧
      (sb.level = 5 →
        { m with size := s.calcDevSize m.dev (sb.notPersistent = 0) } ∈ s'.disks)) ∧
    ((s.AcceptsSize sb m.dev → s.SuperblockFits sb m.dev) ↔
      (sb.notPersistent = 0 → 128 ≤ (s.device m.dev).sectors.toNat)) := by
  have hmem : m.dev ∈ s.disks.map Rdev.dev := List.mem_map_of_mem hm
  have hplace := toNat_mdNewSizeBlocks (s.device m.dev).sectors
  have hlt := (s.device m.dev).sectors.toNat_lt
  have hoffset : s.calcDevSboffset m.dev true = mdNewSizeBlocks (s.device m.dev).sectors :=
    s.calcDevSboffset_of_mem hmem true
  refine ⟨fun s' h => ?_, fun h hpersistent => ?_, fun h _ => ⟨fun hpersistent => ?_, ?_⟩⟩
  · obtain ⟨disks, jmdSize, rfl, -, hlevel, hdone⟩ := Jmddev.deviceSizeCalculation_cases h
    refine ⟨le_of_sizePass (hdone rfl) hm hup hsize, fun h5 => ?_⟩
    rw [hlevel h5]
    exact mem_sizePass (hdone rfl) hm hup hsize
  · by_contra hsmall
    -- the offset has wrapped around to 128 below 2 ^ 64
    have hwrap : (mdNewSizeBlocks (s.device m.dev).sectors).toNat = 2 ^ 64 - 128 := by omega
    have haccepts : s.AcceptsSize sb m.dev := by
      rw [Jmddev.AcceptsSize, Jmddev.calcDevSize_of_mem hsb hmem, Shape.usableSize,
        if_pos (show sb.shape.notPersistent = 0 from hpersistent)]
      refine le_maskChunk ?_
      rw [hwrap]
      decide
    have hholds := (h haccepts).holds hpersistent
    rw [BlockDev.Holds, hoffset, hwrap] at hholds
    omega
  · have hmany := h hpersistent
    rw [BlockDev.Holds, hoffset, hplace, mdSbSectors]
    omega
  · unfold Jmddev.calcDevSize
    rw [hsb]
    exact maskChunk_le _ _

theorem superblock_fits_iff_one : ∃ s sb m, s = oneMember smallDev zeroPage ∧ s.sb = some sb ∧
    s.disks = [m] ∧
      (∀ s', s.deviceSizeCalculation sb = (0, s') → s.AcceptsSize sb m.dev ∧
        (sb.level = 5 →
          { m with size := s.calcDevSize m.dev (sb.notPersistent = 0) } ∈ s'.disks)) ∧
      ((s.AcceptsSize sb m.dev → s.SuperblockFits sb m.dev) ↔
        (sb.notPersistent = 0 → 128 ≤ (s.device m.dev).sectors.toNat)) :=
  ⟨_, _, oneRdev smallDev zeroPage, rfl, rfl, rfl,
    superblock_fits_iff rfl List.mem_cons_self rfl (by decide)⟩

/-- Devices of 64 sectors. -/
def shortDevices : DevT → BlockDev := fun _ => ⟨64, by decide, fun _ => 0⟩

/-- A member of 64 sectors is accepted, with its superblock far behind the end of the device. -/
theorem superblock_off_device : ∃ s sb m,
    (Jmddev.fresh shortDevices).addMember (addCall 2 0 0) (8, 0) = .ok s ∧ s.sb = some sb ∧
      m ∈ s.disks ∧ (sb.notPersistent = 0 ∧ m.sbOffset = s.calcDevSboffset m.dev true ∧
        (s.deviceSizeCalculation sb).1 = 0) ∧ s.AcceptsSize sb m.dev ∧
          ¬ s.SuperblockFits sb m.dev := by
  obtain ⟨s, hadd, hshow⟩ : ∃ s, (Jmddev.fresh shortDevices).addMember (addCall 2 0 0) (8, 0) =
      .ok s ∧ (s.sb.bind fun sb => s.disks.head?.map fun m => decide
        ((sb.notPersistent = 0 ∧ m.sbOffset = s.calcDevSboffset m.dev true ∧
          (s.deviceSizeCalculation sb).1 = 0) ∧ s.AcceptsSize sb m.dev ∧
            ¬ (s.device m.dev).Holds (s.calcDevSboffset m.dev true))) = some true :=
    Except.exists_of_toOption_map (by decide +kernel)
  obtain ⟨sb, hsb, hshow⟩ := Option.bind_eq_some_iff.mp hshow
  obtain ⟨m, hm, hshow⟩ := Option.map_eq_some_iff.mp hshow
  obtain ⟨hkeeps, haccepts, hholds⟩ := of_decide_eq_true hshow
  exact ⟨s, sb, m, hadd, hsb, List.mem_of_mem_head? hm, hkeeps, haccepts,
    fun h => hholds (h.holds hkeeps.1)⟩

/-! ### The component size -/

/-- The sectors of a device in front of the last 128, both rounded down to 128, and these rounded
down to chunks. -/
def BlockDev.componentSize (d : BlockDev) (chunkSize : UInt32) : ℕ :=
  let sectors := d.sectors.toNat / 128 * 128 - 128
  if chunkSize = 0 then sectors
  else sectors / (chunkSize.toNat / 512) * (chunkSize.toNat / 512)

/-- The component sizes of the members. -/
def Jmddev.componentSizes (s : Jmddev) (sb : Superblock) : List ℕ :=
  (s.disks.map Rdev.dev).map fun dev => (s.device dev).componentSize sb.chunkSize

/-- **The component size is the minimum** over the members, and 0 if there are none. -/
def Jmddev.SizeIsMinimum (s : Jmddev) : Prop :=
  ∀ sb, s.sb = some sb → sb.size.toNat = (s.componentSizes sb).min?.getD 0

/-- A successful call for a device that works and has at least 128 sectors. -/
structure Jmddev.Binds (s : Jmddev) (c : AddCall) : Prop where
  succeeds : ∃ s', s.addNewDisk c.env c.info = .ok (0, s')
  works : c.info.faulty = false
  sectors : 128 ≤ (s.device c.info.dev).sectors.toNat

/-- The size of a device is lost neither to the 32 bits of the field nor to the 0 that says that
there is none. -/
def Jmddev.KeepsSize (s : Jmddev) (sb : Superblock) (d : BlockDev) : Prop :=
  if s.disks = [] then d.componentSize sb.chunkSize < 2 ^ 32
  else if sb.size = 0 then d.componentSize sb.chunkSize % 2 ^ 32 = 0
  else d.componentSize sb.chunkSize < 2 ^ 32 ∨
    sb.size.toNat ≤ d.componentSize sb.chunkSize % 2 ^ 32

/-- The size of the device that the call names is not lost. -/
def Jmddev.KeepsMinimum (s : Jmddev) (c : AddCall) : Prop :=
  ∀ sb, s.sb = some sb → s.KeepsSize sb (s.device c.info.dev)

theorem Jmddev.sizeIsMinimum_iff {s : Jmddev} {sb : Superblock} (hsb : s.sb = some sb) :
    s.SizeIsMinimum ↔ sb.size.toNat = (s.componentSizes sb).min?.getD 0 :=
  ⟨fun h => h sb hsb, fun h _ hsb' => Option.some.inj (hsb.symm.trans hsb') ▸ h⟩

/-- The chunk size is such that `calc_dev_size` can round with a mask. -/
def MaskRounds (chunkSize : UInt32) : Prop := chunkSize = 0 ∨ ∃ k, chunkSize.toNat = 512 * 2 ^ k

/-- Rounding down to `2 ^ k` and dropping the bits from `n` on can be done in either order. -/
theorem mod_two_pow_div_mul (x : ℕ) {k n : ℕ} (h : k ≤ n) :
    x % 2 ^ n / 2 ^ k * 2 ^ k = x / 2 ^ k * 2 ^ k % 2 ^ n := by
  obtain ⟨m, rfl⟩ := Nat.exists_eq_add_of_le h
  rw [Nat.pow_add, Nat.mod_mul_right_div_self, Nat.mul_comm (2 ^ k) (2 ^ m), Nat.mul_mod_mul_right]

/-- What `add_new_disk` takes of the size of a device. -/
theorem Shape.toNat_usableSize {shape : Shape} {d : BlockDev}
    (hpersistent : shape.notPersistent = 0) (hchunk : MaskRounds shape.chunkSize)
    (hd : 128 ≤ d.sectors.toNat) :
    (int32OfULong (shape.usableSize d)).toUInt32.toNat =
      d.componentSize shape.chunkSize % 2 ^ 32 := by
  have hlt := d.sectors_lt
  have hplace : (mdNewSizeBlocks d.sectors).toNat = d.sectors.toNat / 128 * 128 - 128 := by
    have h := toNat_mdNewSizeBlocks d.sectors
    omega
  have hint : (int32OfULong (shape.usableSize d)).toUInt32 = (shape.usableSize d).toUInt32 := rfl
  rw [hint, UInt64.toNat_toUInt32, Shape.usableSize, if_pos hpersistent, maskChunk,
    BlockDev.componentSize, ← hplace]
  obtain h0 | ⟨k, hk⟩ := hchunk
  · rw [if_neg (not_not.mpr h0), if_pos h0]
  have hne : shape.chunkSize ≠ 0 := by
    intro h0
    rw [h0] at hk
    exact absurd hk.symm (Nat.mul_ne_zero (by decide) (Nat.two_pow_pos k).ne')
  have hquot : shape.chunkSize.toNat / 512 = 2 ^ k := by
    rw [hk, Nat.mul_div_cancel_left _ (by decide)]
  have hk32 : k ≤ 32 := by
    refine ((Nat.pow_lt_pow_iff_right (show 1 < 2 by decide)).mp ?_).le
    rw [← hquot]
    exact (Nat.div_le_self _ _).trans_lt shape.chunkSize.toNat_lt
  rw [if_pos hne, if_neg hne, UInt64.toNat_and, toNat_chunkMask (hquot ▸ (Nat.two_pow_pos k).ne'),
    hquot, land_two_pow_sub_two_pow _ hk32, mod_two_pow_div_mul _ hk32, Nat.mod_mod]

/-- When the running minimum of sizes stays the minimum although only `x % n` is taken in. -/
theorem takeMin_mod_eq_iff {l : List ℕ} {x n : ℕ} (hn : 0 < n) :
    takeMin (x % n) (l.min?.getD 0) = (x :: l).min?.getD 0 ↔
      if l = [] then x < n
      else if l.min?.getD 0 = 0 then x % n = 0 else x < n ∨ l.min?.getD 0 ≤ x % n := by
  have hmod := Nat.mod_lt x hn
  rw [getD_min?_cons]
  by_cases hl : l = []
  · subst hl
    rw [if_pos rfl, if_pos rfl, List.min?_nil, Option.getD_none, takeMin_zero]
    exact ⟨fun h => h ▸ hmod, Nat.mod_eq_of_lt⟩
  rw [if_neg hl, if_neg hl]
  by_cases h0 : l.min?.getD 0 = 0
  · rw [if_pos h0, h0, takeMin_zero, Nat.min_zero]
  rw [if_neg h0, takeMin_of_ne_zero _ h0]
  rcases Nat.lt_or_ge x n with hlt | hge
  · rw [Nat.mod_eq_of_lt hlt]
    exact iff_of_true rfl (Or.inl hlt)
  · omega

theorem Jmddev.componentSizes_bindImported (s : Jmddev) (sb : Superblock) (jrdev : Rdev)
    {sb' : Superblock} (h : sb'.chunkSize = sb.chunkSize) :
    (s.bindImported sb jrdev).componentSizes sb' =
      (s.device jrdev.dev).componentSize sb.chunkSize :: s.componentSizes sb := by
  rw [componentSizes, map_dev_bindImported, h]
  rfl

/-- The array keeps superblocks on its devices, and `calc_dev_size` rounds to its chunks. -/
def Jmddev.Rounds (s : Jmddev) : Prop :=
  ∃ sb, s.sb = some sb ∧ sb.notPersistent = 0 ∧ MaskRounds sb.chunkSize

/-- What binding a device makes of the component size. -/
theorem Jmddev.sizeIsMinimum_bindImported {s : Jmddev} {sb : Superblock} {jrdev : Rdev}
    (hsb : s.sb = some sb) (hpersistent : sb.notPersistent = 0) (hchunk : MaskRounds sb.chunkSize)
    (hsectors : 128 ≤ (s.device jrdev.dev).sectors.toNat) (hmin : s.SizeIsMinimum) :
    (s.bindImported sb jrdev).Rounds ∧
      ((s.bindImported sb jrdev).SizeIsMinimum ↔ s.KeepsSize sb (s.device jrdev.dev)) := by
  have hkeeps : ∀ size, (sb.takeSize size).notPersistent = 0 ∧
      (sb.takeSize size).chunkSize = sb.chunkSize := by
    intro size
    unfold Superblock.takeSize
    split
    · exact ⟨hpersistent, rfl⟩
    · exact ⟨hpersistent, rfl⟩
  have hsb' := congrArg Jmddev.sb (bindImported_eq hsb jrdev)
  refine ⟨⟨_, hsb', (hkeeps _).1, (hkeeps _).2.symm ▸ hchunk⟩, ?_⟩
  have hsize : sb.size.toNat = (s.componentSizes sb).min?.getD 0 := hmin sb hsb
  have hzero : sb.size = 0 ↔ (s.componentSizes sb).min?.getD 0 = 0 := by
    rw [← hsize, ← UInt32.toNat_inj, UInt32.toNat_zero]
  have hnil : s.disks = [] ↔ s.componentSizes sb = [] := by
    rw [componentSizes, List.map_eq_nil_iff, List.map_eq_nil_iff]
  rw [sizeIsMinimum_iff hsb', componentSizes_bindImported s sb jrdev (hkeeps _).2,
    Superblock.toNat_size_takeSize, Shape.toNat_usableSize hpersistent hchunk hsectors, hsize,
    KeepsSize]
  simp only [hnil, hzero, hsize]
  exact takeMin_mod_eq_iff (Nat.two_pow_pos 32)

/-- What a call that binds a device makes of the component size. -/
theorem Jmddev.sizeIsMinimum_step {s s' : Jmddev} {c : AddCall} {err : Int32} (hrounds : s.Rounds)
    (hmin : s.SizeIsMinimum) (hbinds : s.Binds c)
    (hstep : s.addNewDisk c.env c.info = .ok (err, s')) :
    s'.Rounds ∧ (s'.SizeIsMinimum ↔ s.KeepsMinimum c) := by
  obtain ⟨sb, hsb, hpersistent, hchunk⟩ := hrounds
  have hok : err = 0 := by
    obtain ⟨s'', hs''⟩ := hbinds.succeeds
    exact (Prod.mk.inj (Except.ok.inj (hstep.symm.trans hs''))).1
  cases addOutcome hstep with
  | known => exact absurd hok (by decide)
  | noSuperblock => exact absurd hok (by decide)
  | onDisk hno => exact absurd (hsb.symm.trans hno) (by simp)
  | noSlot => exact absurd hok (by decide)
  | notImported => exact absurd hok (by decide)
  | faulty _ _ _ _ _ hdown => exact absurd (hbinds.works.symm.trans hdown) (by decide)
  | bound _ sb₁ hsb₁ _ hlt _ jrdev himp =>
    obtain rfl : sb₁ = sb := Option.some.inj (hsb₁.symm.trans hsb)
    have hdev : jrdev.dev = c.info.dev := himp.dev
    -- writing the descriptor changes neither the size nor the chunks
    have hassigned : Jmddev.SizeIsMinimum { s with
        sb := some (sb₁.assign ⟨_, hlt⟩ c.info), all := c.info.dev :: s.all } := by
      rintro _ ⟨⟩
      exact hmin sb₁ hsb
    have hsectors : 128 ≤ (s.device jrdev.dev).sectors.toNat := hdev.symm ▸ hbinds.sectors
    obtain ⟨hrounds', hiff⟩ := @Jmddev.sizeIsMinimum_bindImported { s with
        sb := some (sb₁.assign ⟨_, hlt⟩ c.info), all := c.info.dev :: s.all }
      (sb₁.assign ⟨_, hlt⟩ c.info) { jrdev with oldDev := c.info.dev, descNr := c.info.number }
      rfl hpersistent hchunk hsectors hassigned
    refine ⟨hrounds', hiff.trans ⟨fun h sb' hsb' => ?_, fun h => ?_⟩⟩
    · obtain rfl : sb' = sb₁ := Option.some.inj (hsb'.symm.trans hsb)
      rw [← hdev]
      exact h
    · have hkeeps := h sb₁ hsb
      rw [← hdev] at hkeeps
      exact hkeeps

/-- **When the component size is the minimum.** An array that keeps superblocks starts with the
component size 0 and without members. Along each run of successful calls whose sizes are not
lost the component size is the minimum over the members; and a call that loses a size ends
this. -/
theorem component_size_minimum {s₀ s : Jmddev} {sb₀ : Superblock} (hsb₀ : s₀.sb = some sb₀)
    (hzero : sb₀.size = 0) (hnil : s₀.disks = []) (hrounds : s₀.Rounds)
    (h : (addSystem s₀).ReachableWith (fun s c => s.Binds c ∧ s.KeepsMinimum c) s) :
    s.SizeIsMinimum ∧ ∀ c s', (addSystem s₀).step s c = .ok s' → s.Binds c →
      (s'.SizeIsMinimum ↔ s.KeepsMinimum c) := by
  have hstart : s₀.SizeIsMinimum := by
    rw [Jmddev.sizeIsMinimum_iff hsb₀, Jmddev.componentSizes, hnil, hzero]
    rfl
  have hinv : s.Rounds ∧ s.SizeIsMinimum := by
    refine FallibleSystem.ReachableWith.invariant
      (I := fun s => s.Rounds ∧ s.SizeIsMinimum) ⟨hrounds, hstart⟩ ?_ h
    rintro s c s' ⟨hr, hmin⟩ ⟨hbinds, hkeeps⟩ hs
    obtain ⟨err, hadd⟩ := exists_addNewDisk_of_step hs
    obtain ⟨hr', hiff⟩ := Jmddev.sizeIsMinimum_step hr hmin hbinds hadd
    exact ⟨hr', hiff.mpr hkeeps⟩
  refine ⟨hinv.2, fun c s' hs hbinds => ?_⟩
  obtain ⟨err, hadd⟩ := exists_addNewDisk_of_step hs
  exact (Jmddev.sizeIsMinimum_step hinv.1 hinv.2 hbinds hadd).2

/-- An array for devices of 1024 sectors, but for one of 4096; none of them has been added yet. -/
def twoSizes : Jmddev :=
  setArray (fun dev => if dev = mkdev 8 0 then ⟨4096, by decide, fun _ => 0⟩ else staleDev)
    ⟨true, 0, 0, 0, 0, 0⟩ arrayInfoInit

/-- The larger device is added, then a smaller one, whose size counts. -/
theorem component_size_minimum_second : ∃ s, s.sb.map Superblock.size = some 896 ∧
    s.SizeIsMinimum ∧ ∀ c s', (addSystem twoSizes).step s c = .ok s' → s.Binds c →
      (s'.SizeIsMinimum ↔ s.KeepsMinimum c) := by
  have hfirst : twoSizes.KeepsMinimum (addDisk 0 0 (by decide)) := by
    rintro sb ⟨⟩
    exact show (3968 : ℕ) < 2 ^ 32 by decide
  obtain ⟨s, hs, hsecond, hbinds, t, ht, hsize⟩ : ∃ s,
      (addSystem twoSizes).step twoSizes (addDisk 0 0 (by decide)) = .ok s ∧
        s.KeepsMinimum (addDisk 1 16 (by decide)) ∧ s.Binds (addDisk 1 16 (by decide)) ∧ ∃ t,
          (addSystem twoSizes).step s (addDisk 1 16 (by decide)) = .ok t ∧
            t.sb.map Superblock.size = some 896 := by
    refine ⟨_, rfl, ?_, ⟨⟨_, rfl⟩, rfl, by decide⟩, _, rfl, rfl⟩
    rintro sb ⟨⟩
    exact Or.inl (show (896 : ℕ) < 2 ^ 32 by decide)
  exact ⟨t, hsize, component_size_minimum rfl rfl rfl
    ⟨_, rfl, rfl, Or.inr ⟨6, by decide⟩⟩ ((Relation.ReflTransGen.single
      ⟨_, ⟨⟨⟨_, rfl⟩, rfl, by decide⟩, hfirst⟩, hs⟩).tail ⟨_, ⟨hbinds, hsecond⟩, ht⟩)⟩

/-- One device of 128 sectors, and others of 1024. -/
def unevenDevices : DevT → BlockDev := fun dev => if dev = mkdev 8 0 then smallDev else staleDev

/-- The first device has the size 0, and the next one takes this for a size not yet set. -/
theorem smallest_size_forgotten : ∃ s₀ s s',
    s₀ = setArray unevenDevices ⟨true, 0, 0, 0, 0, 0⟩ arrayInfoInit ∧
      s₀.Binds (addDisk 0 0 (by decide)) ∧
      (addSystem s₀).step s₀ (addDisk 0 0 (by decide)) = .ok s ∧
      s.Binds (addDisk 1 16 (by decide)) ∧
      (addSystem s₀).step s (addDisk 1 16 (by decide)) = .ok s' ∧ ¬ s'.SizeIsMinimum := by
  refine ⟨_, _, _, rfl, ⟨⟨_, rfl⟩, rfl, by decide⟩, rfl, ⟨⟨_, rfl⟩, rfl, by decide⟩, rfl, ?_⟩
  intro h
  have hsize := h _ rfl
  exact absurd hsize (by decide)

end Jmd

end JRaid
