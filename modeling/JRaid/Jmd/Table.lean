import JRaid.Jmd.Shape

/-!
# The descriptor table after an analysis

`analyze_sbs` assembles the table of the array in passes. It starts from the table of the freshest
superblock; members that have moved enter their new device numbers (`Followed`); descriptors that
are faulty, or whose number is not the `desc_nr` of a member, are dropped (`Disk.drop`); the last
checks look at device numbers. `Tabled` says what has become of the table in the end.

The passes use three different keys: the index of a descriptor, its number, and its device number.
-/

namespace JRaid

namespace Jmd

/-! ### Device numbers -/

theorem mkdev_major_minor (dev : DevT) : mkdev (major dev) (minor dev) = dev := by
  have hdev := dev.toNat_lt
  have hshift : (dev >>> 20 <<< 20).toNat = dev.toNat / 2 ^ 20 * 2 ^ 20 := by
    rw [UInt32.toNat_shiftLeft, UInt32.toNat_shiftRight, Nat.shiftLeft_eq,
      Nat.shiftRight_eq_div_pow]
    exact Nat.mod_eq_of_lt (by change dev.toNat / 2 ^ 20 * 2 ^ 20 < 2 ^ 32; omega)
  have hmask : (dev &&& 0xfffff).toNat = dev.toNat % 2 ^ 20 := by
    rw [UInt32.toNat_and]
    exact Nat.and_two_pow_sub_one_eq_mod dev.toNat 20
  rw [mkdev, major, minor, ← UInt32.toNat_inj, UInt32.toNat_or, hshift, hmask, ← Nat.shiftLeft_eq,
    ← Nat.shiftLeft_add_eq_or_of_lt (Nat.mod_lt _ (by decide)), Nat.shiftLeft_eq]
  omega

@[simp]
theorem Disk.dev_withDev (d : Disk) (dev : DevT) : (d.withDev dev).dev = dev :=
  mkdev_major_minor dev

theorem descIndex_inj {nr nr' : Int32} {i : Fin mdSbDisks} (h : descIndex nr = some i)
    (h' : descIndex nr' = some i) : nr = nr' := by
  rw [descIndex_eq_some_iff] at h h'
  have heq : nr.toUInt32 = nr'.toUInt32 := UInt32.toNat_inj.mp (h.trans h'.symm)
  rw [← nr.toInt32_toUInt32, heq, nr'.toInt32_toUInt32]

/-! ### Members that have moved -/

/-- What the passes look at in a member. -/
def Rdev.standing (jrdev : Rdev) : DevT × Int32 × UInt64 :=
  (jrdev.dev, jrdev.descNr, jrdev.sb.event)

/-- What the renaming pass makes of the table. -/
structure Followed (sb : Superblock) (disks : List Rdev) (sb' : Superblock) (disks' : List Rdev) :
    Prop where
  standing : disks'.map Rdev.standing = disks.map Rdev.standing
  event : sb'.event = sb.event
  /-- but for its device number a descriptor stays as it is -/
  same : ∀ i, (sb'.disks i).withDev 0 = (sb.disks i).withDev 0
  rest : ∀ i, (∀ m ∈ disks, m.Moved sb → descIndex m.descNr ≠ some i) →
    sb'.disks i = sb.disks i
  /-- a member that has moved and shares its descriptor with no other is followed -/
  moved : (disks.map Rdev.descNr).Nodup → ∀ m ∈ disks, m.Moved sb →
    ∃ i, descIndex m.descNr = some i ∧ (sb'.disks i).dev = m.dev

theorem Followed.nil (sb : Superblock) : Followed sb [] sb [] :=
  ⟨rfl, rfl, fun _ => rfl, fun _ _ => rfl, fun _ _ hm => absurd hm List.not_mem_nil⟩

/-- A member that is not followed. -/
theorem Followed.keep {sb sb' : Superblock} {jrdev : Rdev} {rest rest' : List Rdev}
    (hmoved : ¬ jrdev.Moved sb) (h : Followed sb rest sb' rest') :
    Followed sb (jrdev :: rest) sb' (jrdev :: rest') := by
  refine ⟨?_, h.event, h.same, fun i hno => h.rest i fun m hm => hno m (List.mem_cons_of_mem _ hm),
    fun hnodup m hm hmv => ?_⟩
  · rw [List.map_cons, List.map_cons, h.standing]
  · obtain rfl | hm := List.mem_cons.mp hm
    · exact absurd hmv hmoved
    · exact h.moved (List.nodup_cons.mp hnodup).2 m hm hmv

/-- A member that is followed. -/
theorem Followed.move {sb sb' : Superblock} {jrdev : Rdev} {rest rest' : List Rdev}
    {i : Fin mdSbDisks} (hmoved : jrdev.Moved sb) (hi : descIndex jrdev.descNr = some i)
    (h : Followed (sb.setDisk i ((sb.disks i).withDev jrdev.dev)) rest sb' rest') :
    Followed sb (jrdev :: rest) sb' (jrdev.renamed :: rest') := by
  refine ⟨?_, h.event, fun j => (h.same j).trans ?_, fun j hno => ?_, fun hnodup m hm hmv => ?_⟩
  · rw [List.map_cons, List.map_cons, h.standing]
    rfl
  · by_cases hj : j = i
    · rw [hj, Superblock.setDisk_self]
      rfl
    · rw [Superblock.setDisk_of_ne _ _ hj]
  · have hj : j ≠ i := fun hj => hno jrdev List.mem_cons_self hmoved (hj ▸ hi)
    rw [h.rest j fun m hm => hno m (List.mem_cons_of_mem _ hm), Superblock.setDisk_of_ne _ _ hj]
  · obtain ⟨hnot, hnodup⟩ := List.nodup_cons.mp hnodup
    obtain rfl | hm := List.mem_cons.mp hm
    · -- nobody else writes this descriptor
      have hrest := h.rest i fun m' hm' _ hi' =>
        hnot (descIndex_inj hi hi' ▸ List.mem_map_of_mem hm')
      refine ⟨i, hi, ?_⟩
      rw [hrest, Superblock.setDisk_self, Disk.dev_withDev]
    · exact h.moved hnodup m hm hmv

/-- **The renaming pass**, if it comes to its end. -/
theorem renamePass_followed {sb sb' : Superblock} {disks disks' : List Rdev}
    (h : renamePass sb disks = .ok (true, sb', disks')) : Followed sb disks sb' disks' := by
  refine renamePass_induct (motive := fun sb disks all sb' disks' =>
    all = true → Followed sb disks sb' disks') ?_ ?_ ?_ ?_ h rfl
  · exact fun sb _ => .nil sb
  · exact fun _ _ _ hno => absurd hno (by decide)
  · exact fun sb jrdev rest i all sb' rest' hmoved hi ih hall => .move hmoved hi (ih hall)
  · exact fun sb jrdev rest all sb' rest' hmoved ih hall => .keep hmoved (ih hall)

/-! ### Descriptors that are dropped -/

/-- A descriptor that is not faulty and has the number of a member is kept. -/
def Disk.Kept (d : Disk) (disks : List Rdev) : Prop :=
  d.faulty = false ∧ ∃ jrdev ∈ disks, jrdev.descNr.toUInt32 = d.number

instance (d : Disk) (disks : List Rdev) : Decidable (d.Kept disks) :=
  inferInstanceAs (Decidable (_ ∧ _))

/-- What becomes of a descriptor. -/
def Disk.drop (d : Disk) (disks : List Rdev) : Disk :=
  if d.Kept disks ∨ d.faulty = false ∧ d.dev = mkdev 0 0 ∨
      (∀ jrdev ∈ disks, jrdev.descNr.toUInt32 ≠ d.number) ∧ d.dev = mkdev 0 0 then d
  else { d with major := 0, minor := 0 }.markRemoved

theorem Disk.number_drop (d : Disk) (disks : List Rdev) : (d.drop disks).number = d.number := by
  unfold drop
  split <;> rfl

theorem Disk.raidDisk_drop (d : Disk) (disks : List Rdev) :
    (d.drop disks).raidDisk = d.raidDisk := by
  unfold drop
  split <;> rfl

/-- A descriptor that is not kept has no device number afterwards. -/
theorem Disk.dev_drop (d : Disk) (disks : List Rdev) :
    (d.drop disks).dev = if d.Kept disks then d.dev else 0 := by
  have hzero : mkdev 0 0 = 0 := by decide
  unfold drop
  by_cases hkept : d.Kept disks
  · rw [if_pos (Or.inl hkept), if_pos hkept]
  rw [if_neg hkept]
  split
  · rename_i hcase
    obtain hk | ⟨-, hd⟩ | ⟨-, hd⟩ := hcase
    · exact absurd hk hkept
    · exact hd.trans hzero
    · exact hd.trans hzero
  · exact hzero

/-- A member has the number of the descriptor. -/
def Disk.Named (d : Disk) (disks : List Rdev) : Prop :=
  ∃ jrdev ∈ disks, jrdev.descNr.toUInt32 = d.number

instance (d : Disk) (disks : List Rdev) : Decidable (d.Named disks) :=
  inferInstanceAs (Decidable (∃ jrdev ∈ disks, _))

/-- The descriptor is dropped: a faulty one unless it has neither a device nor a member, another
one if it has a device but no member. -/
def Disk.Dropped (d : Disk) (disks : List Rdev) : Prop :=
  d.faulty = true ∧ (d.dev ≠ mkdev 0 0 ∨ d.Named disks) ∨
    d.faulty = false ∧ d.dev ≠ mkdev 0 0 ∧ ¬d.Named disks

instance (d : Disk) (disks : List Rdev) : Decidable (d.Dropped disks) :=
  inferInstanceAs (Decidable (_ ∨ _))

theorem Disk.faulty_markRemoved (d : Disk) : d.markRemoved.faulty = true :=
  show ((1 : UInt32) <<< 0 ||| (1 : UInt32) <<< 3) &&& (1 : UInt32) <<< 0 != 0 by decide

/-- The body of the loop that drops descriptors. -/
theorem Superblock.dropDescriptor_eq (disks : List Rdev) (sb : Superblock) (i : Fin mdSbDisks) :
    Superblock.dropDescriptor disks sb i =
      if (sb.disks i).Dropped disks then sb.removeDescriptor i else sb := by
  have hany : (disks.any fun jrdev => jrdev.descNr.toUInt32 = (sb.disks i).number) =
      decide ((sb.disks i).Named disks) := by
    rw [Bool.eq_iff_iff, decide_eq_true_eq, List.any_eq_true]
    exact exists_congr fun _ => and_congr_right fun _ => decide_eq_true_iff
  unfold dropDescriptor
  dsimp only
  rw [hany]
  by_cases hnamed : (sb.disks i).Named disks
  · cases hfaulty : (sb.disks i).faulty with
    | true => simp [Disk.Dropped, hfaulty, hnamed]
    | false => simp [Disk.Dropped, hfaulty, hnamed]
  · cases hfaulty : (sb.disks i).faulty with
    | true => simp [Disk.Dropped, hfaulty, hnamed]
    | false => simp [Disk.Dropped, hfaulty, hnamed]

/-- What becomes of a descriptor, in terms of when it is dropped. -/
theorem Disk.drop_eq (d : Disk) (disks : List Rdev) : d.drop disks =
    if d.Dropped disks then { d with major := 0, minor := 0 }.markRemoved else d := by
  have hiff : (d.Kept disks ∨ d.faulty = false ∧ d.dev = mkdev 0 0 ∨
      (∀ jrdev ∈ disks, jrdev.descNr.toUInt32 ≠ d.number) ∧ d.dev = mkdev 0 0) ↔
        ¬d.Dropped disks := by
    have hnamed : (∀ jrdev ∈ disks, jrdev.descNr.toUInt32 ≠ d.number) ↔ ¬d.Named disks := by
      simp only [Named, not_exists, not_and, ne_eq]
    rw [hnamed, show d.Kept disks ↔ d.faulty = false ∧ d.Named disks from Iff.rfl, Dropped]
    by_cases hmember : d.Named disks
    · cases d.faulty <;> simp [hmember]
    · cases d.faulty <;> simp [hmember]
  unfold drop
  by_cases h : d.Dropped disks
  · rw [if_pos h, if_neg (mt hiff.mp (not_not.mpr h))]
  · rw [if_neg h, if_pos (hiff.mpr h)]

/-- A descriptor that is dropped is faulty afterwards. -/
theorem Disk.faulty_drop (d : Disk) (disks : List Rdev) : (d.drop disks).faulty = true ↔
    d.faulty = true ∨ (¬d.Named disks ∧ d.dev ≠ mkdev 0 0) := by
  rw [Disk.drop_eq]
  by_cases h : d.Dropped disks
  · rw [if_pos h]
    refine iff_of_true (Disk.faulty_markRemoved _) ?_
    exact h.imp And.left fun ⟨_, hdev, hno⟩ => ⟨hno, hdev⟩
  · rw [if_neg h]
    refine ⟨Or.inl, ?_⟩
    rintro (hfaulty | ⟨hno, hdev⟩)
    · exact hfaulty
    · by_contra hgood
      exact h (Or.inr ⟨Bool.eq_false_iff.mpr hgood, hdev, hno⟩)

theorem Superblock.disks_removeDescriptor (sb : Superblock) (i : Fin mdSbDisks) :
    (sb.removeDescriptor i).disks = Function.update sb.disks i
      { sb.disks i with major := 0, minor := 0 }.markRemoved := by
  unfold removeDescriptor
  dsimp only
  split
  · rfl
  · split <;> rfl

theorem Superblock.event_removeDescriptor (sb : Superblock) (i : Fin mdSbDisks) :
    (sb.removeDescriptor i).event = sb.event := by
  unfold removeDescriptor
  dsimp only
  split
  · rfl
  · split <;> rfl

/-- One pass of the loop writes one descriptor. -/
theorem Superblock.dropDescriptor_spec (disks : List Rdev) (sb : Superblock)
    (i : Fin mdSbDisks) :
    (Superblock.dropDescriptor disks sb i).disks =
        Function.update sb.disks i ((sb.disks i).drop disks) ∧
      (Superblock.dropDescriptor disks sb i).event = sb.event := by
  rw [dropDescriptor_eq, Disk.drop_eq]
  by_cases h : (sb.disks i).Dropped disks
  · rw [if_pos h, if_pos h]
    exact ⟨sb.disks_removeDescriptor i, sb.event_removeDescriptor i⟩
  · rw [if_neg h, if_neg h, Function.update_eq_self]
    exact ⟨rfl, rfl⟩

/-- **The loop drops descriptors one by one.** -/
theorem Superblock.dropDescriptors_spec (sb : Superblock) (disks : List Rdev) :
    (∀ i, (sb.dropDescriptors disks).disks i = (sb.disks i).drop disks) ∧
      (sb.dropDescriptors disks).event = sb.event := by
  suffices h : ∀ (l : List (Fin mdSbDisks)) (sb : Superblock), l.Nodup →
      (∀ i, (l.foldl (Superblock.dropDescriptor disks) sb).disks i =
        if i ∈ l then (sb.disks i).drop disks else sb.disks i) ∧
      (l.foldl (Superblock.dropDescriptor disks) sb).event = sb.event by
    obtain ⟨hdisks, hevent⟩ := h _ sb (List.nodup_finRange mdSbDisks)
    exact ⟨fun i => (hdisks i).trans (if_pos (List.mem_finRange i)), hevent⟩
  intro l
  induction l with
  | nil => exact fun sb _ => ⟨fun i => (if_neg List.not_mem_nil).symm, rfl⟩
  | cons j l ih =>
    intro sb hnodup
    obtain ⟨hj, hnodup⟩ := List.nodup_cons.mp hnodup
    obtain ⟨hdisks, hevent⟩ := dropDescriptor_spec disks sb j
    obtain ⟨hrest, hrest'⟩ := ih (Superblock.dropDescriptor disks sb j) hnodup
    refine ⟨fun i => ?_, hrest'.trans hevent⟩
    rw [List.foldl_cons, hrest i, hdisks]
    by_cases hi : i = j
    · rw [hi, if_neg hj, if_pos List.mem_cons_self, Function.update_self]
    · rw [Function.update_of_ne hi]
      simp only [List.mem_cons, hi, false_or]

/-! ### The table in the end -/

/-- The descriptor has a device number when the members have been followed: that of the member that
has moved there, or its own. -/
def Superblock.InUse (f : Superblock) (aged : List Rdev) (i : Fin mdSbDisks) : Prop :=
  (∃ m ∈ aged, m.Moved f ∧ descIndex m.descNr = some i ∧ m.dev ≠ mkdev 0 0) ∨
    (∀ m ∈ aged, m.Moved f → descIndex m.descNr ≠ some i) ∧ (f.disks i).dev ≠ mkdev 0 0

/-- The descriptor ends up faulty: it was so, or it is dropped for having a device but no member. -/
def Superblock.EndsFaulty (f : Superblock) (aged : List Rdev) (i : Fin mdSbDisks) : Prop :=
  (f.disks i).faulty = true ∨ (¬(f.disks i).Named aged ∧ f.InUse aged i)

theorem Followed.inUse_iff {sb sb' : Superblock} {disks disks' : List Rdev}
    (h : Followed sb disks sb' disks') (hnodup : (disks.map Rdev.descNr).Nodup)
    (i : Fin mdSbDisks) : (sb'.disks i).dev ≠ mkdev 0 0 ↔ sb.InUse disks i := by
  by_cases hmoved : ∃ m ∈ disks, m.Moved sb ∧ descIndex m.descNr = some i
  · obtain ⟨m, hm, hmv, hi⟩ := hmoved
    obtain ⟨j, hj, hdev⟩ := h.moved hnodup m hm hmv
    obtain rfl := Option.some.inj (hi.symm.trans hj)
    rw [hdev]
    constructor
    · exact fun hne => Or.inl ⟨m, hm, hmv, hi, hne⟩
    · rintro (⟨m', hm', -, hi', hne⟩ | ⟨hno, -⟩)
      · rwa [List.inj_on_of_nodup_map hnodup hm hm' (descIndex_inj hi hi')]
      · exact absurd hi (hno m hm hmv)
  · have hno : ∀ m ∈ disks, m.Moved sb → descIndex m.descNr ≠ some i :=
      fun m hm hmv hi => hmoved ⟨m, hm, hmv, hi⟩
    rw [h.rest i hno]
    constructor
    · exact fun hne => Or.inr ⟨hno, hne⟩
    · rintro (⟨m, hm, hmv, hi, -⟩ | ⟨-, hne⟩)
      · exact absurd hi (hno m hm hmv)
      · exact hne

/-- What a successful analysis has made of the freshest superblock `f` and the members `aged`. -/
structure Tabled (f : Superblock) (aged : List Rdev) (sb : Superblock) (disks : List Rdev) :
    Prop where
  standing : disks.map Rdev.standing = aged.map Rdev.standing
  event : sb.event = f.event
  shape : sb.shape = f.shape
  number : ∀ i, (sb.disks i).number = (f.disks i).number
  raidDisk : ∀ i, (sb.disks i).raidDisk = (f.disks i).raidDisk
  /-- a descriptor that is kept carries the device number of the member that has moved there, -/
  moved : ∀ m ∈ aged, m.Moved f → ∃ i, descIndex m.descNr = some i ∧
    (sb.disks i).dev = if (f.disks i).Kept aged then m.dev else 0
  /-- or its own, if there is none -/
  rest : ∀ i, (∀ m ∈ aged, m.Moved f → descIndex m.descNr ≠ some i) →
    (sb.disks i).dev = if (f.disks i).Kept aged then (f.disks i).dev else 0
  faulty : ∀ i, (sb.disks i).faulty = true ↔ f.EndsFaulty aged i
  fits : sb.Fits disks

theorem map_descNr_of_standing {aged disks : List Rdev}
    (h : disks.map Rdev.standing = aged.map Rdev.standing) :
    disks.map Rdev.descNr = aged.map Rdev.descNr := by
  have hmap : ∀ l : List Rdev, l.map Rdev.descNr =
      (l.map Rdev.standing).map fun s => s.2.1 := by
    intro l
    rw [List.map_map]
    rfl
  rw [hmap, hmap, h]

/-- Whether a descriptor has a member depends on the numbers of the members only. -/
theorem Disk.named_congr {d d' : Disk} {disks disks' : List Rdev}
    (hsame : d'.withDev 0 = d.withDev 0)
    (h : disks'.map Rdev.descNr = disks.map Rdev.descNr) : d'.Named disks' ↔ d.Named disks := by
  have hnumber : d'.number = d.number := (congrArg Disk.number hsame :)
  have hmem : ∀ (l : List Rdev) (d : Disk), d.Named l ↔
      ∃ nr ∈ l.map Rdev.descNr, nr.toUInt32 = d.number := by
    intro l d
    simp [Named]
  rw [hmem, hmem, h, hnumber]

theorem Disk.faulty_congr {d d' : Disk} (hsame : d'.withDev 0 = d.withDev 0) :
    d'.faulty = d.faulty := by
  rw [Disk.faulty, Disk.faulty, show d'.state = d.state from (congrArg Disk.state hsame :)]

/-- So does whether it is kept. -/
theorem Disk.kept_congr {d d' : Disk} {disks disks' : List Rdev}
    (hsame : d'.withDev 0 = d.withDev 0)
    (h : disks'.map Rdev.descNr = disks.map Rdev.descNr) : d'.Kept disks' ↔ d.Kept disks :=
  and_congr (by rw [Disk.faulty_congr hsame]) (Disk.named_congr hsame h)

/-- **What `analyze_sbs` does when it succeeds.** -/
theorem Jmddev.tabled {jmddev jmddev' : Jmddev} {alloc : Bool}
    (h : jmddev.analyzeSbs alloc = .ok (0, jmddev')) :
    ∃ f sb, freshest (jmddev.disks.map Rdev.age) = some f ∧ jmddev'.sb = some sb ∧
      jmddev' = { jmddev with sb := some sb, disks := jmddev'.disks } ∧
      Tabled f.sb (jmddev.disks.map Rdev.age) sb jmddev'.disks := by
  unfold analyzeSbs at h
  split at h
  · cases h
  · exact absurd (Prod.mk.inj (Except.ok.inj h)).1 (by decide)
  rename_i hadopt
  obtain ⟨-, f, hf, rfl, rfl⟩ := of_adopt hadopt
  split at h
  · cases h
  · exact absurd (Prod.mk.inj (Except.ok.inj h)).1 (by decide)
  rename_i sb disks hrename
  obtain ⟨hcode, rfl⟩ := Prod.mk.inj (Except.ok.inj h)
  have hfits : (sb.dropDescriptors disks).Fits disks := by
    by_contra hno
    rw [if_neg hno] at hcode
    exact absurd hcode (by decide)
  have hfollow := renamePass_followed hrename
  obtain ⟨hshape, -⟩ := renamePass_keeps hrename
  obtain ⟨hdisks, hevent⟩ := sb.dropDescriptors_spec disks
  have hdescNr := map_descNr_of_standing hfollow.standing
  have hnodup : ((jmddev.disks.map Rdev.age).map Rdev.descNr).Nodup := hdescNr ▸ hfits.2.2.1
  have hkept := fun i => Disk.kept_congr (hfollow.same i) hdescNr
  refine ⟨f, _, hf, rfl, rfl, hfollow.standing, hevent.trans hfollow.event,
    (sb.shape_dropDescriptors disks).trans hshape, fun i => ?_, fun i => ?_, fun m hm hmv => ?_,
    fun i hno => ?_, fun i => ?_, hfits⟩
  · rw [hdisks, Disk.number_drop]
    exact (congrArg Disk.number (hfollow.same i) :)
  · rw [hdisks, Disk.raidDisk_drop]
    exact (congrArg Disk.raidDisk (hfollow.same i) :)
  · obtain ⟨i, hi, hdev⟩ := hfollow.moved hnodup m hm hmv
    refine ⟨i, hi, ?_⟩
    rw [hdisks, Disk.dev_drop, hdev]
    simp only [hkept i]
  · rw [hdisks, Disk.dev_drop, hfollow.rest i hno]
    simp only [Disk.kept_congr rfl hdescNr]
  · rw [hdisks, Disk.faulty_drop, Disk.faulty_congr (hfollow.same i),
      Disk.named_congr (hfollow.same i) hdescNr, hfollow.inUse_iff hnodup, Superblock.EndsFaulty]

section

variable {f sb : Superblock} {aged disks : List Rdev}

theorem Tabled.forall_disks (h : Tabled f aged sb disks) {p : DevT × Int32 × UInt64 → Prop} :
    (∀ m ∈ disks, p m.standing) ↔ ∀ m ∈ aged, p m.standing := by
  rw [← List.forall_mem_map (P := p), h.standing, List.forall_mem_map]

theorem Tabled.exists_disks (h : Tabled f aged sb disks) {p : DevT × Int32 × UInt64 → Prop} :
    (∃ m ∈ disks, p m.standing) ↔ ∃ m ∈ aged, p m.standing := by
  have hnot := not_congr (h.forall_disks (p := fun s => ¬ p s))
  simpa using hnot

/-- No two members name the same descriptor. -/
theorem Tabled.eq_of_descIndex (h : Tabled f aged sb disks) {m m' : Rdev} {i : Fin mdSbDisks}
    (hm : m ∈ aged) (hm' : m' ∈ aged) (hi : descIndex m.descNr = some i)
    (hi' : descIndex m'.descNr = some i) : m = m' := by
  have hnodup : (aged.map Rdev.descNr).Nodup :=
    map_descNr_of_standing h.standing ▸ h.fits.2.2.1
  exact List.inj_on_of_nodup_map hnodup hm hm' (descIndex_inj hi hi')

/-- The device number in the descriptor that a member names. -/
theorem Tabled.dev_of_named (h : Tabled f aged sb disks) {m : Rdev} {i : Fin mdSbDisks}
    (hm : m ∈ aged) (hi : descIndex m.descNr = some i) :
    (sb.disks i).dev =
      if (f.disks i).Kept aged then if m.Moved f then m.dev else (f.disks i).dev else 0 := by
  by_cases hmoved : m.Moved f
  · obtain ⟨j, hj, hdev⟩ := h.moved m hm hmoved
    obtain rfl := Option.some.inj (hi.symm.trans hj)
    rw [hdev, if_pos hmoved]
  · rw [if_neg hmoved]
    refine h.rest i fun m' hm' hmoved' hi' => hmoved ?_
    rwa [h.eq_of_descIndex hm hm' hi hi']

end

end Jmd

end JRaid
