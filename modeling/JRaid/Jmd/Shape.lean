import JRaid.ForMathlib.FallibleSystem
import JRaid.Jmd.Run

/-!
# What the management functions keep

The fields of a superblock that say what the array looks like (its level, layout, chunk size,
number of disks, component size) are set by `set_array_info` and `add_new_disk` only; all else
that happens to a superblock leaves them alone. They are collected in its `shape`.

For a member the corresponding data are its device number and the offset of its superblock
(`Rdev.seat`), and its `profile`, which is all that an analysis leaves alone.
-/

namespace JRaid

namespace Jmd

/-! ### Shapes -/

/-- The fields of a superblock that only `set_array_info` and `add_new_disk` set. -/
@[ext]
structure Shape where
  mdMagic : UInt32
  mdMinor : UInt32
  level : UInt32
  size : UInt32
  raidDisks : UInt32
  notPersistent : UInt32
  layout : UInt32
  chunkSize : UInt32
  deriving DecidableEq

/-- The shape of a superblock. -/
def Superblock.shape (sb : Superblock) : Shape :=
  ⟨sb.mdMagic, sb.mdMinor, sb.level, sb.size, sb.raidDisks, sb.notPersistent, sb.layout,
    sb.chunkSize⟩

theorem Superblock.check_of_shape {sb sb' : Superblock} (h : sb.shape = sb'.shape) :
    sb.check = sb'.check := by
  have hmagic : sb.mdMagic = sb'.mdMagic := congrArg Shape.mdMagic h
  have hminor : sb.mdMinor = sb'.mdMinor := congrArg Shape.mdMinor h
  rw [check, check, hmagic, hminor]

@[simp]
theorem Superblock.shape_setDisk (sb : Superblock) (i : Fin mdSbDisks) (d : Disk) :
    (sb.setDisk i d).shape = sb.shape := rfl

@[simp]
theorem Superblock.shape_assign (sb : Superblock) (i : Fin mdSbDisks) (info : JmdDiskInfo) :
    (sb.assign i info).shape = sb.shape := rfl

@[simp]
theorem Superblock.shape_uncountEvent (sb : Superblock) : sb.uncountEvent.shape = sb.shape := by
  unfold uncountEvent
  dsimp only
  split <;> rfl

@[simp]
theorem Superblock.shape_nextPass (sb : Superblock) (seconds : UInt32) :
    (sb.nextPass seconds).shape = sb.shape := by
  obtain ⟨lo, hi, h⟩ := sb.exists_nextPass seconds
  rw [h]
  rfl

@[simp]
theorem Superblock.shape_clearClean (sb : Superblock) : sb.clearClean.shape = sb.shape := rfl

@[simp]
theorem Superblock.shape_removeDescriptor (sb : Superblock) (i : Fin mdSbDisks) :
    (sb.removeDescriptor i).shape = sb.shape := by
  unfold removeDescriptor
  dsimp only
  split
  · rfl
  · split <;> rfl

@[simp]
theorem Superblock.shape_dropDescriptor (disks : List Rdev) (sb : Superblock)
    (i : Fin mdSbDisks) : (Superblock.dropDescriptor disks sb i).shape = sb.shape := by
  unfold dropDescriptor
  dsimp only
  split_ifs <;> simp

@[simp]
theorem Superblock.shape_dropDescriptors (sb : Superblock) (disks : List Rdev) :
    (sb.dropDescriptors disks).shape = sb.shape := by
  suffices h : ∀ (l : List (Fin mdSbDisks)) (sb : Superblock),
      (l.foldl (Superblock.dropDescriptor disks) sb).shape = sb.shape from h _ sb
  intro l
  induction l with
  | nil => exact fun sb => rfl
  | cons i l ih => exact fun sb => (ih _).trans (shape_dropDescriptor disks sb i)

/-- A copy made by `sync_sbs` has the shape of the array superblock. -/
theorem Rdev.shape_syncSb (sb : Superblock) {jrdev : Rdev} (h : jrdev.faulty = false) :
    (jrdev.syncSb sb).sb.shape = sb.shape := by
  obtain ⟨d, c, hsb⟩ := jrdev.syncSb_sb sb h
  rw [hsb]
  rfl

/-! ### Seats -/

/-- Where a member sits: its device, and where its superblock lies. -/
def Rdev.seat (jrdev : Rdev) : DevT × UInt64 := (jrdev.dev, jrdev.sbOffset)

/-- What an analysis leaves alone in a member. -/
structure Profile where
  seat : DevT × UInt64
  faulty : Bool
  size : UInt64
  shape : Shape

/-- The profile of a member. -/
def Rdev.profile (jrdev : Rdev) : Profile :=
  ⟨jrdev.seat, jrdev.faulty, jrdev.size, jrdev.sb.shape⟩

@[simp]
theorem Rdev.seat_syncSb (sb : Superblock) (jrdev : Rdev) :
    (jrdev.syncSb sb).seat = jrdev.seat := by
  have h := jrdev.syncSb_same sb
  rw [seat, seat, h.dev, h.sbOffset]

theorem map_seat_syncSbs (sb : Superblock) (disks : List Rdev) :
    (syncSbs sb disks).map Rdev.seat = disks.map Rdev.seat := by
  rw [syncSbs, List.map_map]
  exact List.map_congr_left fun jrdev _ => jrdev.seat_syncSb sb

@[simp]
theorem Rdev.profile_age (jrdev : Rdev) : jrdev.age.profile = jrdev.profile := by
  unfold age
  split
  · have h := jrdev.sb.shape_uncountEvent
    rw [profile, profile, ← h]
    rfl
  · rfl

theorem map_profile_age (disks : List Rdev) :
    (disks.map Rdev.age).map Rdev.profile = disks.map Rdev.profile := by
  rw [List.map_map]
  exact List.map_congr_left fun jrdev _ => jrdev.profile_age

/-- The seats are part of the profiles. -/
theorem map_seat_of_profile {disks disks' : List Rdev}
    (h : disks'.map Rdev.profile = disks.map Rdev.profile) :
    disks'.map Rdev.seat = disks.map Rdev.seat := by
  have hseat : ∀ l : List Rdev, l.map Rdev.seat =
      (l.map Rdev.profile).map Profile.seat := by
    intro l
    rw [List.map_map]
    rfl
  rw [hseat, hseat, h]

theorem map_dev_of_seat {disks disks' : List Rdev}
    (h : disks'.map Rdev.seat = disks.map Rdev.seat) :
    disks'.map Rdev.dev = disks.map Rdev.dev := by
  have hdev : ∀ l : List Rdev, l.map Rdev.dev = (l.map Rdev.seat).map Prod.fst := by
    intro l
    rw [List.map_map]
    rfl
  rw [hdev, hdev, h]

/-! ### `analyze_sbs` -/

/-- The member with its new device number in its own copy. -/
def Rdev.renamed (jrdev : Rdev) : Rdev :=
  jrdev.withPage (jrdev.page.withSb
    { jrdev.sb with thisDisk := jrdev.sb.thisDisk.withDev jrdev.dev })

/-- **Induction along the loop that follows members.** It is left at a member, or goes on with the
member renamed or as it is. -/
theorem renamePass_induct
    {motive : Superblock → List Rdev → Bool → Superblock → List Rdev → Prop}
    (nil : ∀ sb, motive sb [] true sb [])
    (stop : ∀ sb jrdev rest, motive sb (jrdev :: rest) false sb (jrdev :: rest))
    (move : ∀ sb jrdev rest i all sb' rest', jrdev.Moved sb → descIndex jrdev.descNr = some i →
      motive (sb.setDisk i ((sb.disks i).withDev jrdev.dev)) rest all sb' rest' →
        motive sb (jrdev :: rest) all sb' (jrdev.renamed :: rest'))
    (keep : ∀ sb jrdev rest all sb' rest', ¬ jrdev.Moved sb → motive sb rest all sb' rest' →
      motive sb (jrdev :: rest) all sb' (jrdev :: rest'))
    {sb sb' : Superblock} {disks disks' : List Rdev} {all : Bool}
    (h : renamePass sb disks = .ok (all, sb', disks')) : motive sb disks all sb' disks' := by
  induction disks generalizing sb disks' with
  | nil =>
    obtain ⟨rfl, rfl, rfl⟩ : true = all ∧ sb = sb' ∧ [] = disks' := by simpa [renamePass] using h
    exact nil sb
  | cons jrdev rest ih =>
    have hstop : (Except.ok (false, sb, jrdev :: rest) : Except Fault _) =
        .ok (all, sb', disks') → motive sb (jrdev :: rest) all sb' disks' := by
      intro heq
      obtain ⟨rfl, rfl, rfl⟩ : false = all ∧ sb = sb' ∧ jrdev :: rest = disks' := by
        simpa using heq
      exact stop sb jrdev rest
    have hnext : ∀ {sb₁ : Superblock} {jrdev' : Rdev},
        (renamePass sb₁ rest).map (fun r => (r.1, r.2.1, jrdev' :: r.2.2)) =
          .ok (all, sb', disks') → ∃ rest', disks' = jrdev' :: rest' ∧
            motive sb₁ rest all sb' rest' := by
      intro sb₁ jrdev' heq
      obtain ⟨⟨all', sb₂, rest'⟩, hrest, hout⟩ := Except.exists_of_map_eq_ok heq
      obtain ⟨rfl, rfl, rfl⟩ : all' = all ∧ sb₂ = sb' ∧ jrdev' :: rest' = disks' := by
        simpa using hout
      exact ⟨rest', rfl, ih hrest⟩
    rw [renamePass] at h
    split at h
    · exact hstop h
    split at h
    · rename_i hmoved
      split at h
      · exact hstop h
      split at h
      · cases h
      rename_i i hi
      split at h
      · exact hstop h
      · obtain ⟨rest', rfl, hrest⟩ := hnext h
        exact move sb jrdev rest i all sb' rest' hmoved hi hrest
    · rename_i hmoved
      obtain ⟨rest', rfl, hrest⟩ := hnext h
      exact keep sb jrdev rest all sb' rest' hmoved hrest

/-- Following members to new device numbers keeps the shape and the profiles. -/
theorem renamePass_keeps {sb sb' : Superblock} {disks disks' : List Rdev} {all : Bool}
    (h : renamePass sb disks = .ok (all, sb', disks')) :
    sb'.shape = sb.shape ∧ disks'.map Rdev.profile = disks.map Rdev.profile := by
  refine renamePass_induct (motive := fun sb disks _ sb' disks' =>
    sb'.shape = sb.shape ∧ disks'.map Rdev.profile = disks.map Rdev.profile) ?_ ?_ ?_ ?_ h
  · exact fun _ => ⟨rfl, rfl⟩
  · exact fun _ _ _ => ⟨rfl, rfl⟩
  · rintro sb jrdev rest i _ sb' rest' - - ⟨hshape, hprofile⟩
    refine ⟨hshape, ?_⟩
    rw [List.map_cons, List.map_cons, hprofile]
    rfl
  · rintro sb jrdev rest _ sb' rest' - ⟨hshape, hprofile⟩
    exact ⟨hshape, by rw [List.map_cons, List.map_cons, hprofile]⟩

/-- What it takes for a superblock to be adopted. -/
theorem Jmddev.of_adopt {jmddev : Jmddev} {alloc : Bool} {sb : Superblock} {disks : List Rdev}
    (h : jmddev.adopt alloc = .ok (some (sb, disks))) :
    (∀ jrdev ∈ jmddev.disks, jrdev.faulty = false ∧ jrdev.checkDiskSb = 0) ∧
      ∃ f, freshest (jmddev.disks.map Rdev.age) = some f ∧ sb = f.sb ∧
        disks = jmddev.disks.map Rdev.age := by
  unfold adopt at h
  split at h
  · cases h
  rename_i hany
  split at h
  · cases h
  dsimp only at h
  split at h
  · cases h
  rename_i f hf
  obtain ⟨rfl, rfl⟩ : f.sb = sb ∧ jmddev.disks.map Rdev.age = disks := by simpa using h
  refine ⟨fun jrdev hm => ?_, f, hf, rfl, rfl⟩
  by_contra hbad
  refine hany (List.any_eq_true.mpr ⟨jrdev, hm, ?_⟩)
  cases hfaulty : jrdev.faulty with
  | true => rfl
  | false => simpa [hfaulty] using hbad

/-- **What `analyze_sbs` does**: it gives up at once, or the array gets a superblock of the shape
of the freshest one. -/
theorem Jmddev.analyzeSbs_cases {jmddev jmddev' : Jmddev} {alloc : Bool} {err : Int32}
    (h : jmddev.analyzeSbs alloc = .ok (err, jmddev')) :
    (err = 1 ∧ jmddev' = jmddev) ∨
      ∃ f sb disks, freshest (jmddev.disks.map Rdev.age) = some f ∧
        (∀ jrdev ∈ jmddev.disks, jrdev.faulty = false ∧ jrdev.checkDiskSb = 0) ∧
        sb.shape = f.sb.shape ∧ disks.map Rdev.profile = jmddev.disks.map Rdev.profile ∧
        jmddev' = { jmddev with sb := some sb, disks := disks } := by
  unfold analyzeSbs at h
  split at h
  · cases h
  · obtain ⟨rfl, rfl⟩ := Prod.mk.inj (Except.ok.inj h)
    exact Or.inl ⟨rfl, rfl⟩
  rename_i hadopt
  obtain ⟨hall, f, hf, rfl, rfl⟩ := of_adopt hadopt
  split at h
  · cases h
  · rename_i sb disks hrename
    obtain ⟨hshape, hprofile⟩ := renamePass_keeps hrename
    obtain ⟨rfl, rfl⟩ := Prod.mk.inj (Except.ok.inj h)
    exact Or.inr ⟨f, sb, disks, hf, hall, hshape, hprofile.trans (map_profile_age _), rfl⟩
  · rename_i sb disks hrename
    obtain ⟨hshape, hprofile⟩ := renamePass_keeps hrename
    obtain ⟨rfl, rfl⟩ := Prod.mk.inj (Except.ok.inj h)
    exact Or.inr ⟨f, sb.dropDescriptors disks, disks, hf, hall,
      (sb.shape_dropDescriptors disks).trans hshape, hprofile.trans (map_profile_age _), rfl⟩

/-! ### `device_size_calculation` -/

/-- The space that a device of the given size offers to an array. -/
def Shape.usableSize (shape : Shape) (d : BlockDev) : UInt64 :=
  maskChunk shape.chunkSize
    (if shape.notPersistent = 0 then mdNewSizeBlocks d.sectors else d.sectors)

/-- For a member `calc_dev_size` is that space. -/
theorem Jmddev.calcDevSize_of_mem {jmddev : Jmddev} {sb : Superblock} {dev : DevT}
    (hsb : jmddev.sb = some sb) (h : dev ∈ jmddev.disks.map Rdev.dev) :
    jmddev.calcDevSize dev (sb.notPersistent = 0) = sb.shape.usableSize (jmddev.device dev) := by
  unfold calcDevSize
  rw [hsb, jmddev.calcDevSboffset_of_mem h, Shape.usableSize]
  simp only [decide_eq_true_eq]
  rfl

/-- What does not look at the size of a member. -/
def Rdev.Sizeless {β : Type} (f : Rdev → β) : Prop :=
  ∀ (jrdev : Rdev) (size : UInt64), f { jrdev with size := size } = f jrdev

theorem Rdev.sizeless_seat : Rdev.Sizeless Rdev.seat := fun _ _ => rfl

theorem map_sizePass {β : Type} {f : Rdev → β} (hf : Rdev.Sizeless f) (size : DevT → UInt64)
    (chunkSize : UInt32) (disks : List Rdev) :
    (sizePass size chunkSize disks).2.map f = disks.map f := by
  induction disks with
  | nil => rfl
  | cons jrdev rest ih =>
    unfold sizePass
    dsimp only
    split
    · rw [List.map_cons, List.map_cons, ih]
    split
    · rw [List.map_cons, List.map_cons, hf]
    · rw [List.map_cons, List.map_cons, ih, hf]

/-- The sizes that the loop sets. -/
theorem of_mem_sizePass {size : DevT → UInt64} {chunkSize : UInt32} {disks : List Rdev}
    {jrdev : Rdev} (h : jrdev ∈ (sizePass size chunkSize disks).2) :
    jrdev ∈ disks ∨ ∃ m ∈ disks, jrdev = { m with size := size m.dev } := by
  induction disks with
  | nil => exact absurd h List.not_mem_nil
  | cons m rest ih =>
    have hrest : jrdev ∈ (sizePass size chunkSize rest).2 →
        jrdev ∈ m :: rest ∨ ∃ m' ∈ m :: rest, jrdev = { m' with size := size m'.dev } := by
      intro hmem
      obtain hmem | ⟨m', hm', heq⟩ := ih hmem
      · exact Or.inl (List.mem_cons_of_mem m hmem)
      · exact Or.inr ⟨m', List.mem_cons_of_mem m hm', heq⟩
    have hset : jrdev = { m with size := size m.dev } →
        jrdev ∈ m :: rest ∨ ∃ m' ∈ m :: rest, jrdev = { m' with size := size m'.dev } :=
      fun heq => Or.inr ⟨m, List.mem_cons_self, heq⟩
    unfold sizePass at h
    dsimp only at h
    split at h
    · obtain rfl | hmem := List.mem_cons.mp h
      · exact Or.inl List.mem_cons_self
      · exact hrest hmem
    split at h
    · obtain heq | hmem := List.mem_cons.mp h
      · exact hset heq
      · exact Or.inl (List.mem_cons_of_mem m hmem)
    · obtain heq | hmem := List.mem_cons.mp h
      · exact hset heq
      · exact hrest hmem

/-- If the loop comes to its end, no device whose size it sets is smaller than a chunk. -/
theorem le_of_sizePass {size : DevT → UInt64} {chunkSize : UInt32} {disks : List Rdev}
    (h : (sizePass size chunkSize disks).1 = true) {jrdev : Rdev} (hmem : jrdev ∈ disks)
    (hup : jrdev.faulty = false) (hsize : jrdev.size = 0) :
    (chunkSize / 512).toUInt64 ≤ size jrdev.dev := by
  induction disks with
  | nil => exact absurd hmem List.not_mem_nil
  | cons m rest ih =>
    unfold sizePass at h
    dsimp only at h
    obtain rfl | hmem := List.mem_cons.mp hmem
    · rw [if_neg (by simp [hup, hsize])] at h
      split at h
      · cases h
      · exact UInt64.not_lt.mp ‹_›
    · split at h
      · exact ih h hmem
      split at h
      · cases h
      · exact ih h hmem

theorem map_zonedJraidSize {β : Type} {f : Rdev → β} (hf : Rdev.Sizeless f) (sb : Superblock)
    (disks : List Rdev) : (zonedJraidSize sb disks).2.map f = disks.map f := by
  unfold zonedJraidSize
  dsimp only
  rw [List.map_map]
  exact List.map_congr_left fun jrdev _ => hf jrdev _

/-- **What `device_size_calculation` does.** On levels 4 and 5 it only sets sizes. -/
theorem Jmddev.deviceSizeCalculation_cases {jmddev jmddev' : Jmddev} {sb : Superblock}
    {err : Int32} (h : jmddev.deviceSizeCalculation sb = (err, jmddev')) :
    ∃ disks jmdSize, jmddev' = { jmddev with disks := disks, jmdSize := jmdSize } ∧
      (∀ {β : Type} {f : Rdev → β}, Rdev.Sizeless f → disks.map f = jmddev.disks.map f) ∧
      (sb.level = 5 → disks = (sizePass (fun dev => jmddev.calcDevSize dev
        (sb.notPersistent = 0)) sb.chunkSize jmddev.disks).2) ∧
      (err = 0 → (sizePass (fun dev => jmddev.calcDevSize dev
        (sb.notPersistent = 0)) sb.chunkSize jmddev.disks).1 = true) := by
  unfold deviceSizeCalculation at h
  dsimp only at h
  have hmap : ∀ {β : Type} {f : Rdev → β}, Rdev.Sizeless f →
      (sizePass (fun dev => jmddev.calcDevSize dev (sb.notPersistent = 0)) sb.chunkSize
        jmddev.disks).2.map f = jmddev.disks.map f :=
    fun hf => map_sizePass hf _ _ _
  split at h
  · obtain ⟨rfl, rfl⟩ := Prod.mk.inj h
    exact ⟨_, _, rfl, hmap, fun _ => rfl, fun hz => absurd hz (by decide)⟩
  rename_i hsized
  split at h
  · obtain ⟨rfl, rfl⟩ := Prod.mk.inj h
    exact ⟨_, _, rfl, hmap, fun _ => rfl, fun hz => absurd hz (by decide)⟩
  rename_i dataDisks zoned hdata
  have hdone : (sizePass (fun dev => jmddev.calcDevSize dev (sb.notPersistent = 0)) sb.chunkSize
      jmddev.disks).1 = true := by
    simpa using hsized
  -- `zoned_jraid_size` is for the linear and striped personalities
  have hlevel : sb.level = 5 → zoned = false := by
    intro hlevel
    rw [Superblock.dataDisks, hlevel] at hdata
    exact (Prod.mk.inj (Option.some.inj hdata)).2.symm
  cases zoned with
  | false =>
    simp only [Bool.false_eq_true, if_false] at h
    split at h
    · obtain ⟨rfl, rfl⟩ := Prod.mk.inj h
      exact ⟨_, _, rfl, hmap, fun _ => rfl, fun _ => hdone⟩
    · obtain ⟨rfl, rfl⟩ := Prod.mk.inj h
      exact ⟨_, _, rfl, hmap, fun _ => rfl, fun _ => hdone⟩
  | true =>
    have hno : sb.level = 5 → ∀ {p : Prop}, p := fun h5 => absurd (hlevel h5) (by decide)
    simp only [if_true] at h
    split at h
    · obtain ⟨rfl, rfl⟩ := Prod.mk.inj h
      exact ⟨_, _, rfl, fun hf => (map_zonedJraidSize hf sb _).trans (hmap hf), fun h5 => hno h5,
        fun _ => hdone⟩
    · obtain ⟨rfl, rfl⟩ := Prod.mk.inj h
      exact ⟨_, _, rfl, fun hf => (map_zonedJraidSize hf sb _).trans (hmap hf), fun h5 => hno h5,
        fun _ => hdone⟩

/-! ### `jraid5_run` -/

namespace RunState

variable {β : Type} {f : Superblock → β}

/-- A member is placed without a change to anything but the marks of its descriptor. -/
theorem map_placeMember (hf : ∀ sb i, f (sb.setDisk i (sb.disks i).markActive.markSync) = f sb)
    {st st' : RunState} {jrdev : Rdev} (h : st.placeMember jrdev = .ok st') :
    f st'.sb = f st.sb := by
  unfold placeMember at h
  split at h
  · cases h
  dsimp only at h
  split at h
  · rw [← Except.ok.inj h]
    exact hf _ _
  split at h
  · cases h
  split at h
  · rw [← Except.ok.inj h]
    exact hf _ _
  · rw [← Except.ok.inj h]
    exact hf _ _

/-- So are the members in a list. -/
theorem map_placeMembers (hf : ∀ sb i, f (sb.setDisk i (sb.disks i).markActive.markSync) = f sb)
    {st st' : RunState} {disks : List Rdev} (h : st.placeMembers disks = .ok st') :
    f st'.sb = f st.sb := by
  induction disks generalizing st with
  | nil => rw [← Except.ok.inj h]
  | cons jrdev rest ih =>
    rw [placeMembers] at h
    split at h
    · cases h
    rename_i hplace
    exact (ih h).trans (map_placeMember hf hplace)

theorem shape_placeMembers {st st' : RunState} {disks : List Rdev}
    (h : st.placeMembers disks = .ok st') : st'.sb.shape = st.sb.shape :=
  map_placeMembers (fun _ _ => rfl) h

theorem sb_placeFaulty {st st' : RunState} {i : Fin mdSbDisks}
    (h : st.placeFaulty i = .ok st') : st'.sb = st.sb := by
  unfold placeFaulty at h
  dsimp only at h
  split at h
  · split at h
    · cases h
    split at h
    · rw [← Except.ok.inj h]
    · rw [← Except.ok.inj h]
  · rw [← Except.ok.inj h]

theorem sb_placeAllFaulty {st st' : RunState} {l : List (Fin mdSbDisks)}
    (h : st.placeAllFaulty l = .ok st') : st'.sb = st.sb := by
  induction l generalizing st with
  | nil => rw [← Except.ok.inj h]
  | cons i rest ih =>
    rw [placeAllFaulty] at h
    split at h
    · cases h
    rename_i hplace
    exact (ih h).trans (sb_placeFaulty hplace)

theorem shape_markInSync {st st' : RunState} (h : st.markInSync = .ok st') :
    st'.sb.shape = st.sb.shape := by
  unfold markInSync at h
  split at h
  · cases h
  · rw [← Except.ok.inj h]
    rfl

theorem shape_finish {st st' : RunState} {env : RunEnv} {err : Int32}
    (h : st.finish env = .ok (err, st')) : st'.sb.shape = st.sb.shape := by
  -- on the way the bit `MD_SB_CLEAN` may be cleared
  have hclean : ∀ p : Prop, ∀ [Decidable p],
      (if p then { st with sb := st.sb.clearClean } else st).sb.shape = st.sb.shape := by
    intro p _
    split <;> rfl
  unfold finish at h
  dsimp only at h
  split at h
  · rw [← (Prod.mk.inj (Except.ok.inj h)).2]
  split at h
  · rw [← (Prod.mk.inj (Except.ok.inj h)).2]
  split at h
  · rw [← (Prod.mk.inj (Except.ok.inj h)).2]
  split at h
  · rw [← (Prod.mk.inj (Except.ok.inj h)).2]
    exact hclean _
  split at h
  · rw [← (Prod.mk.inj (Except.ok.inj h)).2]
    exact hclean _
  split at h
  · cases h
  rename_i hmark
  have hshape := (shape_markInSync hmark).trans (hclean _)
  split at h
  · rw [← (Prod.mk.inj (Except.ok.inj h)).2]
    exact hshape
  · rw [← (Prod.mk.inj (Except.ok.inj h)).2]
    exact hshape

end RunState

/-- The configuration that the fields of a shape stand for. -/
structure Shape.Configures (shape : Shape) (conf : JRaid5Conf) : Prop where
  chunkSize : conf.chunkSize = shape.chunkSize.toInt32
  level : conf.level = shape.level.toInt32
  algorithm : conf.algorithm = shape.layout.toInt32
  raidDisks : conf.raidDisks = shape.raidDisks.toInt32

/-- **What `jraid5_run` does**: it marks descriptors and, if it succeeds, takes its configuration
from the superblock. -/
theorem Jmddev.jraid5Run_cases {jmddev jmddev' : Jmddev} {sb : Superblock} {env : RunEnv}
    {err : Int32} (hsb : jmddev.sb = some sb)
    (h : jmddev.jraid5Run sb env = .ok (err, jmddev')) :
    ∃ sb' conf, jmddev' = { jmddev with sb := some sb', conf := conf } ∧ sb'.shape = sb.shape ∧
      (err = 0 → ∃ c, conf = some c ∧ sb.shape.Configures c) := by
  have hsame : jmddev = { jmddev with sb := some sb } := by rw [← hsb]
  unfold jraid5Run at h
  split at h
  · obtain ⟨rfl, rfl⟩ := Prod.mk.inj (Except.ok.inj h)
    exact ⟨sb, jmddev.conf, hsame, rfl, fun hz => absurd hz (by decide)⟩
  split at h
  · obtain ⟨rfl, rfl⟩ := Prod.mk.inj (Except.ok.inj h)
    refine ⟨sb, none, ?_, rfl, fun hz => absurd hz (by decide)⟩
    rw [← hsb]
  split at h
  · cases h
  rename_i st₁ hmembers
  split at h
  · cases h
  rename_i st₂ hfaulty
  split at h
  · cases h
  rename_i st₃ hfinish
  obtain ⟨rfl, rfl⟩ := Prod.mk.inj (Except.ok.inj h)
  have hshape : st₃.sb.shape = sb.shape := by
    rw [RunState.shape_finish hfinish, RunState.sb_placeAllFaulty hfaulty,
      RunState.shape_placeMembers hmembers]
  refine ⟨st₃.sb, _, rfl, hshape, fun hz => ⟨st₃.conf, if_pos hz, ?_⟩⟩
  rw [← hshape]
  exact ⟨rfl, rfl, rfl, rfl⟩

/-! ### `jmd_update_sb` -/

/-- **What `jmd_update_sb` keeps**: the shape, the seats, and the sizes of the devices. -/
theorem Jmddev.jmdUpdateSb_cases {jmddev jmddev' : Jmddev} {env : ℕ → PassEnv}
    {log : List SbWrite} (h : jmddev.jmdUpdateSb env = .ok (jmddev', log)) :
    ∃ sb disks device,
      jmddev' = { jmddev with sb := sb, disks := disks, device := device } ∧
        sb.map Superblock.shape = jmddev.sb.map Superblock.shape ∧
        disks.map Rdev.seat = jmddev.disks.map Rdev.seat ∧
        ∀ dev, (device dev).sectors = (jmddev.device dev).sectors := by
  refine updatePasses_induct (motive := fun s s' _ => ∃ sb disks device,
    s' = { s with sb := sb, disks := disks, device := device } ∧
      sb.map Superblock.shape = s.sb.map Superblock.shape ∧
      disks.map Rdev.seat = s.disks.map Rdev.seat ∧
      ∀ dev, (device dev).sectors = (s.device dev).sectors) ?_ ?_ ?_ h
  · exact fun s => ⟨s.sb, s.disks, s.device, rfl, rfl, rfl, fun _ => rfl⟩
  · rintro s sb seconds s' log hsb ⟨sb', disks', device', rfl, hshape, hseat, hsectors⟩
    refine ⟨sb', disks', device', rfl, hshape.trans ?_, hseat.trans ?_, hsectors⟩
    · rw [hsb]
      exact congrArg some (sb.shape_nextPass seconds)
    · exact map_seat_syncSbs _ _
  · rintro s env s' log ⟨sb', disks', device', rfl, hshape, hseat, hsectors⟩
    refine ⟨sb', disks', device', rfl, hshape, hseat, fun dev => (hsectors dev).trans ?_⟩
    exact sectors_foldl_carryOut _ _ dev

/-! ### `do_jmd_run` -/

/-- What `do_jmd_run` leaves alone. -/
structure Jmddev.Steady (s s' : Jmddev) : Prop where
  nbDev : s'.nbDev = s.nbDev
  all : s'.all = s.all
  chunkSectors : s'.chunkSectors = s.chunkSectors
  arraySectors : s'.arraySectors = s.arraySectors
  capacity : s'.capacity = s.capacity
  seat : s'.disks.map Rdev.seat = s.disks.map Rdev.seat
  sectors : ∀ dev, (s'.device dev).sectors = (s.device dev).sectors

theorem Jmddev.Steady.trans {s₁ s₂ s₃ : Jmddev} (h : s₁.Steady s₂) (h' : s₂.Steady s₃) :
    s₁.Steady s₃ :=
  ⟨h'.nbDev.trans h.nbDev, h'.all.trans h.all, h'.chunkSectors.trans h.chunkSectors,
    h'.arraySectors.trans h.arraySectors, h'.capacity.trans h.capacity, h'.seat.trans h.seat,
    fun dev => (h'.sectors dev).trans (h.sectors dev)⟩

/-- The loop of `device_size_calculation` over the members of an array. -/
def Jmddev.sizeDisks (jmddev : Jmddev) (sb : Superblock) : Bool × List Rdev :=
  sizePass (fun dev => jmddev.calcDevSize dev (sb.notPersistent = 0)) sb.chunkSize jmddev.disks

/-- How the array is started once the checks have passed. If the start fails, the members of an
array of level 5 have at most got their sizes. -/
theorem Jmddev.startPers_cases {s s' : Jmddev} {sb : Superblock} {env : RunEnv} {err : Int32}
    (hsb : s.sb = some sb) (hpers : s.pers = false) (h : s.startPers sb env = .ok (err, s')) :
    s.Steady s' ∧ (∃ sb', s'.sb = some sb' ∧ sb'.shape = sb.shape) ∧
      ((s'.pers = false ∧ (sb.level = 5 → s'.disks = (s.sizeDisks sb).2)) ∨
        (s'.pers = true ∧ (s.sizeDisks sb).1 = true ∧
          ∃ conf, s'.conf = some conf ∧ sb.shape.Configures conf)) := by
  unfold startPers at h
  dsimp only at h
  -- each of the three calls is replaced by what is known of its result
  obtain ⟨sized, hsized⟩ : ∃ r, s.deviceSizeCalculation sb = r := ⟨_, rfl⟩
  rw [hsized] at h
  obtain ⟨serr, s₁⟩ := sized
  obtain ⟨disks, jmdSize, rfl, hmap, hlevel, hdone⟩ := deviceSizeCalculation_cases hsized
  have hseat := hmap Rdev.sizeless_seat
  dsimp only at h
  split at h
  · obtain ⟨rfl, rfl⟩ := Prod.mk.inj (Except.ok.inj h)
    exact ⟨⟨rfl, rfl, rfl, rfl, rfl, hseat, fun _ => rfl⟩, ⟨sb, hsb, rfl⟩,
      Or.inl ⟨hpers, hlevel⟩⟩
  rename_i hserr
  have hserr : serr = 0 := not_not.mp hserr
  split at h
  · cases h
  rename_i rerr s₂ hrun
  obtain ⟨sb₂, conf, rfl, hshape, hconf⟩ := jraid5Run_cases (by exact hsb) hrun
  split at h
  · obtain ⟨rfl, rfl⟩ := Prod.mk.inj (Except.ok.inj h)
    exact ⟨⟨rfl, rfl, rfl, rfl, rfl, hseat, fun _ => rfl⟩, ⟨sb₂, rfl, hshape⟩,
      Or.inl ⟨rfl, hlevel⟩⟩
  rename_i hrerr
  split at h
  · cases h
  rename_i s₃ log hupdate
  obtain ⟨sb₃, disks₃, device, rfl, hshape₃, hseat₃, hsectors⟩ := jmdUpdateSb_cases hupdate
  obtain ⟨rfl, rfl⟩ := Prod.mk.inj (Except.ok.inj h)
  obtain ⟨c, hc, hconfigures⟩ := hconf (not_not.mp hrerr)
  refine ⟨⟨rfl, rfl, rfl, rfl, rfl, hseat₃.trans hseat, hsectors⟩, ?_,
    Or.inr ⟨rfl, hdone hserr, c, hc, hconfigures⟩⟩
  cases sb₃ with
  | none => cases hshape₃
  | some sb₃ =>
    refine ⟨sb₃, rfl, (Option.some.inj hshape₃).trans ?_⟩
    rw [Superblock.shape_clearClean, hshape]

/-- The profile of a member, or that profile with the size of the device filled in. -/
def Profile.Resized (shape : Shape) (device : DevT → BlockDev) (p p' : Profile) : Prop :=
  p' = p ∨ p' = { p with size := shape.usableSize (device p.seat.1) }

/-- The loop of `device_size_calculation` fills in sizes. -/
theorem Jmddev.resized_of_mem_sizeDisks {s : Jmddev} {sb : Superblock} (hsb : s.sb = some sb)
    {jrdev : Rdev} (h : jrdev ∈ (s.sizeDisks sb).2) :
    ∃ m ∈ s.disks, Profile.Resized sb.shape s.device m.profile jrdev.profile := by
  obtain hmem | ⟨m, hm, rfl⟩ := of_mem_sizePass h
  · exact ⟨jrdev, hmem, Or.inl rfl⟩
  · have hsize := calcDevSize_of_mem hsb (List.mem_map_of_mem hm)
    exact ⟨m, hm, Or.inr (congrArg (fun size => { m.profile with size := size }) hsize)⟩

/-- What `do_jmd_run` does to an array that it does not turn down at once: the superblock takes
the shape of the freshest one, `f`, and either the start fails, and the members of an array of
level 5 have at most got their sizes, or the array runs. -/
structure Jmddev.Analyzed (s s' : Jmddev) (f : Rdev) : Prop where
  nbDev : s.nbDev ≠ 0
  pers : s.pers = false
  freshest : freshest (s.disks.map Rdev.age) = some f
  checked : ∀ jrdev ∈ s.disks, jrdev.faulty = false ∧ jrdev.checkDiskSb = 0
  steady : s.Steady s'
  sb : ∃ sb, s'.sb = some sb ∧ sb.shape = f.sb.shape
  failed : s'.pers = false → f.sb.level = 5 → ∀ jrdev ∈ s'.disks, ∃ m ∈ s.disks,
    Profile.Resized f.sb.shape s.device m.profile jrdev.profile
  started : s'.pers = true →
    (∀ jrdev ∈ s.disks, jrdev.size = 0 →
      (f.sb.chunkSize / 512).toUInt64 ≤ f.sb.shape.usableSize (s.device jrdev.dev)) ∧
    ∃ conf, s'.conf = some conf ∧ f.sb.shape.Configures conf

/-- The ways in which `do_jmd_run` returns. -/
inductive Jmddev.RunOutcome (s : Jmddev) : Jmddev → Prop
  /-- there is no member, or the array runs already -/
  | refused (h : s.nbDev = 0 ∨ s.pers = true) : RunOutcome s s
  /-- `analyze_sbs` gives up at once -/
  | gaveUp (hnb : s.nbDev ≠ 0) (hpers : s.pers = false) : RunOutcome s { s with jmdSize := 0 }
  /-- a superblock is adopted -/
  | analyzed (s' : Jmddev) (f : Rdev) (h : s.Analyzed s' f) : RunOutcome s s'

/-- **How far `do_jmd_run` gets**: it refuses at once, or stops with what `analyze_sbs` has left, or
all its checks pass and the rest decides. -/
theorem Jmddev.doJmdRun_cases {s s' : Jmddev} {env : RunEnv} {err : Int32}
    (h : s.doJmdRun env = .ok (err, s')) :
    (err ≠ 0 ∧ s' = s ∧ (s.nbDev = 0 ∨ s.pers = true)) ∨
      (s.nbDev ≠ 0 ∧ s.pers = false ∧ ∃ aerr s₁,
        { s with jmdSize := 0 }.analyzeSbs env.sb = .ok (aerr, s₁) ∧
          (err ≠ 0 ∧ s' = s₁ ∨ aerr = 0 ∧ ∃ sb, s₁.sb = some sb ∧ sb.checkGeometry env = true ∧
            s₁.startPers sb env = .ok (err, s'))) := by
  unfold doJmdRun at h
  split at h
  · obtain ⟨rfl, rfl⟩ := Prod.mk.inj (Except.ok.inj h)
    exact Or.inl ⟨by decide, rfl, Or.inl ‹_›⟩
  rename_i hnb
  split at h
  · obtain ⟨rfl, rfl⟩ := Prod.mk.inj (Except.ok.inj h)
    exact Or.inl ⟨by decide, rfl, Or.inr ‹_›⟩
  rename_i hpers
  split at h
  · cases h
  rename_i aerr s₁ hanalyze
  refine Or.inr ⟨hnb, Bool.eq_false_iff.mpr hpers, aerr, s₁, hanalyze, ?_⟩
  split at h
  · obtain ⟨rfl, rfl⟩ := Prod.mk.inj (Except.ok.inj h)
    exact Or.inl ⟨by decide, rfl⟩
  rename_i haerr
  split at h
  · cases h
  rename_i sb hsb
  split at h
  · obtain ⟨rfl, rfl⟩ := Prod.mk.inj (Except.ok.inj h)
    exact Or.inl ⟨by decide, rfl⟩
  rename_i hcheck
  exact Or.inr ⟨not_not.mp haerr, sb, hsb, by simpa using hcheck, h⟩

/-- **How `do_jmd_run` ends.** -/
theorem Jmddev.runOutcome {s s' : Jmddev} {env : RunEnv} {err : Int32}
    (h : s.doJmdRun env = .ok (err, s')) : s.RunOutcome s' := by
  obtain ⟨-, rfl, hrefused⟩ | ⟨hnb, hpers, aerr, s₁, hanalyze, hrest⟩ := doJmdRun_cases h
  · exact .refused hrefused
  obtain ⟨rfl, rfl⟩ | ⟨f, sb, disks, hf, hall, hshape, hprofile, rfl⟩ :=
    analyzeSbs_cases hanalyze
  · obtain ⟨-, rfl⟩ | ⟨haerr, -⟩ := hrest
    · exact .gaveUp hnb hpers
    · exact absurd haerr (by decide)
  -- the profiles of the members are as before
  have hold : ∀ jrdev ∈ disks, ∃ m ∈ s.disks, m.profile = jrdev.profile := fun jrdev hm =>
    List.mem_map.mp (hprofile ▸ List.mem_map_of_mem hm)
  have hseat := map_seat_of_profile hprofile
  -- the start can stop right after the analysis
  have hstop : s.Analyzed { s with jmdSize := 0, sb := some sb, disks := disks } f :=
    { nbDev := hnb
      pers := hpers
      freshest := hf
      checked := hall
      steady := ⟨rfl, rfl, rfl, rfl, rfl, hseat, fun _ => rfl⟩
      sb := ⟨sb, rfl, hshape⟩
      failed := fun _ _ jrdev hm => by
        obtain ⟨m, hm', heq⟩ := hold jrdev hm
        exact ⟨m, hm', Or.inl heq.symm⟩
      started := fun hrun => absurd (hpers.symm.trans hrun) (by decide) }
  obtain ⟨-, rfl⟩ | ⟨-, sb, ⟨⟩, -, h⟩ := hrest
  · exact .analyzed _ f hstop
  obtain ⟨hsteady, ⟨sb', hsb', hshape'⟩, hend⟩ := startPers_cases (by exact rfl) (by exact hpers) h
  have hlevel : sb.level = f.sb.level := congrArg Shape.level hshape
  have hchunk : sb.chunkSize = f.sb.chunkSize := congrArg Shape.chunkSize hshape
  refine .analyzed _ f
    { nbDev := hnb
      pers := hpers
      freshest := hf
      checked := hall
      steady := hstop.steady.trans hsteady
      sb := ⟨sb', hsb', hshape'.trans hshape⟩
      failed := fun hno h5 jrdev hm => ?_
      started := fun hrun => ?_ }
  · obtain ⟨-, hdisks⟩ | ⟨hrun, -⟩ := hend
    · rw [hdisks (hlevel.trans h5)] at hm
      obtain ⟨m₁, hm₁, hresized⟩ := resized_of_mem_sizeDisks (by exact rfl) hm
      obtain ⟨m, hm', heq⟩ := hold m₁ hm₁
      exact ⟨m, hm', by rwa [hshape, ← heq] at hresized⟩
    · exact absurd (hno.symm.trans hrun) (by decide)
  · obtain ⟨hno, -⟩ | ⟨-, hdone, conf, hconf, hconfigures⟩ := hend
    · exact absurd (hno.symm.trans hrun) (by decide)
    -- the loop over the sizes came to its end, so it looked at every member without one
    refine ⟨fun jrdev hm hsize => ?_, conf, hconf, hshape ▸ hconfigures⟩
    obtain ⟨m₁, hm₁, heq⟩ : ∃ m₁ ∈ disks, m₁.profile = jrdev.profile :=
      List.mem_map.mp (hprofile.symm ▸ List.mem_map_of_mem hm)
    have hdev : m₁.dev = jrdev.dev := congrArg (fun p => p.seat.1) heq
    have hup : m₁.faulty = false := (congrArg Profile.faulty heq).trans (hall jrdev hm).1
    have hle := le_of_sizePass hdone hm₁ hup ((congrArg Profile.size heq).trans hsize)
    rw [calcDevSize_of_mem (by exact rfl) (List.mem_map_of_mem hm₁), hshape, hdev, hchunk] at hle
    exact hle

end Jmd

end JRaid
