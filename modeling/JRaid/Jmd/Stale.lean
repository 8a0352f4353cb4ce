import JRaid.Jmd.Freshest
import JRaid.Jmd.Started

/-!
# Members that have missed updates

A member whose count is more than one below that of the adopted superblock has missed updates, and
its data are old. `analyze_sbs` compares the counts of the members with the adopted one in a loop of
its own, but the loop does nothing with the result, and `jraid5_run` looks at the descriptors only.
So such a member is taken as in sync whenever it gets a slot of the array: see `stale_iff`.
-/

namespace JRaid

namespace Jmd

/-! ### Slots before and after the analysis -/

section

variable {f sb : Superblock} {aged disks : List Rdev}

/-- The analysis does not change which member belongs where. -/
theorem Tabled.map_occupant (h : Tabled f aged sb disks) {disks' : List Rdev}
    (hsame : disks'.map Rdev.standing = disks.map Rdev.standing) (k : Fin mdSbDisks) :
    (sb.occupant disks' k).map Rdev.standing = (f.occupant aged k).map Rdev.standing := by
  have hslot : ∀ m, sb.slotOf m = f.slotOf m := by
    intro m
    have hraid : sb.raidDisks = f.raidDisks := congrArg Shape.raidDisks h.shape
    simp only [Superblock.slotOf, hraid, h.raidDisk]
  have hmap := FirstClaim.map_holder Rdev.standing fun s : DevT × Int32 × UInt64 =>
    (descIndex s.2.1).bind fun i =>
      if f.raidDisks < (f.disks i).raidDisk then none
      else descIndex (f.disks i).raidDisk.toInt32
  rw [Superblock.occupant, show sb.slotOf = f.slotOf from funext hslot]
  exact (hmap disks' k).trans ((congrArg (fun l => FirstClaim.holder _ l k)
    (hsame.trans h.standing)).trans (hmap aged k).symm)

/-- What holds of the member in each slot, as far as its standing shows it. -/
theorem Tabled.forall_occupant (h : Tabled f aged sb disks) {disks' : List Rdev}
    (hsame : disks'.map Rdev.standing = disks.map Rdev.standing)
    {p : Fin mdSbDisks → DevT × Int32 × UInt64 → Prop} :
    (∀ k m, sb.occupant disks' k = some m → p k m.standing) ↔
      ∀ k m, f.occupant aged k = some m → p k m.standing := by
  have hmap : ∀ (o : Option Rdev) k, (∀ m, o = some m → p k m.standing) ↔
      ∀ s, o.map Rdev.standing = some s → p k s := by
    intro o k
    cases o with
    | none => simp
    | some m => simp
  exact forall_congr' fun k => by rw [hmap, hmap, h.map_occupant hsame]

theorem Tabled.inSlot_iff (h : Tabled f aged sb disks) {disks' : List Rdev}
    (hsame : disks'.map Rdev.standing = disks.map Rdev.standing) (i k : Fin mdSbDisks) :
    sb.InSlot disks' i k ↔ f.InSlot aged i k := by
  have hnot := not_congr (h.forall_occupant hsame (p := fun k' s =>
    ¬ (k' = k ∧ descIndex s.2.1 = some i)))
  have hiff : ∀ (sb : Superblock) (l : List Rdev), sb.InSlot l i k ↔
      ¬ ∀ k' m, sb.occupant l k' = some m → ¬ (k' = k ∧ descIndex m.descNr = some i) := by
    intro sb l
    rw [Superblock.InSlot]
    constructor
    · rintro ⟨m, hm, hi⟩ hno
      exact hno k m hm ⟨rfl, hi⟩
    · intro hex
      by_contra hno
      exact hex fun k' m hm hi => hno ⟨m, hi.1 ▸ hm, hi.2⟩
  rw [hiff, hiff]
  exact hnot

end

/-! ### When the members in sync are up to date -/

/-- A member that has missed updates gets no slot of the array. If it gets the one past the end,
its number is not that of a member in front of it. -/
def Superblock.ShutsOut (f : Superblock) (aged : List Rdev) : Prop :=
  ∀ k m, f.occupant aged k = some m → m.sb.event.toNat + 1 < f.event.toNat →
    ¬ (k : ℕ) < f.raidDisks.toNat ∧
      ∀ i i' k' : Fin mdSbDisks, descIndex m.descNr = some i → f.InSlot aged i' k' →
        (k' : ℕ) < f.raidDisks.toNat → (f.disks i).number ≠ (f.disks i').number

/-- **What it means to shut the others out**: if just the descriptors whose number is that of a
descriptor in a data slot are in sync, their members are up to date. -/
theorem Superblock.shutsOut_iff {f : Superblock} {aged : List Rdev} {sync : Fin mdSbDisks → Prop}
    (hsync : ∀ i, sync i ↔ ∃ i' k : Fin mdSbDisks, f.InSlot aged i' k ∧
      (k : ℕ) < f.raidDisks.toNat ∧ (f.disks i).number = (f.disks i').number) :
    (∀ k m, f.occupant aged k = some m → ∀ i, descIndex m.descNr = some i → sync i →
      f.event.toNat - 1 ≤ m.sb.event.toNat) ↔ f.ShutsOut aged := by
  refine forall₃_congr fun k m hm => ?_
  constructor
  · intro hup hold
    obtain ⟨i, hi, -⟩ := Superblock.slotOf_eq_some_iff.mp (FirstClaim.key_of_holder hm)
    refine ⟨fun hk => ?_, fun j i' k' hj hin hk' hnumber => ?_⟩
    · have hle := hup i hi ((hsync i).mpr ⟨i, k, ⟨m, hm, hi⟩, hk, rfl⟩)
      omega
    · have hle := hup j hj ((hsync j).mpr ⟨i', k', hin, hk', hnumber⟩)
      omega
  · intro hout i hi hmark
    by_contra hno
    obtain ⟨i', k', hin, hk', hnumber⟩ := (hsync i).mp hmark
    exact (hout (by omega)).2 i i' k' hi hin hk' hnumber

/-- **When the members in sync are up to date.** -/
theorem stale_iff {s s₁ s₂ s₃ : Jmddev} {alloc : Bool} {env : RunEnv} {sb : Superblock}
    (hanalyze : s.analyzeSbs alloc = .ok (0, s₁)) (hsb : s₁.sb = some sb)
    (hsize : s₁.deviceSizeCalculation sb = (0, s₂))
    (hrun : s₂.jraid5Run sb env = .ok (0, s₃)) :
    ∃ f st, freshest (s.disks.map Rdev.age) = some f ∧ s₂.runState sb env = .ok (0, st) ∧
      s₃.sb = some st.sb ∧
      (s₂.disks.map fun m => m.sb.event.toNat) = s.disks.map Rdev.adjustedEvent ∧
      ((∀ k i m, (st.slots k).operational = true → sb.occupant s₂.disks k = some m →
          descIndex m.descNr = some i → (st.sb.disks i).sync = true →
            sb.event.toNat - 1 ≤ m.sb.event.toNat) ↔ f.sb.ShutsOut (s.disks.map Rdev.age)) := by
  obtain ⟨f, sb', hf, hsb', -, ht⟩ := Jmddev.tabled hanalyze
  obtain rfl : sb' = sb := Option.some.inj (hsb'.symm.trans hsb)
  obtain ⟨st, hst, hsb₃, -⟩ := Jmddev.exists_runState hrun
  obtain ⟨disks, jmdSize, rfl, hmap, -, -⟩ := Jmddev.deviceSizeCalculation_cases hsize
  have hsame : disks.map Rdev.standing = s₁.disks.map Rdev.standing := hmap fun _ _ => rfl
  have hs := Jmddev.seated hst
  have hraid : sb'.raidDisks = f.sb.raidDisks := congrArg Shape.raidDisks ht.shape
  have hsync : ∀ i, (st.sb.disks i).sync = true ↔ ∃ i' k : Fin mdSbDisks,
      f.sb.InSlot (s.disks.map Rdev.age) i' k ∧ (k : ℕ) < f.sb.raidDisks.toNat ∧
        (f.sb.disks i).number = (f.sb.disks i').number := by
    intro i
    rw [hs.sync i, hraid]
    simp only [ht.inSlot_iff hsame, ht.number]
  refine ⟨f, st, hf, hst, hsb₃, ?_, ?_⟩
  · have hevent : ∀ l : List Rdev, (l.map fun m => m.sb.event.toNat) =
        (l.map Rdev.standing).map fun s => s.2.2.toNat := by
      intro l
      rw [List.map_map]
      rfl
    rw [hevent, hsame, ht.standing, ← hevent, List.map_map]
    exact List.map_congr_left fun m _ => m.toNat_event_age
  · -- a slot with a member is operational, so this need not be said
    have hleft : (∀ k i m, (st.slots k).operational = true → sb'.occupant disks k = some m →
          descIndex m.descNr = some i → (st.sb.disks i).sync = true →
            sb'.event.toNat - 1 ≤ m.sb.event.toNat) ↔
        ∀ k m, sb'.occupant disks k = some m → ∀ i, descIndex m.descNr = some i →
          (st.sb.disks i).sync = true → sb'.event.toNat - 1 ≤ m.sb.event.toNat := by
      constructor
      · intro h k m hm i hi
        exact h k i m (by rw [hs.operational, hm]; rfl) hm hi
      · intro h k i m _ hm hi
        exact h k m hm i hi
    rw [hleft]
    refine (ht.forall_occupant hsame (p := fun k s => ∀ i, descIndex s.2.1 = some i →
      (st.sb.disks i).sync = true → sb'.event.toNat - 1 ≤ s.2.2.toNat)).trans ?_
    rw [ht.event]
    exact Superblock.shutsOut_iff hsync

/-- A superblock of an array of the devices 1 and 2 that has counted `events` events. -/
def countedSb (events : UInt32) : Superblock :=
  { twoSb 2 1 with
    mdMagic := mdSbMagic
    eventsLo := events
    disks := fun i => match (i : ℕ) with
      | 0 => { Disk.zero with minor := 1 }
      | 1 => { Disk.zero with number := 1, minor := 2, raidDisk := 1 }
      | _ => Disk.zero }

/-- A member with this superblock, whose checksum is right. -/
def countedRdev (events : UInt32) (dev : DevT) (descNr : Int32) : Rdev :=
  ⟨dev, dev, 0, (zeroPage.withSb { countedSb events with
    thisDisk := { Disk.zero with number := descNr.toUInt32, minor := dev } }).storeCsum,
    true, 0, false, descNr⟩

/-- An array of two members, the first of which has counted `events` events, and the second none. -/
def countedPair (events : UInt32) : Jmddev :=
  { Jmddev.fresh fun _ => ⟨384, by decide, fun _ => 0⟩ with
    nbDev := 2
    disks := [countedRdev events 1 0, countedRdev 0 2 1] }

theorem countedRdev_age (events : UInt32) (dev : DevT) (descNr : Int32) :
    (countedRdev events dev descNr).age = countedRdev events dev descNr :=
  Rdev.age_of_verifies (SbPage.calcSbCsum_storeCsum _)

theorem countedPair_adopt : (countedPair 5).adopt true =
    .ok (some ((countedRdev 5 1 0).sb, (countedPair 5).disks)) := by
  have hage : (countedPair 5).disks.map Rdev.age = (countedPair 5).disks := by
    change [(countedRdev 5 1 0).age, (countedRdev 0 2 1).age] = _
    rw [countedRdev_age, countedRdev_age]
    rfl
  have hfresh : freshest (countedPair 5).disks = some (countedRdev 5 1 0) := by
    change (if (countedRdev 5 1 0).sb.event < (countedRdev 0 2 1).sb.event then
      some (countedRdev 0 2 1) else some (countedRdev 5 1 0)) = _
    exact if_neg (by decide)
  have hall : ∀ m ∈ (countedPair 5).disks, m.faulty = false ∧ m.checkDiskSb = 0 := by
    intro m hm
    rcases List.mem_pair.mp hm with rfl | rfl
    · exact ⟨rfl, rfl⟩
    · exact ⟨rfl, rfl⟩
  have halloc : allocArraySb (countedPair 5).sb true ≠ none := by
    simp [allocArraySb, countedPair, Jmddev.fresh]
  obtain ⟨f, -, hf, hadopt⟩ := Jmddev.exists_adopt (List.cons_ne_nil _ _) hall halloc
  rw [hage, hfresh] at hf
  rw [hadopt, hage, ← Option.some.inj hf]

/-- The start of this array, as far as it can be shown by evaluation. -/
theorem countedPair_started : (((countedPair 5).analyzeSbs true).toOption.map fun r =>
    (r.1, r.2.sb.bind fun sb =>
      ((r.2.deviceSizeCalculation sb).2.runState sb runAll).toOption.map fun q =>
        (sb.level, (r.2.deviceSizeCalculation sb).1, q.1))) = some (0, some (5, 0, 0)) := by
  rw [Jmddev.analyzeSbs, countedPair_adopt]
  decide +kernel

theorem countedPair_run : ∃ s₁ s₂ s₃ sb st, (countedPair 5).analyzeSbs true = .ok (0, s₁) ∧
    s₁.sb = some sb ∧ s₁.deviceSizeCalculation sb = (0, s₂) ∧
      s₂.runState sb runAll = .ok (0, st) ∧ s₂.jraid5Run sb runAll = .ok (0, s₃) := by
  obtain ⟨⟨err, s₁⟩, hanalyze, hstart⟩ := Except.exists_of_toOption_map countedPair_started
  simp only [Prod.mk.injEq, Option.bind_eq_some_iff, Option.map_eq_some_iff] at hstart
  obtain ⟨rfl, sb, hsb, ⟨err, st⟩, hrun, hlevel, hsize, rfl⟩ := hstart
  have hst : (s₁.deviceSizeCalculation sb).2.runState sb runAll = .ok (0, st) := by
    cases hstate : (s₁.deviceSizeCalculation sb).2.runState sb runAll with
    | error f => simp [hstate, Except.toOption] at hrun
    | ok q => simpa [hstate, Except.toOption] using hrun
  obtain ⟨s₃, hdone⟩ := Jmddev.exists_jraid5Run (Or.inl hlevel) rfl rfl hst
  exact ⟨s₁, _, s₃, sb, st, hanalyze, hsb, Prod.ext hsize rfl, hst, hdone⟩

theorem stale_iff_pair : ∃ s₁ s₂ s₃ sb f st, (countedPair 5).analyzeSbs true = .ok (0, s₁) ∧
    s₁.deviceSizeCalculation sb = (0, s₂) ∧ s₂.jraid5Run sb runAll = .ok (0, s₃) ∧
      freshest ((countedPair 5).disks.map Rdev.age) = some f ∧
      s₂.runState sb runAll = .ok (0, st) ∧
      ((∀ k i m, (st.slots k).operational = true → sb.occupant s₂.disks k = some m →
        descIndex m.descNr = some i → (st.sb.disks i).sync = true →
          sb.event.toNat - 1 ≤ m.sb.event.toNat) ↔
        f.sb.ShutsOut ((countedPair 5).disks.map Rdev.age)) := by
  obtain ⟨s₁, s₂, s₃, sb, -, hanalyze, hsb, hsize, -, hdone⟩ := countedPair_run
  obtain ⟨f, st, hf, hst, -, -, hiff⟩ := stale_iff hanalyze hsb hsize hdone
  exact ⟨s₁, s₂, s₃, sb, f, st, hanalyze, hsize, hdone, hf, hst, hiff⟩

/-- The slot of the second member. -/
def secondSlot : Fin mdSbDisks := ⟨1, by decide⟩

theorem countedPair_slot : ((countedPair 5).analyzeSbs true).toOption.bind (fun r =>
    r.2.sb.bind fun sb =>
      ((r.2.deviceSizeCalculation sb).2.runState sb runAll).toOption.bind fun q =>
        (sb.occupant (r.2.deviceSizeCalculation sb).2.disks secondSlot).map fun m =>
          ((q.2.slots secondSlot).operational, (q.2.sb.disks secondSlot).sync, m.descNr,
            m.sb.event, sb.event)) = some (true, true, 1, 0, 5) := by
  rw [Jmddev.analyzeSbs, countedPair_adopt]
  decide +kernel

/-- Its second member has missed five updates and is in sync. -/
theorem stale_member_in_sync : ∃ s₁ s₂ s₃ sb st,
    (countedPair 5).analyzeSbs true = .ok (0, s₁) ∧ s₁.sb = some sb ∧
      s₁.deviceSizeCalculation sb = (0, s₂) ∧ s₂.jraid5Run sb runAll = .ok (0, s₃) ∧
      s₂.runState sb runAll = .ok (0, st) ∧ ∃ k i m, (st.slots k).operational = true ∧
        sb.occupant s₂.disks k = some m ∧ descIndex m.descNr = some i ∧
        (st.sb.disks i).sync = true ∧ m.sb.event.toNat < sb.event.toNat - 1 := by
  obtain ⟨s₁, s₂, s₃, sb, st, hanalyze, hsb, hsize, hst, hdone⟩ := countedPair_run
  have hshow := countedPair_slot
  rw [hanalyze] at hshow
  simp only [Except.toOption, Option.bind_some, hsb, hsize, hst, Option.map_eq_some_iff,
    Prod.mk.injEq] at hshow
  obtain ⟨m, hm, hop, hsync, hnr, hold, hnew⟩ := hshow
  refine ⟨s₁, s₂, s₃, sb, st, hanalyze, hsb, hsize, hdone, hst, secondSlot, secondSlot, m, hop,
    hm, ?_, hsync, ?_⟩
  · rw [hnr]
    decide
  · rw [hold, hnew]
    decide

end Jmd

end JRaid
