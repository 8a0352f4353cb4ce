import JRaid.Jmd.Descriptors
import JRaid.Jmd.Persistence
import JRaid.Jmd.Table

/-!
# When the table matches the members

An array whose analysis succeeds should have a table in which the members and the descriptors in
use are matched one to one. The last checks of `analyze_sbs` do not see to this: they want each
device number in the table to be that of some member, but not of the member whose `desc_nr` names
the descriptor. The table matches exactly if the freshest superblock already fits the members, up to
those that are followed (`consistent_iff`); a member that is out of date, or whose own copy knows
its new device number, is not.
-/

namespace JRaid

namespace Jmd

/-! ### When the table matches the members -/

/-- The members and the descriptors in use are matched one to one. -/
structure Superblock.Consistent (sb : Superblock) (disks : List Rdev) : Prop where
  owned : ∀ jrdev ∈ disks, sb.Owned jrdev
  descNr : (disks.map Rdev.descNr).Nodup
  dev : (disks.map Rdev.dev).Nodup
  used : ∀ i, (sb.disks i).dev ≠ 0 → (sb.disks i).faulty = false ∧
    ∃! jrdev, jrdev ∈ disks ∧ descIndex jrdev.descNr = some i

/-- What the freshest superblock and the members have to be like: the descriptor that a member
names is kept and carries the device number of the member, unless the member is followed; and a
descriptor that is kept and in use is named by a member. -/
structure Superblock.Matches (f : Superblock) (aged : List Rdev) : Prop where
  names : ∀ m ∈ aged, ∃ i, descIndex m.descNr = some i ∧
    if (f.disks i).Kept aged then m.Moved f ∨ (f.disks i).dev = m.dev else m.dev = 0
  named : ∀ i, (f.disks i).Kept aged → (f.disks i).dev ≠ 0 →
    ∃ m ∈ aged, descIndex m.descNr = some i

section

variable {f sb : Superblock} {aged disks : List Rdev}

/-- The descriptor that a member names carries its device number. -/
theorem Tabled.dev_eq_iff (h : Tabled f aged sb disks) {m : Rdev} {i : Fin mdSbDisks}
    (hm : m ∈ aged) (hi : descIndex m.descNr = some i) : (sb.disks i).dev = m.dev ↔
      if (f.disks i).Kept aged then m.Moved f ∨ (f.disks i).dev = m.dev else m.dev = 0 := by
  rw [h.dev_of_named hm hi]
  by_cases hkept : (f.disks i).Kept aged
  · rw [if_pos hkept, if_pos hkept]
    by_cases hmoved : m.Moved f
    · rw [if_pos hmoved]
      exact iff_of_true rfl (Or.inl hmoved)
    · rw [if_neg hmoved, or_iff_right hmoved]
  · rw [if_neg hkept, if_neg hkept, eq_comm]

/-- A descriptor that nobody names keeps its device number. -/
theorem Tabled.dev_of_not_named (h : Tabled f aged sb disks) {i : Fin mdSbDisks}
    (hno : ¬ ∃ m ∈ aged, descIndex m.descNr = some i) :
    (sb.disks i).dev = if (f.disks i).Kept aged then (f.disks i).dev else 0 :=
  h.rest i fun m hm _ hi => hno ⟨m, hm, hi⟩

end

/-- **When `analyze_sbs` leaves a consistent table.** -/
theorem consistent_iff {jmddev jmddev' : Jmddev} {alloc : Bool}
    (h : jmddev.analyzeSbs alloc = .ok (0, jmddev')) :
    ∃ f sb, freshest (jmddev.disks.map Rdev.age) = some f ∧ jmddev'.sb = some sb ∧
      (sb.Consistent jmddev'.disks ↔ f.sb.Matches (jmddev.disks.map Rdev.age)) := by
  obtain ⟨f, sb, hf, hsb, -, ht⟩ := Jmddev.tabled h
  refine ⟨f, sb, hf, hsb, ?_⟩
  have howned : (∀ jrdev ∈ jmddev'.disks, sb.Owned jrdev) ↔
      ∀ m ∈ jmddev.disks.map Rdev.age, sb.Owned m :=
    ht.forall_disks (p := fun s => ∃ i, descIndex s.2.1 = some i ∧ (sb.disks i).dev = s.1)
  have hnamed : ∀ i, (∃ jrdev ∈ jmddev'.disks, descIndex jrdev.descNr = some i) ↔
      ∃ m ∈ jmddev.disks.map Rdev.age, descIndex m.descNr = some i :=
    fun i => ht.exists_disks (p := fun s => descIndex s.2.1 = some i)
  constructor
  · intro hc
    refine ⟨fun m hm => ?_, fun i hkept hdev => ?_⟩
    · obtain ⟨i, hi, hdev⟩ := howned.mp hc.owned m hm
      exact ⟨i, hi, (ht.dev_eq_iff hm hi).mp hdev⟩
    · by_contra hno
      have hrest := ht.dev_of_not_named hno
      rw [if_pos hkept] at hrest
      have huse : (sb.disks i).dev ≠ 0 := by
        rw [hrest]
        exact hdev
      obtain ⟨m, hm, -⟩ := (hc.used i huse).2
      exact hno ((hnamed i).mp ⟨m, hm⟩)
  · intro hm
    refine ⟨howned.mpr fun m hmem => ?_, ht.fits.2.2.1, ht.fits.2.2.2.1, fun i hdev => ?_⟩
    · obtain ⟨i, hi, hcase⟩ := hm.names m hmem
      exact ⟨i, hi, (ht.dev_eq_iff hmem hi).mpr hcase⟩
    · have hexists : ∃ m ∈ jmddev.disks.map Rdev.age, descIndex m.descNr = some i := by
        by_contra hno
        have hrest := ht.dev_of_not_named hno
        split at hrest
        · rename_i hkept
          rw [hrest] at hdev
          exact hno (hm.named i hkept hdev)
        · exact hdev hrest
      obtain ⟨m, hmem, hi⟩ := (hnamed i).mpr hexists
      refine ⟨(ht.fits.1 i hdev).1, m, ⟨hmem, hi⟩, fun m' hm' => ?_⟩
      exact List.inj_on_of_nodup_map ht.fits.2.2.1 hm'.1 hmem (descIndex_inj hm'.2 hi)

/-! ### Two members that have been exchanged -/

/-- A superblock with three descriptors in use, for the devices 1, 3 and 4. -/
def threeSb : Superblock :=
  { Superblock.zero with
    mdMagic := mdSbMagic
    disks := fun i => match (i : ℕ) with
      | 0 => { Disk.zero with minor := 1 }
      | 1 => { Disk.zero with number := 1, minor := 3 }
      | 2 => { Disk.zero with number := 2, minor := 4 }
      | _ => Disk.zero }

/-- A member with this superblock, on the device `dev` and by its own copy on `oldDev`. -/
def threeRdev (dev oldDev : DevT) (descNr : Int32) : Rdev :=
  { Rdev.fresh dev (zeroPage.withSb { threeSb with
      thisDisk := { Disk.zero with number := descNr.toUInt32, minor := oldDev } }) with
    oldDev := oldDev
    descNr := descNr }

/-- An array of three members, of which the second and the third have changed places. Their own
copies say that they were on the devices `old` and `old'`. -/
def exchanged (old old' : DevT) : Jmddev :=
  { Jmddev.fresh (fun _ => smallDev) with
    nbDev := 3
    disks := [threeRdev 1 1 0, threeRdev 4 old 1, threeRdev 3 old' 2] }

theorem consistent_iff_exchanged : ∃ jmddev',
    (exchanged 3 4).analyzeSbs true = .ok (0, jmddev') ∧
      ∃ f sb, freshest ((exchanged 3 4).disks.map Rdev.age) = some f ∧ jmddev'.sb = some sb ∧
        (sb.Consistent jmddev'.disks ↔ f.sb.Matches ((exchanged 3 4).disks.map Rdev.age)) := by
  obtain ⟨jmddev', hrun⟩ : ∃ s, (exchanged 3 4).analyzeSbs true = .ok (0, s) :=
    Except.exists_of_toOption_fst (by decide +kernel)
  exact ⟨jmddev', hrun, consistent_iff hrun⟩

/-- If their own copies know already, they are not followed, and each names the descriptor of the
other. -/
theorem exchanged_inconsistent : ∃ jmddev' sb,
    (exchanged 4 3).analyzeSbs true = .ok (0, jmddev') ∧ jmddev'.sb = some sb ∧
      ¬ sb.Consistent jmddev'.disks := by
  obtain ⟨⟨err, jmddev'⟩, hrun, hshow⟩ : ∃ r, (exchanged 4 3).analyzeSbs true = .ok r ∧
      (r.1, r.2.disks.map fun m => (m.dev, m.descNr),
        r.2.sb.map fun sb => (sb.disks ⟨1, by decide⟩).dev) =
      (0, [(1, 0), (4, 1), (3, 2)], some 3) := Except.exists_of_toOption_map (by decide +kernel)
  simp only [Prod.mk.injEq, Option.map_eq_some_iff] at hshow
  obtain ⟨rfl, hdisks, sb, hsb, hdev⟩ := hshow
  refine ⟨jmddev', sb, hrun, hsb, fun hc => ?_⟩
  have hmem : ((4, 1) : DevT × Int32) ∈ jmddev'.disks.map fun m => (m.dev, m.descNr) := by
    rw [hdisks]
    exact List.mem_cons_of_mem _ List.mem_cons_self
  obtain ⟨m, hm, heq⟩ := List.mem_map.mp hmem
  obtain ⟨hmdev, hmnr⟩ := Prod.mk.inj heq
  obtain ⟨i, hi, hidev⟩ := hc.owned m hm
  rw [hmnr, descIndex_eq_some_iff] at hi
  obtain rfl : i = ⟨1, by decide⟩ := Fin.ext hi.symm
  rw [hdev, hmdev] at hidev
  exact absurd hidev (by decide)

end Jmd

end JRaid
