import JRaid.Jmd.AnalyzeSbs
import JRaid.Jmd.Persistence
import Mathlib.Data.List.Perm.Basic

/-!
# A crash during an update

A pass of `jmd_update_sb` counts an event and builds a new superblock for each member that is
not faulty (`Jmddev.syncPass`). After a crash some members hold the new one and the others the
old one, and when the array is assembled again the members may be bound in any order.

`analyze_sbs` then adopts a new superblock if one is left, and an old one otherwise
(`adopt_after_crash`): a new copy verifies, so its counter is not set back, and it exceeds
the old one by one, also where the low word overflows.
-/

namespace JRaid

namespace Jmd

/-! ### Counting an event -/

/-- **The counter goes up by one**, until it has reached its largest value. -/
theorem Superblock.toNat_event_countEvent (sb : Superblock) :
    sb.countEvent.event.toNat = min (sb.event.toNat + 1) (2 ^ 64 - 1) := by
  have hlo := sb.eventsLo.toNat_lt
  have hhi := sb.eventsHi.toNat_lt
  have hlo' : (sb.eventsLo + 1).toNat = (sb.eventsLo.toNat + 1) % 2 ^ 32 := by
    rw [UInt32.toNat_add, UInt32.toNat_one]
  have hhi' : (sb.eventsHi + 1).toNat = (sb.eventsHi.toNat + 1) % 2 ^ 32 := by
    rw [UInt32.toNat_add, UInt32.toNat_one]
  unfold countEvent
  dsimp only
  by_cases hcarry : sb.eventsLo + 1 = 0
  · -- the low word overflows
    have hzero : (sb.eventsLo + 1).toNat = 0 := by rw [hcarry, UInt32.toNat_zero]
    rw [if_pos hcarry]
    dsimp only
    by_cases htop : sb.eventsHi + 1 = 0
    · have hzero' : (sb.eventsHi + 1).toNat = 0 := by rw [htop, UInt32.toNat_zero]
      have hmax : (0xffffffff : UInt32).toNat = 2 ^ 32 - 1 := by decide
      rw [if_pos (UInt32.or_eq_zero_iff.mpr ⟨hcarry, htop⟩), toNat_event, toNat_event]
      dsimp only
      rw [hmax]
      clear hmax
      omega
    · have hne : (sb.eventsHi + 1).toNat ≠ 0 := fun h =>
        htop (UInt32.toNat_inj.mp (h.trans UInt32.toNat_zero.symm))
      rw [if_neg fun h => htop (UInt32.or_eq_zero_iff.mp h).2, toNat_event, toNat_event]
      dsimp only
      omega
  · have hne : (sb.eventsLo + 1).toNat ≠ 0 := fun h =>
      hcarry (UInt32.toNat_inj.mp (h.trans UInt32.toNat_zero.symm))
    rw [if_neg hcarry]
    dsimp only
    rw [if_neg fun h => hcarry (UInt32.or_eq_zero_iff.mp h).1, toNat_event, toNat_event]
    dsimp only
    omega

theorem Superblock.toNat_event_nextPass (sb : Superblock) (seconds : UInt32) :
    (sb.nextPass seconds).event.toNat = min (sb.event.toNat + 1) (2 ^ 64 - 1) :=
  toNat_event_countEvent _

/-! ### What a crash leaves -/

/-- The members that are not faulty. -/
def Jmddev.upDisks (jmddev : Jmddev) : List Rdev := jmddev.disks.filter fun jrdev => !jrdev.faulty

/-- What a member holds after the crash: the copy of the new superblock that `sync_sbs` made, or
the superblock it had. -/
def crashPage (built : Superblock) (kept : Bool) (jrdev : Rdev) : SbPage :=
  if kept then (jrdev.syncSb built).page else jrdev.page

/-- The members of `disks` are those of `jmddev` that are not faulty, bound again in any order;
`kept` tells which of them hold a copy of `built`. -/
structure AfterCrash (jmddev : Jmddev) (built : Superblock) (kept : List Bool)
    (disks : List Rdev) : Prop where
  length : kept.length = jmddev.upDisks.length
  pages : (disks.map Rdev.page).Perm (List.zipWith (crashPage built) kept jmddev.upDisks)
  up : ∀ jrdev ∈ disks, jrdev.faulty = false

/-- The superblocks before the update: they are plausible, verify, and have counted `e` events. -/
def Jmddev.Settled (jmddev : Jmddev) (e : ℕ) : Prop :=
  ∀ jrdev ∈ jmddev.upDisks, jrdev.checkDiskSb = 0 ∧
    jrdev.page.calcSbCsum = jrdev.sb.sbCsum ∧ jrdev.sb.event.toNat = e

namespace AfterCrash

variable {jmddev : Jmddev} {built : Superblock} {kept : List Bool} {disks : List Rdev}

/-- Each member holds an old or a new superblock. -/
theorem exists_page (h : AfterCrash jmddev built kept disks) {jrdev : Rdev}
    (hmem : jrdev ∈ disks) :
    ∃ k ∈ kept, ∃ m ∈ jmddev.upDisks, jrdev.page = crashPage built k m := by
  have hpage := h.pages.mem_iff.mp (List.mem_map_of_mem hmem)
  obtain ⟨i, hi, hget⟩ := List.mem_iff_getElem.mp hpage
  rw [List.length_zipWith] at hi
  rw [List.getElem_zipWith] at hget
  exact ⟨_, List.getElem_mem _, _, List.getElem_mem _, hget.symm⟩

/-- If a member kept its new superblock, it is found among those bound again. -/
theorem exists_new (h : AfterCrash jmddev built kept disks) (hkept : true ∈ kept) :
    ∃ jrdev ∈ disks, ∃ m ∈ jmddev.upDisks, jrdev.page = (m.syncSb built).page := by
  obtain ⟨i, hi, hget⟩ := List.mem_iff_getElem.mp hkept
  have hi' : i < jmddev.upDisks.length := h.length ▸ hi
  have hlen : i < (List.zipWith (crashPage built) kept jmddev.upDisks).length := by
    rw [List.length_zipWith]
    exact lt_min hi hi'
  have hpage := h.pages.mem_iff.mpr (List.getElem_mem hlen)
  obtain ⟨jrdev, hmem, heq⟩ := List.mem_map.mp hpage
  refine ⟨jrdev, hmem, _, List.getElem_mem hi', heq.trans ?_⟩
  rw [List.getElem_zipWith, hget, crashPage, if_pos rfl]

/-- There are as many members as before. -/
theorem ne_nil (h : AfterCrash jmddev built kept disks) (hne : jmddev.upDisks ≠ []) :
    disks ≠ [] := by
  rintro rfl
  have hlen := h.pages.length_eq
  rw [List.map_nil, List.length_nil, List.length_zipWith, h.length, min_self] at hlen
  exact hne (List.length_eq_zero_iff.mp hlen.symm)

end AfterCrash

/-! ### What is adopted -/

/-- A new copy is plausible if the array superblock is, verifies, and has its counter. -/
theorem Rdev.syncSb_settled (built : Superblock) {m : Rdev} (hm : m.faulty = false) :
    (m.syncSb built).sb.check = built.check ∧ (m.syncSb built).sb.event = built.event := by
  obtain ⟨d, c, hsb⟩ := m.syncSb_sb built hm
  rw [hsb]
  exact ⟨rfl, rfl⟩

theorem Jmddev.faulty_of_mem_upDisks {jmddev : Jmddev} {m : Rdev} (hm : m ∈ jmddev.upDisks) :
    m.faulty = false := by
  simpa using (List.mem_filter.mp hm).2

/-- A member passes the checks and verifies after the crash; its superblock is an old one or a
copy of the new one. -/
theorem AfterCrash.settled {jmddev : Jmddev} {built : Superblock} {kept : List Bool}
    {disks : List Rdev} {e : ℕ} (h : AfterCrash jmddev built kept disks)
    (hsettled : jmddev.Settled e) (hcheck : built.check = 0) {jrdev : Rdev}
    (hmem : jrdev ∈ disks) :
    (jrdev.checkDiskSb = 0 ∧ jrdev.page.calcSbCsum = jrdev.sb.sbCsum) ∧
      ((jrdev.sb.event.toNat = e ∧ ∃ m ∈ jmddev.upDisks, jrdev.sb = m.sb) ∨
        (true ∈ kept ∧ jrdev.sb.event = built.event ∧
          ∃ d c, jrdev.sb = { built with thisDisk := d, sbCsum := c })) := by
  obtain ⟨k, hk, m, hm, hpage⟩ := h.exists_page hmem
  have hup := Jmddev.faulty_of_mem_upDisks hm
  -- whether the member `m` kept the copy of the pass
  cases k with
  | false =>
    have hsb : jrdev.sb = m.sb := congrArg SbPage.sb hpage
    obtain ⟨hold, hcsum, hev⟩ := hsettled m hm
    exact ⟨⟨by rwa [Rdev.checkDiskSb, hsb], by rwa [hpage, hsb]⟩, Or.inl ⟨by rwa [hsb], m, hm, hsb⟩⟩
  | true =>
    have hsb : jrdev.sb = (m.syncSb built).sb := congrArg SbPage.sb hpage
    obtain ⟨hnewcheck, hnewev⟩ := m.syncSb_settled built hup
    refine ⟨⟨?_, ?_⟩, Or.inr ⟨hk, ?_, ?_⟩⟩
    · rw [Rdev.checkDiskSb, hsb, hnewcheck, hcheck]
    · rw [hsb, hpage]
      exact m.syncSb_verifies _ hup
    · rw [hsb, hnewev]
    · obtain ⟨d, c, heq⟩ := m.syncSb_sb built hup
      exact ⟨d, c, hsb.trans heq⟩

/-- If all members pass the checks and verify, the scan runs over the superblocks as they are. -/
theorem Jmddev.adopt_of_verifies {jmddev : Jmddev} {alloc : Bool}
    (hall : ∀ jrdev ∈ jmddev.disks, jrdev.faulty = false ∧ jrdev.checkDiskSb = 0 ∧
      jrdev.page.calcSbCsum = jrdev.sb.sbCsum)
    (hne : jmddev.disks ≠ []) (halloc : (allocArraySb jmddev.sb alloc).isSome) :
    ∃ f, freshest jmddev.disks = some f ∧
      jmddev.adopt alloc = .ok (some (f.sb, jmddev.disks)) := by
  have hgood : ¬ (jmddev.disks.any fun jrdev =>
      jrdev.faulty || jrdev.checkDiskSb != 0) = true := by
    rw [List.any_eq_true]
    rintro ⟨jrdev, hmem, hbad⟩
    obtain ⟨hup, hcheck, -⟩ := hall jrdev hmem
    simp [hup, hcheck] at hbad
  have hage : jmddev.disks.map Rdev.age = jmddev.disks :=
    (List.map_congr_left fun jrdev hmem =>
      Rdev.age_of_verifies (hall jrdev hmem).2.2).trans (List.map_id _)
  obtain ⟨array, harray⟩ := Option.isSome_iff_exists.mp halloc
  obtain ⟨f, hf⟩ : ∃ f, freshest jmddev.disks = some f := by
    refine Option.ne_none_iff_exists'.mp fun hnone => hne ?_
    rw [freshest_eq_argmax] at hnone
    exact List.argmax_eq_none.mp hnone
  refine ⟨f, hf, ?_⟩
  rw [adopt, if_neg hgood, harray]
  simp only [hage, hf]

/-- **Crash consistency of an update.** The array superblock `sb` and those of the members that
are not faulty have counted `e` events. After a crash in the pass that builds the next one,
`analyze_sbs` adopts the new superblock if a member kept it, and an old one otherwise. -/
theorem adopt_after_crash {jmddev assembled : Jmddev} {sb : Superblock} {seconds : UInt32}
    {kept : List Bool} {e : ℕ} {alloc : Bool} (hcheck : sb.check = 0)
    (hevent : sb.event.toNat = e) (he : e < 2 ^ 64 - 1) (hsettled : jmddev.Settled e)
    (hne : jmddev.upDisks ≠ [])
    (hcrash : AfterCrash jmddev (sb.nextPass seconds) kept assembled.disks)
    (halloc : (allocArraySb assembled.sb alloc).isSome) :
    ∃ adopted disks, assembled.adopt alloc = .ok (some (adopted, disks)) ∧
      (true ∈ kept → adopted.event.toNat = e + 1 ∧
        ∃ d c, adopted = { sb.nextPass seconds with thisDisk := d, sbCsum := c }) ∧
      (true ∉ kept → adopted.event.toNat = e ∧ ∃ m ∈ jmddev.upDisks, adopted = m.sb) := by
  have hbuilt : (sb.nextPass seconds).event.toNat = e + 1 := by
    rw [Superblock.toNat_event_nextPass, hevent]
    omega
  have hbcheck : (sb.nextPass seconds).check = 0 := by
    obtain ⟨lo, hi, heq⟩ := sb.exists_nextPass seconds
    rw [heq]
    exact hcheck
  have hcases := fun jrdev (hmem : jrdev ∈ assembled.disks) =>
    hcrash.settled hsettled hbcheck hmem
  obtain ⟨f, hf, hadopt⟩ := Jmddev.adopt_of_verifies
    (fun jrdev hmem => ⟨hcrash.up jrdev hmem, (hcases jrdev hmem).1⟩) (hcrash.ne_nil hne) halloc
  refine ⟨f.sb, assembled.disks, hadopt, fun hkept => ?_, fun hkept => ?_⟩
  · -- the adopted counter is at least that of a new copy
    obtain ⟨jrdev, hmem, m, hm, hpage⟩ := hcrash.exists_new hkept
    have hle := event_le_of_freshest hf hmem
    have hsb : jrdev.sb = (m.syncSb (sb.nextPass seconds)).sb := congrArg SbPage.sb hpage
    rw [hsb, (m.syncSb_settled _ (Jmddev.faulty_of_mem_upDisks hm)).2, hbuilt] at hle
    rcases (hcases f (mem_of_freshest hf)).2 with ⟨hev, -⟩ | ⟨-, hev, hnew⟩
    · omega
    · exact ⟨by rw [hev, hbuilt], hnew⟩
  · rcases (hcases f (mem_of_freshest hf)).2 with hold | ⟨hyes, -⟩
    · exact hold
    · exact absurd hyes hkept

/-- A superblock that verifies and has counted no event. -/
def settledPage : SbPage :=
  (zeroPage.withSb { Superblock.zero with mdMagic := mdSbMagic }).storeCsum

/-- Two members with that superblock. -/
def settledPair : Jmddev :=
  { oneMember smallDev settledPage with
    disks := [oneRdev smallDev settledPage, { oneRdev smallDev settledPage with dev := 2 }] }

/-- The first keeps the new superblock; the second is bound last. -/
def crashedPair : Jmddev :=
  { settledPair with
    disks := [{ oneRdev smallDev settledPage with dev := 2 },
      (oneRdev smallDev settledPage).syncSb oneSb] }

theorem adopt_after_crash_pair : ∃ adopted disks,
    crashedPair.adopt true = .ok (some (adopted, disks)) ∧
      (true ∈ [true, false] → adopted.event.toNat = 0 + 1 ∧
        ∃ d c, adopted = { oneSb with thisDisk := d, sbCsum := c }) ∧
      (true ∉ [true, false] → adopted.event.toNat = 0 ∧
        ∃ m ∈ settledPair.upDisks, adopted = m.sb) := by
  refine @adopt_after_crash settledPair crashedPair { Superblock.zero with mdMagic := mdSbMagic }
    0 [true, false] 0 true rfl rfl (by decide) ?_ (List.cons_ne_nil _ _) ?_ rfl
  · intro m hm
    have hverifies := SbPage.calcSbCsum_storeCsum
      (zeroPage.withSb { Superblock.zero with mdMagic := mdSbMagic })
    rcases List.mem_pair.mp (List.mem_of_mem_filter hm) with rfl | rfl
    · exact ⟨rfl, hverifies, rfl⟩
    · exact ⟨rfl, hverifies, rfl⟩
  · refine ⟨rfl, List.Perm.swap _ _ [], fun m hm => ?_⟩
    rcases List.mem_pair.mp hm with rfl | rfl
    · rfl
    · rfl

end Jmd

end JRaid
