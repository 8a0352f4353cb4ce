import JRaid.Jmd.Crash
import JRaid.Jmd.Table

/-!
# The freshest superblock

`analyze_sbs` goes over the members once. It sets the counter of a member whose checksum is wrong
back by one, in place and over two words, and keeps the member with the largest counter so far.
What it adopts has the largest count when each member is counted as it should be
(`Rdev.adjustedEvent`), and a superblock whose checksum is wrong does not win over one that verifies
and has counted as many events: `adopted_is_freshest`.
-/

namespace JRaid

namespace Jmd

/-! ### Counters that are set back -/

/-- The counter goes back by one. -/
theorem Superblock.toNat_event_uncountEvent {sb : Superblock}
    (h : sb.eventsLo ≠ 0 ∨ sb.eventsHi ≠ 0) :
    sb.uncountEvent.event.toNat = sb.event.toNat - 1 := by
  rw [toNat_event, toNat_event, uncountEvent]
  dsimp only
  have hlo := sb.eventsLo.toNat_lt
  by_cases hzero : sb.eventsLo = 0
  · have hhi : sb.eventsHi ≠ 0 := h.resolve_left (not_not.mpr hzero)
    have hpos : 0 < sb.eventsHi.toNat :=
      Nat.pos_of_ne_zero fun h0 => hhi (UInt32.toNat_inj.mp h0)
    have hsub : (sb.eventsHi - 1).toNat = sb.eventsHi.toNat - 1 :=
      UInt32.toNat_sub_of_le _ _ (UInt32.le_iff_toNat_le.mpr hpos)
    rw [if_pos hzero]
    dsimp only
    rw [hsub, hzero]
    change (sb.eventsHi.toNat - 1) * 2 ^ 32 + (2 ^ 32 - 1) = sb.eventsHi.toNat * 2 ^ 32 + 0 - 1
    omega
  · have hpos : 0 < sb.eventsLo.toNat :=
      Nat.pos_of_ne_zero fun h0 => hzero (UInt32.toNat_inj.mp h0)
    have hsub : (sb.eventsLo - 1).toNat = sb.eventsLo.toNat - 1 :=
      UInt32.toNat_sub_of_le _ _ (UInt32.le_iff_toNat_le.mpr hpos)
    rw [if_neg hzero]
    dsimp only
    rw [hsub]
    omega

theorem Superblock.event_eq_zero_iff (sb : Superblock) :
    sb.event.toNat = 0 ↔ sb.eventsLo = 0 ∧ sb.eventsHi = 0 := by
  rw [toNat_event, ← UInt32.toNat_inj, ← UInt32.toNat_inj, UInt32.toNat_zero]
  omega

/-- The count of a member as `analyze_sbs` compares it: the stored count, less one if the checksum
is wrong. -/
def Rdev.adjustedEvent (jrdev : Rdev) : ℕ :=
  if jrdev.page.calcSbCsum = jrdev.sb.sbCsum then jrdev.sb.event.toNat
  else jrdev.sb.event.toNat - 1

theorem Rdev.toNat_event_age (jrdev : Rdev) : jrdev.age.sb.event.toNat = jrdev.adjustedEvent := by
  rw [adjustedEvent]
  by_cases hcsum : jrdev.page.calcSbCsum = jrdev.sb.sbCsum
  · rw [age_of_verifies hcsum, if_pos hcsum]
  rw [if_neg hcsum]
  by_cases hpos : jrdev.sb.eventsLo ≠ 0 ∨ jrdev.sb.eventsHi ≠ 0
  · rw [age, if_pos ⟨hpos, hcsum⟩]
    exact Superblock.toNat_event_uncountEvent hpos
  · have hzero : jrdev.sb.event.toNat = 0 := by
      rw [Superblock.event_eq_zero_iff]
      exact ⟨not_not.mp fun h => hpos (Or.inl h), not_not.mp fun h => hpos (Or.inr h)⟩
    rw [age, if_neg fun h => hpos h.1, hzero]

/-- The checksum of the member is right. -/
def Rdev.Verifies (jrdev : Rdev) : Prop := jrdev.page.calcSbCsum = jrdev.sb.sbCsum

theorem Rdev.adjustedEvent_of_verifies {jrdev : Rdev} (h : jrdev.Verifies) :
    jrdev.adjustedEvent = jrdev.sb.event.toNat := if_pos h

theorem Rdev.adjustedEvent_of_not_verifies {jrdev : Rdev} (h : ¬ jrdev.Verifies) :
    jrdev.adjustedEvent = jrdev.sb.event.toNat - 1 := if_neg h

/-! ### The rest of the analysis -/

theorem event_renamePass {sb sb' : Superblock} {disks disks' : List Rdev} {all : Bool}
    (h : renamePass sb disks = .ok (all, sb', disks')) : sb'.event = sb.event := by
  refine renamePass_induct (motive := fun sb _ _ sb' _ => sb'.event = sb.event) ?_ ?_ ?_ ?_ h
  · exact fun _ => rfl
  · exact fun _ _ _ => rfl
  · exact fun _ _ _ _ _ _ _ _ _ ih => ih
  · exact fun _ _ _ _ _ _ _ ih => ih

/-- After a superblock has been adopted its counter does not change. -/
theorem Jmddev.event_analyzeSbs {jmddev jmddev' : Jmddev} {alloc : Bool} {err : Int32}
    {sb : Superblock} {disks : List Rdev} (hadopt : jmddev.adopt alloc = .ok (some (sb, disks)))
    (h : jmddev.analyzeSbs alloc = .ok (err, jmddev')) :
    ∃ sb', jmddev'.sb = some sb' ∧ sb'.event = sb.event := by
  rw [analyzeSbs, hadopt] at h
  dsimp only at h
  split at h
  · cases h
  · rename_i sb₁ disks₁ hrename
    obtain ⟨-, rfl⟩ := Prod.mk.inj (Except.ok.inj h)
    exact ⟨sb₁, rfl, event_renamePass hrename⟩
  · rename_i sb₁ disks₁ hrename
    obtain ⟨-, rfl⟩ := Prod.mk.inj (Except.ok.inj h)
    exact ⟨_, rfl, (sb₁.dropDescriptors_spec disks₁).2.trans (event_renamePass hrename)⟩

/-! ### What is adopted -/

/-- Without members that are turned down, a superblock is adopted from one of them. -/
theorem Jmddev.exists_adopt {jmddev : Jmddev} {alloc : Bool} (hne : jmddev.disks ≠ [])
    (hall : ∀ m ∈ jmddev.disks, m.faulty = false ∧ m.checkDiskSb = 0)
    (halloc : allocArraySb jmddev.sb alloc ≠ none) :
    ∃ f ∈ jmddev.disks, freshest (jmddev.disks.map Rdev.age) = some f.age ∧
      jmddev.adopt alloc = .ok (some (f.age.sb, jmddev.disks.map Rdev.age)) := by
  have hgood : ¬ (jmddev.disks.any fun jrdev =>
      jrdev.faulty || jrdev.checkDiskSb != 0) = true := by
    rw [List.any_eq_true]
    rintro ⟨m, hm, hbad⟩
    simp [(hall m hm).1, (hall m hm).2] at hbad
  obtain ⟨array, harray⟩ := Option.ne_none_iff_exists'.mp halloc
  obtain ⟨f', hf'⟩ : ∃ f', freshest (jmddev.disks.map Rdev.age) = some f' := by
    refine Option.ne_none_iff_exists'.mp fun hnone => hne ?_
    rw [freshest_eq_argmax] at hnone
    exact List.map_eq_nil_iff.mp (List.argmax_eq_none.mp hnone)
  obtain ⟨f, hf, rfl⟩ := List.mem_map.mp (mem_of_freshest hf')
  refine ⟨f, hf, hf', ?_⟩
  rw [adopt, if_neg hgood, harray]
  simp only [hf']

/-- **The superblock that `analyze_sbs` adopts** is the freshest, and it verifies if one that does
has counted at least as many events as any. -/
theorem adopted_is_freshest (jmddev : Jmddev) (alloc : Bool) (hne : jmddev.disks ≠ []) :
    (jmddev.adopt alloc = .ok none ∧
        ((∃ m ∈ jmddev.disks, m.faulty = true ∨ m.checkDiskSb ≠ 0) ∨
          allocArraySb jmddev.sb alloc = none)) ∨
      ∃ f ∈ jmddev.disks, jmddev.adopt alloc =
          .ok (some (f.age.sb, jmddev.disks.map Rdev.age)) ∧
        f.age.sb.event.toNat = f.adjustedEvent ∧
        (∀ m ∈ jmddev.disks, m.adjustedEvent ≤ f.adjustedEvent) ∧
        (∀ g ∈ jmddev.disks, g.Verifies → 0 < g.sb.event.toNat →
          (∀ m ∈ jmddev.disks, m.sb.event.toNat ≤ g.sb.event.toNat) → f.Verifies) ∧
        ∀ err jmddev', jmddev.analyzeSbs alloc = .ok (err, jmddev') →
          ∃ sb, jmddev'.sb = some sb ∧ sb.event = f.age.sb.event := by
  by_cases hbad : ∃ m ∈ jmddev.disks, m.faulty = true ∨ m.checkDiskSb ≠ 0
  · refine Or.inl ⟨if_pos (List.any_eq_true.mpr ?_), Or.inl hbad⟩
    obtain ⟨m, hm, hbad⟩ := hbad
    exact ⟨m, hm, by simpa using hbad⟩
  have hall : ∀ m ∈ jmddev.disks, m.faulty = false ∧ m.checkDiskSb = 0 := by
    intro m hm
    refine ⟨Bool.eq_false_iff.mpr fun h => hbad ⟨m, hm, Or.inl h⟩, ?_⟩
    exact not_not.mp fun h => hbad ⟨m, hm, Or.inr h⟩
  by_cases halloc : allocArraySb jmddev.sb alloc = none
  · refine Or.inl ⟨?_, Or.inr halloc⟩
    rw [Jmddev.adopt, halloc]
    split <;> rfl
  obtain ⟨f, hf, hfresh, hadopt⟩ := Jmddev.exists_adopt hne hall halloc
  have hle : ∀ m ∈ jmddev.disks, m.adjustedEvent ≤ f.adjustedEvent := by
    intro m hm
    have h := event_le_of_freshest hfresh (List.mem_map_of_mem hm)
    rwa [Rdev.toNat_event_age, Rdev.toNat_event_age] at h
  refine Or.inr ⟨f, hf, hadopt, f.toNat_event_age, hle, fun g hg hverifies hpos hmax => ?_,
    fun err jmddev' h => Jmddev.event_analyzeSbs hadopt h⟩
  by_contra hno
  -- the adopted count would be below that of `g`
  have hgf := hle g hg
  rw [Rdev.adjustedEvent_of_verifies hverifies] at hgf
  have hfg := hmax f hf
  rw [Rdev.adjustedEvent_of_not_verifies hno] at hgf
  omega

theorem adopted_is_freshest_pair :
    (settledPair.adopt true = .ok none ∧
        ((∃ m ∈ settledPair.disks, m.faulty = true ∨ m.checkDiskSb ≠ 0) ∨
          allocArraySb settledPair.sb true = none)) ∨
      ∃ f ∈ settledPair.disks, settledPair.adopt true =
          .ok (some (f.age.sb, settledPair.disks.map Rdev.age)) ∧
        f.age.sb.event.toNat = f.adjustedEvent ∧
        (∀ m ∈ settledPair.disks, m.adjustedEvent ≤ f.adjustedEvent) ∧
        (∀ g ∈ settledPair.disks, g.Verifies → 0 < g.sb.event.toNat →
          (∀ m ∈ settledPair.disks, m.sb.event.toNat ≤ g.sb.event.toNat) → f.Verifies) ∧
        ∀ err jmddev', settledPair.analyzeSbs true = .ok (err, jmddev') →
          ∃ sb, jmddev'.sb = some sb ∧ sb.event = f.age.sb.event :=
  adopted_is_freshest settledPair true (List.cons_ne_nil _ _)

end Jmd

end JRaid
