import JRaid.ForMathlib.IntervalList
import JRaid.Stripe.AddStripeBio

/-!
# Request lists are ordered and disjoint

The walk of `__add_stripe_bio` is the one of `IntervalList`, on the sectors from `bi_sector`
up to `bi_sector + (bi_size >> 9)`. So on a list that is in the order of `bi_sector` and whose
bios have no sector in common, it rejects a bio exactly where that bio meets a queued one, and
leaves such a list again where it accepts it (`addStripeBio_ordered`).

The end of a bio is a `sector_t`. A bio covers a sector if its end lies past its start: it has
a sector, and it ends before sector `2 ^ 64` (`Bio.lt_sectorEnd_iff`), as the block layer makes
sure when it compares a bio with the capacity of the device.
-/

namespace JRaid

variable {N : ℕ} {τ : Type}

/-! ### The sectors of a bio -/

/-- The sectors from `bi_sector` on, `bi_size >> 9` of them. -/
def Bio.range (b : Bio) : Set ℕ :=
  Set.Ico b.biSector.toNat (b.biSector.toNat + b.sectors.toNat)

/-- A bio covers a sector if it is at least one sector long and does not run past the last
`sector_t`. -/
theorem Bio.lt_sectorEnd_iff (b : Bio) : b.biSector < b.sectorEnd ↔
    1 ≤ b.sectors.toNat ∧ b.biSector.toNat + b.sectors.toNat < 2 ^ 64 := by
  have hstart := b.biSector.toNat_lt
  have hsize := b.sectors.toNat_lt
  rw [UInt64.lt_iff_toNat_lt, sectorEnd, UInt64.toNat_add]
  omega

/-- A bio does not run past the last `sector_t`. -/
theorem Bio.le_sectorEnd_iff (b : Bio) :
    b.biSector ≤ b.sectorEnd ↔ b.biSector.toNat + b.sectors.toNat < 2 ^ 64 := by
  have hstart := b.biSector.toNat_lt
  have hsize := b.sectors.toNat_lt
  rw [UInt64.le_iff_toNat_le, sectorEnd, UInt64.toNat_add]
  omega

/-- The range of a bio that does not run past the last `sector_t`; it may be empty. -/
theorem Bio.range_eq {b : Bio} (h : b.biSector ≤ b.sectorEnd) :
    b.range = Set.Ico b.biSector.toNat b.sectorEnd.toNat := by
  rw [range, sectorEnd, UInt64.toNat_add, Nat.mod_eq_of_lt (b.le_sectorEnd_iff.mp h)]

section

variable (bio : τ → Bio)

/-- The bios are in the order of `bi_sector`, and no two of them have a sector in common. -/
structure Ordered (l : List τ) : Prop where
  sorted : l.Pairwise fun a b => (bio a).biSector ≤ (bio b).biSector
  disjoint : l.Pairwise fun a b => Disjoint (bio a).range (bio b).range

/-- The walk of `__add_stripe_bio` is the walk along intervals. -/
theorem insertBio_eq_place (bi : τ) (l : List τ) :
    insertBio bio bi l = IntervalList.place (fun b => (bio b).biSector.toNat)
      (fun b => (bio b).sectorEnd.toNat) bi l := by
  induction l with
  | nil => rfl
  | cons b l ih =>
    rw [insertBio, IntervalList.place, ih]
    simp only [UInt64.lt_iff_toNat_lt, gt_iff_lt]

end

variable {bio : τ → Bio} {bi : τ} {l l' : List τ}

theorem ordered_iff_laid (h : ∀ b ∈ l, (bio b).biSector < (bio b).sectorEnd) :
    Ordered bio l ↔ IntervalList.Laid (fun b => (bio b).biSector.toNat)
      (fun b => (bio b).sectorEnd.toNat) l := by
  have hrange : (l.Pairwise fun a b => Disjoint (bio a).range (bio b).range) ↔
      l.Pairwise fun a b =>
        Disjoint (Set.Ico (bio a).biSector.toNat (bio a).sectorEnd.toNat)
          (Set.Ico (bio b).biSector.toNat (bio b).sectorEnd.toNat) :=
    List.Pairwise.iff_of_mem fun {a b} ha hb => by
      rw [Bio.range_eq (UInt64.le_of_lt (h a ha)), Bio.range_eq (UInt64.le_of_lt (h b hb))]
  exact ⟨fun ho => ⟨ho.sorted.imp UInt64.le_iff_toNat_le.mp, hrange.mp ho.disjoint⟩,
    fun hl => ⟨hl.sorted.imp UInt64.le_iff_toNat_le.mpr, hrange.mpr hl.disjoint⟩⟩

/-- **What the walk does to an ordered list.** -/
theorem insertBio_spec (hnew : (bio bi).biSector < (bio bi).sectorEnd)
    (hold : ∀ b ∈ l, (bio b).biSector < (bio b).sectorEnd) (h : Ordered bio l) :
    (insertBio bio bi l = none ↔ ∃ b ∈ l, ¬Disjoint (bio b).range (bio bi).range) ∧
      ∀ l', insertBio bio bi l = some l' → l'.Perm (bi :: l) ∧ Ordered bio l' := by
  have hlaid := (ordered_iff_laid hold).mp h
  have hx := UInt64.lt_iff_toNat_lt.mp hnew
  have hne := fun b hb => UInt64.lt_iff_toNat_lt.mp (hold b hb)
  rw [insertBio_eq_place]
  constructor
  · rw [IntervalList.place_eq_none_iff hx hne hlaid]
    refine exists_congr fun b => and_congr_right fun hb => ?_
    rw [Bio.range_eq (UInt64.le_of_lt (hold b hb)), Bio.range_eq (UInt64.le_of_lt hnew)]
  · intro l' hl'
    have hperm := IntervalList.perm_of_place hl'
    refine ⟨hperm, (ordered_iff_laid fun b hb => ?_).mpr
      (IntervalList.laid_of_place hx hne hlaid hl')⟩
    obtain rfl | hb := List.mem_cons.mp (hperm.mem_iff.mp hb)
    · exact hnew
    · exact hold b hb

/-! ### The lists of the devices -/

namespace Cache

/-- `toread` or `towrite` of a device of a stripe. -/
def requests (c : Cache N τ) (sh : Fin N) (i : ℕ) (rw : Dir) : List τ :=
  ((c.stripe sh).dev i).queue rw

variable (c : Cache N τ) (sh : Fin N) (ddIdx : ℕ) (rw : Dir)

/-- `__add_stripe_bio` changes nothing but its device. -/
theorem dev_addStripeBio (sh' : Fin N) (i : ℕ) :
    ((c.addStripeBio bio sh bi ddIdx rw).2.stripe sh').dev i =
      if sh' = sh ∧ i = ddIdx then (((c.stripe sh).dev ddIdx).addBio bio bi rw).2
      else (c.stripe sh').dev i :=
  dev_modifyDev c sh ddIdx (fun d => (d.addBio bio bi rw).2) sh' i

theorem requests_addStripeBio (rw' : Dir) :
    (c.addStripeBio bio sh bi ddIdx rw).2.requests sh ddIdx rw' =
      (((c.stripe sh).dev ddIdx).addBio bio bi rw).2.queue rw' := by
  rw [requests, dev_addStripeBio, if_pos ⟨rfl, rfl⟩]

/-- A rejected bio sets `R5_Overlap` and nothing else. -/
theorem addStripeBio_of_rejected (h : (c.addStripeBio bio sh bi ddIdx rw).1 = false) :
    (c.addStripeBio bio sh bi ddIdx rw).2 = c.modifyDev sh ddIdx fun d =>
      { d with flags := { d.flags with overlap := true } } := by
  have hnone : insertBio bio bi (((c.stripe sh).dev ddIdx).queue rw) = none :=
    (((c.stripe sh).dev ddIdx).addBio_eq_false_iff bio bi rw).mp h
  have hdev : (((c.stripe sh).dev ddIdx).addBio bio bi rw).2 =
      { (c.stripe sh).dev ddIdx with
        flags := { ((c.stripe sh).dev ddIdx).flags with overlap := true } } := by
    rw [R5dev.addBio, hnone]
  rw [addStripeBio, modifyDev, modifyDev, modify, modify]
  dsimp only
  rw [hdev]

/-- **Ordered, disjoint request lists.** On a list in the order of `bi_sector` whose bios have no
sector in common, `__add_stripe_bio` returns 0 exactly if the new bio has a sector in common
with a queued one; then only `R5_Overlap` changes. Otherwise the bio joins the list, which stays
ordered and disjoint. The other list of the device and all other devices are left alone. -/
theorem addStripeBio_ordered (hnew : (bio bi).biSector < (bio bi).sectorEnd)
    (hold : ∀ b ∈ c.requests sh ddIdx rw, (bio b).biSector < (bio b).sectorEnd)
    (h : Ordered bio (c.requests sh ddIdx rw)) :
    let r := c.addStripeBio bio sh bi ddIdx rw
    (r.1 = false ↔ ∃ b ∈ c.requests sh ddIdx rw, ¬Disjoint (bio b).range (bio bi).range) ∧
      (r.1 = false → r.2 = c.modifyDev sh ddIdx fun d =>
        { d with flags := { d.flags with overlap := true } }) ∧
      (r.1 = true → (r.2.requests sh ddIdx rw).Perm (bi :: c.requests sh ddIdx rw) ∧
        Ordered bio (r.2.requests sh ddIdx rw)) ∧
      (∀ rw', rw' ≠ rw → r.2.requests sh ddIdx rw' = c.requests sh ddIdx rw') ∧
      ∀ sh' i, sh' ≠ sh ∨ i ≠ ddIdx → (r.2.stripe sh').dev i = (c.stripe sh').dev i := by
  obtain ⟨hnone, hsome⟩ := insertBio_spec hnew hold h
  refine ⟨?_, addStripeBio_of_rejected c sh ddIdx rw, fun hacc => ?_, fun rw' hrw => ?_,
    fun sh' i hne => ?_⟩
  · exact (((c.stripe sh).dev ddIdx).addBio_eq_false_iff bio bi rw).trans hnone
  · rw [requests_addStripeBio]
    obtain ⟨-, hrej, -⟩ | ⟨l, hl, -, hq⟩ := ((c.stripe sh).dev ddIdx).queue_addBio bio bi rw rw
    · exact absurd (hrej.symm.trans hacc) Bool.false_ne_true
    · rw [hq, if_pos rfl]
      exact hsome l hl
  · rw [requests_addStripeBio]
    obtain ⟨hq, -⟩ | ⟨l, -, -, hq⟩ := ((c.stripe sh).dev ddIdx).queue_addBio bio bi rw rw'
    · exact hq
    · rw [hq, if_neg hrw]
      rfl
  · rw [dev_addStripeBio, if_neg fun heq => hne.elim (· heq.1) (· heq.2)]

/-- A queued write of the second page of a device, and a write of the first. -/
theorem addStripeBio_ordered_two_pages :
    let bio : Bool → Bio := fun b => ⟨if b then 0 else 8, 4096, .write⟩
    let c : Cache 1 Bool := Cache.empty.modifyDev 0 0 fun d => { d with towrite := [false] }
    let r := c.addStripeBio bio 0 true 0 .write
    (r.2.requests 0 0 .write).Perm [true, false] ∧ Ordered bio (r.2.requests 0 0 .write) := by
  intro bio c r
  have hq : c.requests 0 0 .write = [false] := by decide
  have hord : Ordered bio (c.requests 0 0 .write) := by
    rw [hq]
    exact ⟨List.pairwise_singleton _ _, List.pairwise_singleton _ _⟩
  have hnew : (bio true).biSector < (bio true).sectorEnd := by decide
  have hold : ∀ b ∈ c.requests 0 0 .write, (bio b).biSector < (bio b).sectorEnd := by decide
  have h := addStripeBio_ordered c 0 0 .write hnew hold hord
  rw [← hq]
  exact h.2.2.1 (by decide)

end Cache

end JRaid
