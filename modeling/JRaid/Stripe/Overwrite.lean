import JRaid.Stripe.OrderedLists

/-!
# When the queued writes cover a page

After `__add_stripe_bio` has accepted a write, it sweeps `towrite` and sets `R5_OVERWRITE` if it
gets to the end of the page. `coverage` is the sweep of `IntervalList` (`toNat_coverage`): that
`r5_next_bio` cuts the chain at the page end makes no difference, since a bio that reaches the
end takes the sweep there. So the flag is set exactly where the queued writes leave out no sector
of the page (`addStripeBio_overwrite_iff`), wherever they start and end.
-/

namespace JRaid

variable {N : ℕ} {τ : Type} {bio : τ → Bio}

/-- The sweep over `towrite` is the sweep along intervals. -/
theorem toNat_coverage (bio : τ → Bio) (devSector sector : UInt64) (l : List τ) :
    (coverage bio devSector sector l).toNat = IntervalList.sweep (fun b => (bio b).biSector.toNat)
      (fun b => (bio b).sectorEnd.toNat) (devSector + stripeSectors).toNat sector.toNat l := by
  induction l generalizing sector with
  | nil => rfl
  | cons b l ih =>
    have hmax : (if sector ≤ (bio b).sectorEnd then (bio b).sectorEnd else sector).toNat =
        max sector.toNat (bio b).sectorEnd.toNat := by
      simp only [UInt64.le_iff_toNat_le]
      split_ifs <;> omega
    rw [coverage, IntervalList.sweep]
    dsimp only
    generalize (if sector ≤ (bio b).sectorEnd then (bio b).sectorEnd else sector) = reached at *
    simp only [UInt64.lt_iff_toNat_lt, UInt64.le_iff_toNat_le]
    split_ifs with hstart hnext
    · rw [ih, hmax]
    · -- the bio that reaches the end of the page is the last one that counts
      rw [hmax]
      cases l with
      | nil => rfl
      | cons b' l => rw [IntervalList.sweep, if_neg fun h => by omega]
    · rfl

/-- **The sweep reaches the end of the page exactly if the bios leave out no sector of it.** -/
theorem le_coverage_iff {devSector : UInt64} {l : List τ}
    (hpage : devSector < devSector + stripeSectors)
    (hend : ∀ b ∈ l, (bio b).biSector ≤ (bio b).sectorEnd)
    (hsort : l.Pairwise fun a b => (bio a).biSector ≤ (bio b).biSector) :
    devSector + stripeSectors ≤ coverage bio devSector devSector l ↔
      Set.Ico devSector.toNat (devSector.toNat + stripeSectors.toNat) ⊆
        ⋃ b ∈ l, (bio b).range := by
  have hlast : (devSector + stripeSectors).toNat = devSector.toNat + stripeSectors.toNat := by
    have := devSector.toNat_lt
    rw [UInt64.lt_iff_toNat_lt, UInt64.toNat_add, stripeSectors] at hpage
    rw [UInt64.toNat_add, stripeSectors]
    simp only [UInt64.reduceToNat] at hpage ⊢
    omega
  have hrange : ⋃ b ∈ l, (bio b).range =
      ⋃ b ∈ l, Set.Ico (bio b).biSector.toNat (bio b).sectorEnd.toNat :=
    Set.iUnion₂_congr fun b hb => Bio.range_eq (hend b hb)
  rw [UInt64.le_iff_toNat_le, toNat_coverage, hrange, ← hlast]
  exact IntervalList.le_sweep_iff (hsort.imp UInt64.le_iff_toNat_le.mp) _ _

/-- The walk of `__add_stripe_bio` keeps the order of the bios. -/
theorem insertBio_sorted {bi : τ} {l l' : List τ}
    (hsort : l.Pairwise fun a b => (bio a).biSector ≤ (bio b).biSector)
    (h : insertBio bio bi l = some l') :
    l'.Pairwise fun a b => (bio a).biSector ≤ (bio b).biSector := by
  rw [insertBio_eq_place] at h
  have := IntervalList.sorted_of_place (hsort.imp UInt64.le_iff_toNat_le.mp) h
  exact this.imp UInt64.le_iff_toNat_le.mpr

/-- What an accepted write does to `R5_OVERWRITE` of its device. -/
theorem R5dev.overwrite_addBio {d : R5dev τ} {bi : τ}
    (hacc : (d.addBio bio bi .write).1 = true) :
    (d.addBio bio bi .write).2.flags.overwrite = true ↔ d.flags.overwrite = true ∨
      d.sector + stripeSectors ≤
        coverage bio d.sector d.sector ((d.addBio bio bi .write).2.queue .write) := by
  obtain ⟨-, hrej, -⟩ | ⟨l, hl, -, hq⟩ := d.queue_addBio bio bi .write .write
  · exact absurd (hrej.symm.trans hacc) Bool.false_ne_true
  · rw [hq, if_pos rfl, addBio, hl]
    dsimp only [setQueue]
    split_ifs with hcover
    · simpa using Or.inr hcover.2
    · simpa using fun h => absurd ⟨rfl, h⟩ hcover

namespace Cache

variable {bi : τ} (c : Cache N τ) (sh : Fin N) (ddIdx : ℕ)

/-- **Full-page detection.** On a list in the order of `bi_sector`, an accepted write leaves
`R5_OVERWRITE` set exactly if it was set before or the queued writes now cover every sector of
the page of the device. -/
theorem addStripeBio_overwrite_iff
    (hpage : ((c.stripe sh).dev ddIdx).sector < ((c.stripe sh).dev ddIdx).sector + stripeSectors)
    (hnew : (bio bi).biSector ≤ (bio bi).sectorEnd)
    (hold : ∀ b ∈ c.requests sh ddIdx .write, (bio b).biSector ≤ (bio b).sectorEnd)
    (hsort : (c.requests sh ddIdx .write).Pairwise fun a b => (bio a).biSector ≤ (bio b).biSector)
    (hacc : (c.addStripeBio bio sh bi ddIdx .write).1 = true) :
    let r := (c.addStripeBio bio sh bi ddIdx .write).2
    let page := ((c.stripe sh).dev ddIdx).sector.toNat
    ((r.stripe sh).dev ddIdx).flags.overwrite = true ↔
      ((c.stripe sh).dev ddIdx).flags.overwrite = true ∨
        Set.Ico page (page + stripeSectors.toNat) ⊆
          ⋃ b ∈ r.requests sh ddIdx .write, (bio b).range := by
  intro r page
  have hmem : ∀ b ∈ r.requests sh ddIdx .write, (bio b).biSector ≤ (bio b).sectorEnd := by
    intro b hb
    rw [requests_addStripeBio, R5dev.mem_queue_addBio] at hb
    obtain hb | ⟨rfl, -, -⟩ := hb
    · exact hold b hb
    · exact hnew
  have hsort' : (r.requests sh ddIdx .write).Pairwise fun a b =>
      (bio a).biSector ≤ (bio b).biSector := by
    rw [requests_addStripeBio]
    obtain ⟨hq, -⟩ | ⟨l, hl, -, hq⟩ :=
      ((c.stripe sh).dev ddIdx).queue_addBio bio bi .write .write
    · rwa [hq]
    · rw [hq, if_pos rfl]
      exact insertBio_sorted hsort hl
  rw [← le_coverage_iff hpage hmem hsort', dev_addStripeBio, if_pos ⟨rfl, rfl⟩,
    R5dev.overwrite_addBio hacc, requests_addStripeBio]

/-- A queued write of the first five sectors of a page, and a write that starts behind them and
reaches beyond the page. -/
theorem addStripeBio_overwrite_iff_two :
    let bio : Bool → Bio := fun b => if b then ⟨5, 4096, .write⟩ else ⟨0, 2560, .write⟩
    let c : Cache 1 Bool := Cache.empty.modifyDev 0 0 fun d => { d with towrite := [false] }
    let r := (c.addStripeBio bio 0 true 0 .write).2
    Set.Ico 0 8 ⊆ ⋃ b ∈ r.requests 0 0 .write, (bio b).range := by
  intro bio c r
  have hq : c.requests 0 0 .write = [false] := by decide
  have hsort : (c.requests 0 0 .write).Pairwise fun a b =>
      (bio a).biSector ≤ (bio b).biSector := by
    rw [hq]
    exact List.pairwise_singleton _ _
  have hnew : (bio true).biSector ≤ (bio true).sectorEnd := by decide
  have h := (addStripeBio_overwrite_iff c 0 0 (by decide) hnew (by decide) hsort
    (by decide)).mp (by decide)
  exact h.resolve_left (by decide)

end Cache

end JRaid
