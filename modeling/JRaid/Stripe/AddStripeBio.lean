import JRaid.Stripe.Cache

/-!
# Queueing bios on a stripe

`addStripeBio` links a bio into the `toread` or `towrite` list of its device, which is
sorted by `bi_sector`. The walk along the list (`insertBio`) rejects a bio that overlaps a
queued one; the caller learns this from the value returned and the device from its
`R5_Overlap` flag. After an accepted write, `coverage` sweeps the list to see whether the
queued writes cover the page of the device.

The bio handed in has `bi_next = NULL`, because the caller has just cleared it, so the
`BUG()` of `__add_stripe_bio` about a bio that is linked already cannot be reached.
-/

namespace JRaid

variable {N : ℕ} {τ : Type}

/-! ### The list of a device -/

/-- The walk of `__add_stripe_bio`: the list with the bio `bi` linked into its place, or
`none` where the walk ends at `overlap`. -/
def insertBio (bio : τ → Bio) (bi : τ) : List τ → Option (List τ)
  | [] => some [bi]
  | b :: rest =>
    if (bio b).biSector < (bio bi).biSector then
      if (bio b).sectorEnd > (bio bi).biSector then none
      else (insertBio bio bi rest).map (b :: ·)
    else if (bio b).biSector < (bio bi).sectorEnd then none
    else some (bi :: b :: rest)

/-- The sweep over `towrite`: how far, starting from `sector`, the bios of the list cover
the page that starts at `devSector`. It goes on to the next bio as `r5_next_bio` does. -/
def coverage (bio : τ → Bio) (devSector : UInt64) : UInt64 → List τ → UInt64
  | sector, [] => sector
  | sector, b :: rest =>
    if sector < devSector + stripeSectors ∧ (bio b).biSector ≤ sector then
      let sector := if sector ≤ (bio b).sectorEnd then (bio b).sectorEnd else sector
      if (bio b).sectorEnd < devSector + stripeSectors then coverage bio devSector sector rest
      else sector
    else sector

/-- Write the list of one direction. -/
def R5dev.setQueue (d : R5dev τ) (l : List τ) : Dir → R5dev τ
  | .read => { d with toread := l }
  | .write => { d with towrite := l }

/-- `__add_stripe_bio`, on the device. -/
def R5dev.addBio (bio : τ → Bio) (bi : τ) (forwrite : Dir) (d : R5dev τ) : Bool × R5dev τ :=
  match insertBio bio bi (d.queue forwrite) with
  | none => (false, { d with flags := { d.flags with overlap := true } })
  | some l =>
    let d := d.setQueue l forwrite
    if forwrite = .write ∧ coverage bio d.sector d.sector d.towrite ≥ d.sector + stripeSectors then
      (true, { d with flags := { d.flags with overwrite := true } })
    else (true, d)

/-- `__add_stripe_bio`. -/
def Cache.addStripeBio (bio : τ → Bio) (c : Cache N τ) (sh : Fin N) (bi : τ) (ddIdx : ℕ)
    (forwrite : Dir) : Bool × Cache N τ :=
  ((((c.stripe sh).dev ddIdx).addBio bio bi forwrite).1,
    c.modifyDev sh ddIdx fun d => (d.addBio bio bi forwrite).2)

/-! ### What a bio changes -/

variable {bio : τ → Bio} {bi : τ}

/-- The walk keeps the queued bios and adds the new one. -/
theorem mem_of_insertBio {l l' : List τ} (h : insertBio bio bi l = some l') {b : τ} :
    b ∈ l' ↔ b = bi ∨ b ∈ l := by
  induction l generalizing l' with
  | nil =>
    obtain rfl := Option.some.inj h
    simp
  | cons a l ih =>
    rw [insertBio] at h
    split_ifs at h
    · obtain ⟨l₁, hl₁, rfl⟩ := Option.map_eq_some_iff.mp h
      rw [List.mem_cons, List.mem_cons, ih hl₁]
      tauto
    · obtain rfl := Option.some.inj h
      exact List.mem_cons

/-- Where all queued bios start where the new one does, the walk rejects a bio that covers a
sector if any bio is queued, and nothing else. -/
theorem insertBio_eq_none_iff {l : List τ} (h : ∀ u ∈ l, (bio u).biSector = (bio bi).biSector) :
    insertBio bio bi l = none ↔ l ≠ [] ∧ (bio bi).biSector < (bio bi).sectorEnd := by
  cases l with
  | nil => simp [insertBio]
  | cons u l =>
    rw [insertBio, h u List.mem_cons_self, if_neg (UInt64.lt_irrefl _)]
    split_ifs with hlt
    · simp [hlt]
    · simp [hlt]

@[simp]
theorem R5dev.queue_setQueue (d : R5dev τ) (l : List τ) (rw rw' : Dir) :
    (d.setQueue l rw).queue rw' = if rw' = rw then l else d.queue rw' := by
  cases rw <;> cases rw' <;> rfl

section

variable (bio bi)

/-- **What `__add_stripe_bio` does to the queues**: a rejected bio leaves them alone, an
accepted one joins the queue of its direction. -/
theorem R5dev.queue_addBio (d : R5dev τ) (rw rw' : Dir) :
    ((d.addBio bio bi rw).2.queue rw' = d.queue rw' ∧ (d.addBio bio bi rw).1 = false ∧
        insertBio bio bi (d.queue rw) = none) ∨
      ∃ l, insertBio bio bi (d.queue rw) = some l ∧ (d.addBio bio bi rw).1 = true ∧
        (d.addBio bio bi rw).2.queue rw' = if rw' = rw then l else d.queue rw' := by
  rw [addBio]
  cases insertBio bio bi (d.queue rw) with
  | none => exact Or.inl ⟨by cases rw' <;> rfl, rfl, rfl⟩
  | some l =>
    refine Or.inr ⟨l, rfl, ?_⟩
    rw [← queue_setQueue]
    dsimp only
    split_ifs
    · exact ⟨rfl, by cases rw' <;> rfl⟩
    · exact ⟨rfl, rfl⟩

/-- `__add_stripe_bio` returns 0 where the walk rejects the bio. -/
theorem R5dev.addBio_eq_false_iff (d : R5dev τ) (rw : Dir) :
    (d.addBio bio bi rw).1 = false ↔ insertBio bio bi (d.queue rw) = none := by
  obtain ⟨-, hacc, hnone⟩ | ⟨l, hl, hacc, -⟩ := d.queue_addBio bio bi rw rw
  · simp [hacc, hnone]
  · simp [hacc, hl]

/-- `__add_stripe_bio` leaves a queue alone or adds the bio to it. -/
theorem R5dev.mem_queue_addBio (d : R5dev τ) (rw rw' : Dir) (b : τ) :
    b ∈ (d.addBio bio bi rw).2.queue rw' ↔
      b ∈ d.queue rw' ∨ (b = bi ∧ rw' = rw ∧ (d.addBio bio bi rw).1 = true) := by
  obtain ⟨hq, hacc, -⟩ | ⟨l, hl, hacc, hq⟩ := d.queue_addBio bio bi rw rw'
  · simp [hq, hacc]
  · rw [hq, hacc]
    split_ifs with h
    · subst h
      rw [mem_of_insertBio hl]
      tauto
    · simp [h]

/-- What `__add_stripe_bio` leaves alone on the device. -/
theorem R5dev.addBio_frame (d : R5dev τ) (rw rw' : Dir) :
    (d.addBio bio bi rw).2.want rw' = d.want rw' ∧
      (d.addBio bio bi rw).2.flags.locked = d.flags.locked ∧
      (d.addBio bio bi rw).2.written = d.written ∧ (d.addBio bio bi rw).2.sector = d.sector ∧
      (d.addBio bio bi rw).2.page = d.page := by
  rw [addBio]
  cases insertBio bio bi (d.queue rw) with
  | none => exact ⟨by cases rw' <;> rfl, rfl, rfl, rfl, rfl⟩
  | some l =>
    dsimp only
    split_ifs
    all_goals cases rw <;> exact ⟨by cases rw' <;> rfl, rfl, rfl, rfl, rfl⟩

end

namespace Cache

variable (c : Cache N τ) (sh : Fin N) (ddIdx : ℕ) (rw : Dir)

@[simp]
theorem table_addStripeBio : (c.addStripeBio bio sh bi ddIdx rw).2.table = c.table :=
  table_modifyDev c sh ddIdx fun d => (d.addBio bio bi rw).2

@[simp]
theorem pool_addStripeBio : (c.addStripeBio bio sh bi ddIdx rw).2.pool = c.pool :=
  pool_modifyDev c sh ddIdx fun d => (d.addBio bio bi rw).2

end Cache

end JRaid
