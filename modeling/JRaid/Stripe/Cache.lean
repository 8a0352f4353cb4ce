import JRaid.Stripe.HashTable

/-!
# The stripe cache

Taking stripes from the cache and giving them back: `releaseStripe`, `getFreeStripe`,
`initStripe`, `getActiveStripe`, and the two functions that fill and empty the pool,
`growStripes` and `shrinkStripes`.

`getActiveStripe` is one pass of the loop in `get_active_stripe`, made under `device_lock`.
A pass ends with a stripe, or finds none while blocking is not allowed, or has to wait; the
lock is dropped while waiting, and the next pass starts over.

Each operation is specified on the three views of the cache. On the pool, `releaseStripe` is
`RefPool.put`, a hit of `getActiveStripe` is `RefPool.claim` and a miss is
`RefPool.takeFree`; on the hash table, a miss takes a stripe out and puts it back under its
new sector.
-/

namespace JRaid

open PprevChain

namespace Cache

variable {N : ℕ} {τ : Type}

/-! ### Releasing a stripe -/

/-- `__release_stripe`, also `release_stripe`. -/
def releaseStripe (c : Cache N τ) (sh : Fin N) : Cache N τ :=
  let c := c.modify sh fun s => { s with count := s.count - 1 }
  if (c.stripe sh).count = 0 then
    let c := c.printIf (c.OnList sh) .releaseLru
    let c := c.printIf (c.activeStripes = 0) .releaseActive
    if (c.stripe sh).handle then { c with handleList := c.handleList ++ [sh] }
    else { c with
      inactiveList := c.inactiveList ++ [sh]
      activeStripes := c.activeStripes - 1 }
  else c

/-! ### Taking a free stripe -/

/-- `get_free_stripe`. -/
def getFreeStripe (c : Cache N τ) : Option (Fin N) × Cache N τ :=
  match c.inactiveList with
  | [] => (none, c)
  | sh :: rest =>
    let c := { c with inactiveList := rest }
    let c := c.removeHash sh
    (some sh, { c with activeStripes := c.activeStripes + 1 })

/-- `__jraid5_build_block`, on a device. The variable `dummy2` of `compute_blocknr` is not
initialised; its value matters for unsupported layouts only and is taken as 0. -/
def buildBlock (conf : JRaid5Conf) (sector : UInt64) (pdIdx : Int32) (i : ℕ) (d : R5dev τ) :
    R5dev τ :=
  let d := { d with flags := R5Flags.zero }
  if Int32.ofNat i ≠ pdIdx then
    { d with sector := conf.computeBlocknr sector pdIdx (Int32.ofNat i) 0 }
  else d

/-- The loop over the devices in `__init_stripe`, from the last one down. -/
def initDevs (conf : JRaid5Conf) (c : Cache N τ) (sh : Fin N) : ℕ → Except Stop (Cache N τ)
  | 0 => .ok c
  | i + 1 =>
    if ((c.stripe sh).dev i).Pending then .error .initPending
    else
      let c := c.modifyDev sh i fun d => { d with flags := R5Flags.zero }
      let c := c.modifyDev sh i (buildBlock conf (c.stripe sh).sector (c.stripe sh).pdIdx i)
      initDevs conf c sh i

/-- `__init_stripe`. -/
def initStripe (conf : JRaid5Conf) (c : Cache N τ) (sh : Fin N) (sector : UInt64)
    (pdIdx : Int32) : Except Stop (Cache N τ) :=
  if (c.stripe sh).count ≠ 0 then .error .initCount
  else if (c.stripe sh).handle then .error .initHandle
  else
    let c := c.removeHash sh
    let c := c.modify sh fun s => { s with sector := sector, pdIdx := pdIdx, handle := false }
    (initDevs conf c sh conf.numDisks).map fun c => insertHash conf c sh

/-! ### `get_active_stripe` -/

/-- How a pass of `get_active_stripe` ends. -/
inductive Found (N : ℕ) where
  | stripe (sh : Fin N)
  | null
  | wait
  deriving DecidableEq

/-- The branch of `get_active_stripe` for a stripe found in the table. -/
def activateStripe (c : Cache N τ) (sh : Fin N) : Except Stop (Cache N τ) :=
  if (c.stripe sh).count ≠ 0 then .ok (c.printIf (c.OnList sh) .activeLru)
  else
    let c :=
      if (c.stripe sh).handle then c else { c with activeStripes := c.activeStripes + 1 }
    if ¬c.OnList sh then .error .activeLru
    else .ok { c with
      inactiveList := c.inactiveList.erase sh
      handleList := c.handleList.erase sh }

/-- `atomic_inc(&sh->count)`. -/
def holdStripe (c : Cache N τ) (sh : Fin N) : Cache N τ :=
  c.modify sh fun s => { s with count := s.count + 1 }

/-- One pass of the loop in `get_active_stripe`. -/
def getActiveStripe (conf : JRaid5Conf) (c : Cache N τ) (sector : UInt64) (pdIdx : Int32)
    (noblock : Bool) : Except Stop (Found N × Cache N τ) :=
  match findStripe conf c sector with
  | none => .error .chain
  | some none =>
    match c.getFreeStripe with
    | (none, c) => .ok (if noblock then .null else .wait, c)
    | (some sh, c) =>
      (initStripe conf c sh sector pdIdx).map fun c => (.stripe sh, c.holdStripe sh)
  | some (some sh) =>
    (c.activateStripe sh).map fun c => (.stripe sh, c.holdStripe sh)

/-! ### The handle list -/

/-- `set_bit(STRIPE_HANDLE, &sh->state)`. -/
def setHandle (c : Cache N τ) (sh : Fin N) : Cache N τ :=
  c.modify sh fun s => { s with handle := true }

/-- The head of the loop in `jraid5d`: take the first stripe of `handle_list`. -/
def takeHandled (c : Cache N τ) : Except Stop (Option (Fin N) × Cache N τ) :=
  match c.handleList with
  | [] => .ok (none, c)
  | sh :: rest =>
    let c := { c with handleList := rest }
    let c := c.holdStripe sh
    if (c.stripe sh).count ≠ 1 then .error .daemonCount else .ok (some sh, c)

/-! ### Filling and emptying the pool -/

/-- `grow_buffers`, when no allocation fails: `page` is what the new pages hold. -/
def growBuffers (num : ℕ) (page : ℕ → Page) (s : StripeHead N τ) : StripeHead N τ :=
  { s with dev := fun i => if i < num then { s.dev i with page := some (page i) } else s.dev i }

/-- One pass of the loop in `grow_stripes`. -/
def growStripe (conf : JRaid5Conf) (page : Fin N → ℕ → Page) (c : Cache N τ) (sh : Fin N) :
    Cache N τ :=
  let c := c.modify sh fun _ => growBuffers conf.numDisks (page sh) StripeHead.zero
  let c := c.modify sh fun s => { s with count := 1 }
  let c := { c with activeStripes := c.activeStripes + 1 }
  c.releaseStripe sh

/-- `grow_stripes`, when no allocation fails. -/
def growStripes (N : ℕ) (τ : Type) (conf : JRaid5Conf) (page : Fin N → ℕ → Page) : Cache N τ :=
  (List.finRange N).foldl (growStripe conf page) Cache.empty

/-- `shrink_buffers`. -/
def shrinkBuffers (num : ℕ) (s : StripeHead N τ) : StripeHead N τ :=
  { s with dev := fun i => if i < num then { s.dev i with page := none } else s.dev i }

/-- `shrink_stripes`; `jraidDisks` is the field of that name. A freed stripe stays in the
model, on no list and in no chain. -/
def shrinkStripes (jraidDisks : UInt32) : ℕ → Cache N τ → Cache N τ
  | 0, c => c
  | num + 1, c =>
    match c.getFreeStripe with
    | (none, c) => c
    | (some sh, c) =>
      let c := c.printIf ((c.stripe sh).count ≠ 0) .shrinkCount
      let c := c.modify sh (shrinkBuffers jraidDisks.toInt32.toNatClampNeg)
      shrinkStripes jraidDisks num { c with activeStripes := c.activeStripes - 1 }

/-! ### Diagnostics and counts -/

section Views

variable (c : Cache N τ) (p : Prop) [Decidable p] (r : Report) (sh : Fin N)

@[simp]
theorem table_printIf : (c.printIf p r).table = c.table := by
  unfold printIf
  split_ifs <;> rfl

@[simp]
theorem pool_printIf : (c.printIf p r).pool = c.pool := by
  unfold printIf
  split_ifs <;> rfl

@[simp]
theorem row_printIf : (c.printIf p r).row = c.row := by
  unfold printIf
  split_ifs <;> rfl

theorem report_printIf {p : Prop} [Decidable p] (h : ¬p) : (c.printIf p r).report = c.report := by
  rw [printIf, if_neg h]

/-- Writing the count of a stripe, on the pool. -/
theorem pool_modify_count (f : ℤ → ℤ) :
    (c.modify sh fun s => { s with count := f s.count }).pool =
      { c.pool with count := Function.update c.pool.count sh (f (c.pool.count sh)) } := by
  refine RefPool.ext (funext fun x => ?_) (funext fun x => ?_) rfl rfl rfl
  all_goals
    by_cases hx : x = sh
    · subst hx
      simp [pool]
    · simp [pool, hx]

@[simp]
theorem pool_holdStripe : (c.holdStripe sh).pool = c.pool.hold sh :=
  pool_modify_count c sh fun n => n + 1

@[simp]
theorem table_holdStripe : (c.holdStripe sh).table = c.table :=
  table_modify c rfl rfl

@[simp]
theorem row_holdStripe : (c.holdStripe sh).row = c.row :=
  row_modify c rfl

@[simp]
theorem pool_setHandle : (c.setHandle sh).pool = c.pool.mark sh := by
  refine RefPool.ext (funext fun x => ?_) (funext fun x => ?_) rfl rfl rfl
  all_goals
    by_cases hx : x = sh
    · subst hx
      simp [pool, setHandle, RefPool.mark]
    · simp [pool, setHandle, RefPool.mark, hx]

@[simp]
theorem table_setHandle : (c.setHandle sh).table = c.table :=
  table_modify c rfl rfl

@[simp]
theorem row_setHandle : (c.setHandle sh).row = c.row :=
  row_modify c rfl

/-! ### `__release_stripe` -/

/-- `__release_stripe` drops a reference. -/
theorem pool_releaseStripe : (c.releaseStripe sh).pool = c.pool.put sh := by
  let c₁ := c.modify sh fun s => { s with count := s.count - 1 }
  have hput : c.pool.put sh =
      if c₁.pool.count sh = 0 then
        if c₁.pool.marked sh then { c₁.pool with work := c₁.pool.work ++ [sh] }
        else { c₁.pool with free := c₁.pool.free ++ [sh], live := c₁.pool.live - 1 }
      else c₁.pool := by
    rw [show c₁.pool = _ from pool_modify_count c sh fun n => n - 1]
    rfl
  let c₂ := (c₁.printIf (c₁.OnList sh) .releaseLru).printIf
    ((c₁.printIf (c₁.OnList sh) .releaseLru).activeStripes = 0) .releaseActive
  have hc₂ : c₂.pool = c₁.pool := (pool_printIf _ _ _).trans (pool_printIf _ _ _)
  have hrel : (c.releaseStripe sh).pool =
      if c₁.pool.count sh = 0 then
        if c₂.pool.marked sh then { c₂.pool with work := c₂.pool.work ++ [sh] }
        else { c₂.pool with free := c₂.pool.free ++ [sh], live := c₂.pool.live - 1 }
      else c₁.pool := by
    unfold releaseStripe
    rw [apply_ite pool, apply_ite pool]
    rfl
  rw [hrel, hput, hc₂]

theorem table_releaseStripe : (c.releaseStripe sh).table = c.table := by
  have h : (c.modify sh fun s => { s with count := s.count - 1 }).table = c.table :=
    table_modify c rfl rfl
  rw [← h]
  unfold releaseStripe
  dsimp only
  split_ifs
  · exact (table_printIf _ _ _).trans (table_printIf _ _ _)
  · exact (table_printIf _ _ _).trans (table_printIf _ _ _)
  · rfl

theorem row_releaseStripe : (c.releaseStripe sh).row = c.row := by
  have h : (c.modify sh fun s => { s with count := s.count - 1 }).row = c.row := row_modify c rfl
  rw [← h]
  unfold releaseStripe
  dsimp only
  split_ifs
  · exact (row_printIf _ _ _).trans (row_printIf _ _ _)
  · exact (row_printIf _ _ _).trans (row_printIf _ _ _)
  · rfl

/-- Nothing is reported when the stripe is on no list and is counted as active. -/
theorem report_releaseStripe (h : ¬c.OnList sh) (ha : c.activeStripes ≠ 0) :
    (c.releaseStripe sh).report = c.report := by
  unfold releaseStripe
  dsimp only
  have h₁ := report_printIf (c.modify sh fun s => { s with count := s.count - 1 }) .releaseLru h
  split_ifs
  · exact (report_printIf _ _ (by unfold printIf; split_ifs <;> exact ha)).trans h₁
  · exact (report_printIf _ _ (by unfold printIf; split_ifs <;> exact ha)).trans h₁
  · rfl

end Views

/-! ### `get_free_stripe` -/

theorem getFreeStripe_nil {c : Cache N τ} (h : c.inactiveList = []) :
    c.getFreeStripe = (none, c) := by
  simp [getFreeStripe, h]

/-- `get_free_stripe` takes the first free stripe off its list and out of the hash table. -/
theorem getFreeStripe_cons {c : Cache N τ} {sh : Fin N} {rest : List (Fin N)}
    (h : c.inactiveList = sh :: rest) :
    ∃ c', c.getFreeStripe = (some sh, c') ∧ c'.table = c.table.unlink sh ∧ c'.row = c.row ∧
      c'.report = c.report ∧
      c'.pool = { c.pool with free := rest, live := c.activeStripes + 1 } := by
  have hsame := removeHash_same { c with inactiveList := rest } sh
  refine ⟨{ removeHash { c with inactiveList := rest } sh with
    activeStripes := (removeHash { c with inactiveList := rest } sh).activeStripes + 1 },
    by simp [getFreeStripe, h], table_removeHash _ _, hsame.row, hsame.report, ?_⟩
  exact congrArg (fun p : RefPool (Fin N) => { p with live := p.live + 1 }) hsame.pool

/-! ### `__init_stripe` -/

theorem modify_congr (c : Cache N τ) {sh : Fin N} {f g : StripeHead N τ → StripeHead N τ}
    (h : f (c.stripe sh) = g (c.stripe sh)) : c.modify sh f = c.modify sh g := by
  rw [modify, modify, h]

theorem modify_modify (c : Cache N τ) (sh : Fin N) (f g : StripeHead N τ → StripeHead N τ) :
    (c.modify sh f).modify sh g = c.modify sh (g ∘ f) := by
  simp [modify]

/-- What the loop over the devices makes of the first `n` devices of a row. -/
def initRow (conf : JRaid5Conf) (sector : UInt64) (pdIdx : Int32) (n : ℕ) (r : Row τ) : Row τ :=
  ⟨sector, pdIdx, fun i => if i < n then buildBlock conf sector pdIdx i (r.dev i) else r.dev i⟩

/-- The loop over the devices stops if one of them is pending, and otherwise prepares each. -/
private theorem initDevs_eq (conf : JRaid5Conf) (c : Cache N τ) (sh : Fin N) (n : ℕ) :
    initDevs conf c sh n =
      if ∃ i < n, ((c.stripe sh).dev i).Pending then .error .initPending
      else .ok (c.modify sh fun s => { s with
        dev := (initRow conf s.sector s.pdIdx n s.row).dev }) := by
  induction n generalizing c with
  | zero =>
    rw [if_neg (by simp)]
    simp [initDevs, initRow, StripeHead.row, modify]
  | succ n ih =>
    rw [initDevs]
    by_cases hp : ((c.stripe sh).dev n).Pending
    · rw [if_pos hp, if_pos ⟨n, by omega, hp⟩]
    · have hdev : ∀ i < n, i ≠ n := fun i hi => by omega
      have hex : (∃ i < n + 1, ((c.stripe sh).dev i).Pending) ↔
          ∃ i < n, ((c.stripe sh).dev i).Pending := by
        constructor
        · rintro ⟨i, hi, hpi⟩
          exact ⟨i, lt_of_le_of_ne (Nat.lt_succ_iff.mp hi) fun e => hp (e ▸ hpi), hpi⟩
        · rintro ⟨i, hi, hpi⟩
          exact ⟨i, Nat.lt_succ_of_lt hi, hpi⟩
      rw [if_neg hp, ih, modifyDev, modifyDev, modify_modify, modify_modify]
      refine ite_congr (propext ?_) (fun _ => rfl) fun _ => congrArg _ (modify_congr c ?_)
      · rw [hex]
        refine exists_congr fun i => and_congr_right fun hi => ?_
        simp [hdev i hi]
      · simp only [Function.comp_apply, stripe_modify, if_true]
        congr 1
        funext i
        simp only [initRow, StripeHead.row, Function.update_apply]
        rcases lt_trichotomy i n with hi | rfl | hi
        · simp [hi, hi.ne, Nat.lt_succ_of_lt hi]
        · simp [buildBlock]
        · simp [hi.not_gt, hi.ne', show ¬i < n + 1 by omega]

/-- The stripe that `__init_stripe` puts back into the table. -/
private def initHead (conf : JRaid5Conf) (sector : UInt64) (pdIdx : Int32) (s : StripeHead N τ) :
    StripeHead N τ :=
  { s with
    sector := sector
    pdIdx := pdIdx
    handle := false
    dev := (initRow conf sector pdIdx conf.numDisks s.row).dev }

/-- A device of the prepared row keeps its bios and has no flag set, or is left alone. -/
theorem initRow_dev (conf : JRaid5Conf) (sector : UInt64) (pdIdx : Int32) (n : ℕ) (r : Row τ)
    (i : ℕ) :
    (∀ rw, ((initRow conf sector pdIdx n r).dev i).queue rw = (r.dev i).queue rw) ∧
      ((initRow conf sector pdIdx n r).dev i).written = (r.dev i).written ∧
      (((initRow conf sector pdIdx n r).dev i).flags =
        if i < n then R5Flags.zero else (r.dev i).flags) := by
  unfold initRow buildBlock
  dsimp only
  split_ifs
  · exact ⟨fun rw => by cases rw <;> rfl, rfl, rfl⟩
  · exact ⟨fun rw => by cases rw <;> rfl, rfl, rfl⟩
  · exact ⟨fun _ => rfl, rfl, rfl⟩

/-- On an idle and unmarked stripe, `__init_stripe` stops for a pending device only. -/
private theorem initStripe_eq {conf : JRaid5Conf} {c : Cache N τ} {sh : Fin N} {sector : UInt64}
    {pdIdx : Int32} (hcount : c.pool.count sh = 0) (hmarked : c.pool.marked sh = false) :
    initStripe conf c sh sector pdIdx =
      if ∃ i < conf.numDisks, ((c.row sh).dev i).Pending then .error .initPending
      else .ok (insertHash conf
        ((c.removeHash sh).modify sh (initHead conf sector pdIdx)) sh) := by
  have hdev : ((c.removeHash sh).stripe sh).dev = (c.row sh).dev :=
    congrArg Row.dev (congrFun (removeHash_same c sh).row sh)
  have hcount' : ¬(c.stripe sh).count ≠ 0 := not_not_intro hcount
  have hmarked' : ¬(c.stripe sh).handle = true := Bool.not_eq_true _ ▸ hmarked
  rw [initStripe, if_neg hcount', if_neg hmarked']
  dsimp only
  rw [initDevs_eq, modify_modify]
  simp only [stripe_modify, if_true, hdev]
  split_ifs <;> rfl

/-- **`__init_stripe`** succeeds on an unmarked stripe without pending devices; the stripe
then stands in the table under its new sector. -/
theorem initStripe_eq_ok {conf : JRaid5Conf} {c c' : Cache N τ} {sh : Fin N} {sector : UInt64}
    {pdIdx : Int32} (h : initStripe conf c sh sector pdIdx = .ok c') :
    c.pool.marked sh = false ∧ (∀ i < conf.numDisks, ¬((c.row sh).dev i).Pending) ∧
      c'.table = (c.table.unlink sh).insert (stripeHash conf sector) sh ∧
      c'.row = Function.update c.row sh (initRow conf sector pdIdx conf.numDisks (c.row sh)) ∧
      c'.report = c.report ∧
      c'.pool = { c.pool with marked := Function.update c.pool.marked sh false } := by
  have hcount : c.pool.count sh = 0 := by
    by_contra hc
    have hc' : (c.stripe sh).count ≠ 0 := hc
    rw [initStripe, if_pos hc'] at h
    cases h
  have hmarked : c.pool.marked sh = false := by
    by_contra hm
    have hc' : ¬(c.stripe sh).count ≠ 0 := not_not_intro hcount
    have hm' : (c.stripe sh).handle = true := eq_true_of_ne_false hm
    rw [initStripe, if_neg hc', if_pos hm'] at h
    cases h
  rw [initStripe_eq hcount hmarked] at h
  have hsame := removeHash_same c sh
  split_ifs at h with hp
  obtain rfl := Except.ok.inj h
  have hins := insertHash_same conf ((c.removeHash sh).modify sh (initHead conf sector pdIdx)) sh
  have hrow : ((c.removeHash sh).modify sh (initHead conf sector pdIdx)).row =
      Function.update c.row sh (initRow conf sector pdIdx conf.numDisks (c.row sh)) := by
    rw [← hsame.row]
    funext x
    by_cases hx : x = sh
    · subst hx
      simp [row, initHead, StripeHead.row, initRow]
    · simp [row, hx]
  refine ⟨hmarked, fun i hi hpi => hp ⟨i, hi, hpi⟩, ?_, hins.row.trans hrow,
    hins.report.trans hsame.report, hins.pool.trans ?_⟩
  · rw [table_insertHash, table_modify _ rfl rfl, table_removeHash, hrow, Function.update_self]
    rfl
  · rw [← hsame.pool]
    refine RefPool.ext (funext fun x => ?_) (funext fun x => ?_) rfl rfl rfl
    all_goals
      by_cases hx : x = sh
      · subst hx
        simp [pool, initHead]
      · simp [pool, hx]

/-- `__init_stripe` on an idle, unmarked stripe stops for a pending device only. -/
theorem initStripe_eq_error {conf : JRaid5Conf} {c : Cache N τ} {sh : Fin N} {b : Stop}
    {sector : UInt64} {pdIdx : Int32} (hcount : c.pool.count sh = 0)
    (hmarked : c.pool.marked sh = false) (h : initStripe conf c sh sector pdIdx = .error b) :
    b = .initPending ∧ ∃ i < conf.numDisks, ((c.row sh).dev i).Pending := by
  rw [initStripe_eq hcount hmarked] at h
  split_ifs at h with hp
  exact ⟨(Except.error.inj h).symm, hp⟩

/-- `__init_stripe` succeeds on an idle, unmarked stripe without pending devices. -/
theorem exists_initStripe (conf : JRaid5Conf) {c : Cache N τ} {sh : Fin N} (sector : UInt64)
    (pdIdx : Int32) (hcount : c.pool.count sh = 0) (hmarked : c.pool.marked sh = false)
    (hp : ∀ i < conf.numDisks, ¬((c.row sh).dev i).Pending) :
    ∃ c', initStripe conf c sh sector pdIdx = .ok c' := by
  rw [initStripe_eq hcount hmarked, if_neg fun ⟨i, hi, hpi⟩ => hp i hi hpi]
  exact ⟨_, rfl⟩

/-! ### `get_active_stripe` -/

/-- What a hit does: the stripe is found in the table and leaves its list, if it is on one. -/
structure Hit (conf : JRaid5Conf) (c : Cache N τ) (sector : UInt64) (sh : Fin N)
    (c' : Cache N τ) : Prop where
  find : findStripe conf c sector = some (some sh)
  table : c'.table = c.table
  row : c'.row = c.row
  pool : c'.pool = c.pool.claim sh
  report : (c.pool.count sh ≠ 0 → ¬c.OnList sh) → c'.report = c.report

/-- What a miss does: the first free stripe, which is clean, gets the sector. -/
structure Miss (conf : JRaid5Conf) (c : Cache N τ) (sector : UInt64) (pdIdx : Int32) (sh : Fin N)
    (c' : Cache N τ) : Prop where
  find : findStripe conf c sector = some none
  free : ∃ rest, c.pool.free = sh :: rest
  clean : ∀ i < conf.numDisks, ¬((c.row sh).dev i).Pending
  table : c'.table = (c.table.unlink sh).insert (stripeHash conf sector) sh
  row : c'.row = Function.update c.row sh (initRow conf sector pdIdx conf.numDisks (c.row sh))
  pool : c'.pool = c.pool.takeFree sh
  report : c'.report = c.report

/-- The sector of the stripe that a miss has prepared. -/
theorem Miss.sector_self {conf : JRaid5Conf} {c c' : Cache N τ} {sector : UInt64}
    {pdIdx : Int32} {sh : Fin N} (hm : Miss conf c sector pdIdx sh c') :
    (c'.row sh).sector = sector := by
  rw [hm.row, Function.update_self, initRow]

/-- A miss moves no bio. -/
theorem Miss.queue {conf : JRaid5Conf} {c c' : Cache N τ} {sector : UInt64}
    {pdIdx : Int32} {sh : Fin N} (hm : Miss conf c sector pdIdx sh c') (x : Fin N) (i : ℕ)
    (rw : Dir) : ((c'.row x).dev i).queue rw = ((c.row x).dev i).queue rw := by
  rw [hm.row, Function.update_apply]
  split_ifs with hx
  · rw [hx]
    exact (initRow_dev conf sector pdIdx conf.numDisks (c.row sh) i).1 rw
  · rfl

/-- A miss writes nothing, and leaves the flags of a device alone or sets none of them. -/
theorem Miss.written_flags {conf : JRaid5Conf} {c c' : Cache N τ} {sector : UInt64}
    {pdIdx : Int32} {sh : Fin N} (hm : Miss conf c sector pdIdx sh c') (x : Fin N) (i : ℕ) :
    ((c'.row x).dev i).written = ((c.row x).dev i).written ∧
      (((c'.row x).dev i).flags = R5Flags.zero ∨
        ((c'.row x).dev i).flags = ((c.row x).dev i).flags) := by
  rw [hm.row, Function.update_apply]
  split_ifs with hx
  · obtain ⟨-, hwritten, hflags⟩ := initRow_dev conf sector pdIdx conf.numDisks (c.row sh) i
    rw [hx, hwritten, hflags]
    exact ⟨rfl, (ite_eq_or_eq ..)⟩
  · exact ⟨rfl, Or.inr rfl⟩

/-- What a pass that finds no stripe has seen. -/
structure Exhausted (conf : JRaid5Conf) (c : Cache N τ) (sector : UInt64) (c' : Cache N τ) :
    Prop where
  find : findStripe conf c sector = some none
  free : c.pool.free = []
  eq : c' = c

/-- What `activateStripe` does to an idle stripe that is on a list. -/
private theorem activateStripe_idle {c : Cache N τ} {sh : Fin N} (hc : c.pool.count sh = 0) :
    c.activateStripe sh =
      if c.OnList sh then
        .ok { c with
          activeStripes := if c.pool.marked sh then c.activeStripes else c.activeStripes + 1
          inactiveList := c.inactiveList.erase sh
          handleList := c.handleList.erase sh }
      else .error .activeLru := by
  have hc' : ¬(c.stripe sh).count ≠ 0 := not_not_intro hc
  rw [activateStripe, if_neg hc', show c.pool.marked sh = (c.stripe sh).handle from rfl, ite_not]
  cases (c.stripe sh).handle <;> rfl

private theorem activateStripe_eq_ok {c c' : Cache N τ} {sh : Fin N}
    (h : c.activateStripe sh = .ok c') :
    c'.table = c.table ∧ c'.row = c.row ∧ (c'.holdStripe sh).pool = c.pool.claim sh ∧
      ((c.pool.count sh ≠ 0 → ¬c.OnList sh) → c'.report = c.report) := by
  by_cases hc : c.pool.count sh = 0
  · have hl : c.OnList sh := by
      by_contra hl
      rw [activateStripe_idle hc, if_neg hl] at h
      cases h
    rw [activateStripe_idle hc, if_pos hl] at h
    obtain rfl := Except.ok.inj h
    refine ⟨rfl, rfl, ?_, fun _ => rfl⟩
    rw [pool_holdStripe, RefPool.claim, if_pos hc]
    rfl
  · have hc' : (c.stripe sh).count ≠ 0 := hc
    rw [activateStripe, if_pos hc'] at h
    obtain rfl := Except.ok.inj h
    refine ⟨table_printIf _ _ _, row_printIf _ _ _, ?_, fun hrep => report_printIf _ _ (hrep hc)⟩
    rw [pool_holdStripe, pool_printIf, RefPool.claim, if_neg hc]

private theorem activateStripe_eq_error {c : Cache N τ} {sh : Fin N} {b : Stop}
    (h : c.activateStripe sh = .error b) :
    b = .activeLru ∧ c.pool.count sh = 0 ∧ ¬c.OnList sh := by
  by_cases hc : c.pool.count sh = 0
  · rw [activateStripe_idle hc] at h
    split_ifs at h with hl
    exact ⟨(Except.error.inj h).symm, hc, hl⟩
  · have hc' : (c.stripe sh).count ≠ 0 := hc
    rw [activateStripe, if_pos hc'] at h
    cases h

/-- **A pass of `get_active_stripe`** is a hit, a miss, or finds the cache exhausted. -/
theorem getActiveStripe_eq_ok {conf : JRaid5Conf} {c c' : Cache N τ} {sector : UInt64}
    {pdIdx : Int32} {noblock : Bool} {f : Found N}
    (h : getActiveStripe conf c sector pdIdx noblock = .ok (f, c')) :
    (∃ sh, f = .stripe sh ∧ Hit conf c sector sh c') ∨
      (∃ sh, f = .stripe sh ∧ Miss conf c sector pdIdx sh c') ∨
      (f = if noblock then .null else .wait) ∧ Exhausted conf c sector c' := by
  rw [getActiveStripe] at h
  rcases hfind : findStripe conf c sector with _ | _ | sh <;> rw [hfind] at h
  · cases h
  · cases hfree : c.inactiveList with
    | nil =>
      rw [getFreeStripe_nil hfree] at h
      obtain ⟨rfl, rfl⟩ := Prod.mk.inj (Except.ok.inj h)
      exact Or.inr (Or.inr ⟨rfl, hfind, hfree, rfl⟩)
    | cons sh rest =>
      obtain ⟨c₁, hget, htable, hrow, hreport, hpool⟩ := getFreeStripe_cons hfree
      simp only [hget] at h
      cases hinit : initStripe conf c₁ sh sector pdIdx with
      | error b => simp [hinit, Except.map] at h
      | ok c₂ =>
        rw [hinit] at h
        obtain ⟨rfl, rfl⟩ := Prod.mk.inj (Except.ok.inj h)
        obtain ⟨-, hclean, htable', hrow', hreport', hpool'⟩ := initStripe_eq_ok hinit
        rw [hrow] at hclean hrow'
        rw [htable, Table.unlink_unlink] at htable'
        refine Or.inr (Or.inl ⟨sh, rfl, hfind, ⟨rest, hfree⟩, hclean, ?_, ?_, ?_, ?_⟩)
        · exact (table_holdStripe _ _).trans htable'
        · exact (row_holdStripe _ _).trans hrow'
        · rw [pool_holdStripe, hpool', hpool, RefPool.takeFree,
            show c.pool.free = sh :: rest from hfree]
          rfl
        · exact hreport'.trans hreport
  · cases hact : c.activateStripe sh with
    | error b => simp [hact, Except.map] at h
    | ok c₁ =>
      simp only [hact, Except.map] at h
      obtain ⟨rfl, rfl⟩ := Prod.mk.inj (Except.ok.inj h)
      obtain ⟨htable, hrow, hpool, hreport⟩ := activateStripe_eq_ok hact
      exact Or.inl ⟨sh, rfl, hfind, (table_holdStripe _ _).trans htable,
        (row_holdStripe _ _).trans hrow, hpool, hreport⟩

/-- Why a pass of `get_active_stripe` stops: a chain does not end, an idle stripe of the
table is on no list, or the first free stripe is not fit for use. -/
theorem getActiveStripe_eq_error {conf : JRaid5Conf} {c : Cache N τ} {sector : UInt64}
    {pdIdx : Int32} {noblock : Bool} {b : Stop}
    (h : getActiveStripe conf c sector pdIdx noblock = .error b) :
    findStripe conf c sector = none ∨
      (∃ sh, findStripe conf c sector = some (some sh) ∧ c.pool.count sh = 0 ∧ ¬c.OnList sh) ∨
      ∃ sh rest, c.pool.free = sh :: rest ∧
        (c.pool.count sh = 0 → c.pool.marked sh = false →
          b = .initPending ∧ ∃ i < conf.numDisks, ((c.row sh).dev i).Pending) := by
  rw [getActiveStripe] at h
  rcases hfind : findStripe conf c sector with _ | _ | sh <;> rw [hfind] at h
  · exact Or.inl rfl
  · cases hfree : c.inactiveList with
    | nil =>
      rw [getFreeStripe_nil hfree] at h
      cases h
    | cons sh rest =>
      obtain ⟨c₁, hget, -, hrow, -, hpool⟩ := getFreeStripe_cons hfree
      simp only [hget] at h
      refine Or.inr (Or.inr ⟨sh, rest, hfree, fun hcount hmarked => ?_⟩)
      cases hinit : initStripe conf c₁ sh sector pdIdx with
      | ok c₂ => simp [hinit, Except.map] at h
      | error b' =>
        rw [hinit] at h
        obtain rfl := Except.error.inj h
        rw [← hrow]
        exact initStripe_eq_error (by rw [hpool]; exact hcount) (by rw [hpool]; exact hmarked) hinit
  · cases hact : c.activateStripe sh with
    | ok c₁ => simp [hact, Except.map] at h
    | error b' =>
      obtain ⟨-, hcount, hlist⟩ := activateStripe_eq_error hact
      exact Or.inr (Or.inl ⟨sh, rfl, hcount, hlist⟩)

/-- A pass succeeds on a hit when an idle stripe of the table is on a list. -/
theorem exists_getActiveStripe_hit {conf : JRaid5Conf} {c : Cache N τ} {sector : UInt64}
    (pdIdx : Int32) (noblock : Bool) {sh : Fin N}
    (hfind : findStripe conf c sector = some (some sh)) (hl : c.pool.count sh = 0 → c.OnList sh) :
    ∃ c', getActiveStripe conf c sector pdIdx noblock = .ok (.stripe sh, c') := by
  have hact : ∃ c₁, c.activateStripe sh = .ok c₁ := by
    by_cases hc : c.pool.count sh = 0
    · rw [activateStripe_idle hc, if_pos (hl hc)]
      exact ⟨_, rfl⟩
    · have hc' : (c.stripe sh).count ≠ 0 := hc
      rw [activateStripe, if_pos hc']
      exact ⟨_, rfl⟩
  obtain ⟨c₁, hact⟩ := hact
  exact ⟨_, by rw [getActiveStripe, hfind]; simp only [hact]; rfl⟩

/-- A pass succeeds on a miss when the first free stripe is idle, unmarked and clean. -/
theorem exists_getActiveStripe_miss {conf : JRaid5Conf} {c : Cache N τ} {sector : UInt64}
    (pdIdx : Int32) (noblock : Bool) {sh : Fin N} {rest : List (Fin N)}
    (hfind : findStripe conf c sector = some none) (hfree : c.pool.free = sh :: rest)
    (hcount : c.pool.count sh = 0) (hmarked : c.pool.marked sh = false)
    (hclean : ∀ i < conf.numDisks, ¬((c.row sh).dev i).Pending) :
    ∃ c', getActiveStripe conf c sector pdIdx noblock = .ok (.stripe sh, c') := by
  obtain ⟨c₁, hget, -, hrow, -, hpool⟩ := getFreeStripe_cons hfree
  obtain ⟨c₂, hinit⟩ := exists_initStripe conf sector pdIdx
    (show c₁.pool.count sh = 0 by rw [hpool]; exact hcount) (by rw [hpool]; exact hmarked)
    (by rwa [hrow])
  exact ⟨_, by rw [getActiveStripe, hfind]; simp only [hget, hinit]; rfl⟩

/-- A pass stops on a miss when the first free stripe is idle and unmarked but not clean. -/
theorem getActiveStripe_of_pending {conf : JRaid5Conf} {c : Cache N τ} {sector : UInt64}
    (pdIdx : Int32) (noblock : Bool) {sh : Fin N} {rest : List (Fin N)}
    (hfind : findStripe conf c sector = some none) (hfree : c.pool.free = sh :: rest)
    (hcount : c.pool.count sh = 0) (hmarked : c.pool.marked sh = false)
    (hp : ∃ i < conf.numDisks, ((c.row sh).dev i).Pending) :
    getActiveStripe conf c sector pdIdx noblock = .error .initPending := by
  obtain ⟨c₁, hget, -, hrow, -, hpool⟩ := getFreeStripe_cons hfree
  have hinit : initStripe conf c₁ sh sector pdIdx = .error .initPending := by
    rw [initStripe_eq (by rw [hpool]; exact hcount) (by rw [hpool]; exact hmarked), hrow, if_pos hp]
  rw [getActiveStripe, hfind]
  simp only [hget, hinit]
  rfl

/-! ### The head of the loop in `jraid5d` -/

/-- What taking the first stripe of `handle_list` does. -/
structure Taken (c : Cache N τ) (sh : Fin N) (c' : Cache N τ) : Prop where
  work : ∃ rest, c.pool.work = sh :: rest
  table : c'.table = c.table
  row : c'.row = c.row
  pool : c'.pool = c.pool.takeWork sh
  report : c'.report = c.report

theorem takeHandled_eq_ok {c c' : Cache N τ} {f : Option (Fin N)}
    (h : c.takeHandled = .ok (f, c')) :
    (f = none ∧ c.pool.work = [] ∧ c' = c) ∨ ∃ sh, f = some sh ∧ Taken c sh c' := by
  rw [takeHandled] at h
  cases hw : c.handleList with
  | nil =>
    rw [hw] at h
    obtain ⟨rfl, rfl⟩ := Prod.mk.inj (Except.ok.inj h)
    exact Or.inl ⟨rfl, hw, rfl⟩
  | cons sh rest =>
    simp only [hw] at h
    split_ifs at h
    obtain ⟨rfl, rfl⟩ := Prod.mk.inj (Except.ok.inj h)
    refine Or.inr ⟨sh, rfl, ⟨rest, hw⟩, table_holdStripe _ _, row_holdStripe _ _, ?_, rfl⟩
    rw [pool_holdStripe, RefPool.takeWork, show c.pool.work = sh :: rest from hw]
    rfl

theorem takeHandled_eq_error {c : Cache N τ} {b : Stop} (h : c.takeHandled = .error b) :
    ∃ sh rest, c.pool.work = sh :: rest ∧ c.pool.count sh ≠ 0 := by
  rw [takeHandled] at h
  cases hw : c.handleList with
  | nil => simp [hw] at h
  | cons sh rest =>
    simp only [hw] at h
    split_ifs at h with hc
    refine ⟨sh, rest, hw, fun h0 => hc ?_⟩
    rw [holdStripe, stripe_modify, if_pos rfl]
    exact congrArg (fun n => n + 1) h0

/-! ### `grow_stripes` -/

/-- A new stripe goes to the end of the list of free stripes. -/
theorem growStripe_eq {conf : JRaid5Conf} {page : Fin N → ℕ → Page} {c : Cache N τ}
    {sh : Fin N} (hl : ¬c.OnList sh) (ha : c.activeStripes = 0) :
    growStripe conf page c sh = { c with
      stripe := Function.update c.stripe sh (growBuffers conf.numDisks (page sh) StripeHead.zero)
      inactiveList := c.inactiveList ++ [sh] } := by
  simp only [OnList] at hl
  simp [growStripe, releaseStripe, modify, printIf, OnList, growBuffers, StripeHead.zero, ha, hl]

/-- So do the stripes of a list, one after the other. -/
theorem foldl_growStripe {conf : JRaid5Conf} {page : Fin N → ℕ → Page}
    {l : List (Fin N)} {c : Cache N τ} (hnd : (c.inactiveList ++ l).Nodup)
    (hl : c.handleList = []) (ha : c.activeStripes = 0) :
    l.foldl (growStripe conf page) c = { c with
      stripe := fun sh =>
        if sh ∈ l then growBuffers conf.numDisks (page sh) StripeHead.zero else c.stripe sh
      inactiveList := c.inactiveList ++ l } := by
  induction l generalizing c with
  | nil => simp
  | cons sh l ih =>
    have hsh : ¬c.OnList sh := by
      rintro (h | h)
      · exact (List.nodup_append.mp hnd).2.2 _ h _ List.mem_cons_self rfl
      · rw [hl] at h
        cases h
    rw [List.foldl_cons, growStripe_eq hsh ha]
    refine (ih ?_ ?_ ?_).trans ?_
    · simpa using hnd
    · exact hl
    · exact ha
    · have hnot : sh ∉ l := (List.nodup_cons.mp (List.nodup_append.mp hnd).2.1).1
      congr 1
      · funext x
        by_cases hx : x = sh
        · subst hx
          simp [hnot]
        · simp [hx]
      · simp

/-- **The pool that `grow_stripes` builds**: every stripe is blank and free. -/
theorem growStripes_eq (N : ℕ) (τ : Type) (conf : JRaid5Conf) (page : Fin N → ℕ → Page) :
    growStripes N τ conf page =
      ⟨fun _ => none, fun sh => growBuffers conf.numDisks (page sh) StripeHead.zero,
        List.finRange N, [], 0, []⟩ := by
  rw [growStripes, foldl_growStripe (by simpa [empty] using List.nodup_finRange N) rfl rfl]
  simp [empty]

theorem pool_growStripes (N : ℕ) (τ : Type) (conf : JRaid5Conf) (page : Fin N → ℕ → Page) :
    (growStripes N τ conf page).pool = ⟨fun _ => 0, fun _ => false, List.finRange N, [], 0⟩ := by
  rw [growStripes_eq]
  rfl

theorem table_growStripes (N : ℕ) (τ : Type) (conf : JRaid5Conf) (page : Fin N → ℕ → Page) :
    (growStripes N τ conf page).table = ⟨fun _ => none, fun _ => none, fun _ => none⟩ := by
  rw [growStripes_eq]
  rfl

theorem report_growStripes (N : ℕ) (τ : Type) (conf : JRaid5Conf) (page : Fin N → ℕ → Page) :
    (growStripes N τ conf page).report = [] := by
  rw [growStripes_eq]

end Cache

end JRaid
