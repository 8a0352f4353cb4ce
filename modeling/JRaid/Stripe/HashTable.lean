import JRaid.Stripe.Basic

/-!
# The stripe hash table

`removeHash`, `insertHash` and `findStripe` as the driver computes them, on the pointers of
the stripes. On the view `Cache.table` they are the operations of the general hash table,
and they leave the other views alone.
-/

namespace JRaid

open PprevChain

/-- `stripe_hash`: the bucket of a sector. -/
def stripeHash (conf : JRaid5Conf) (sect : UInt64) : Fin nrHash :=
  ⟨(sect / ulong (conf.bufferSize >>> 9) &&& hashMask).toNat, by
    rw [UInt64.toNat_and]
    exact lt_of_le_of_lt Nat.and_le_right (by decide)⟩

namespace Cache

variable {N : ℕ} {τ : Type}

/-! ### The pointers -/

/-- Write `hash_next`. -/
def setNext (c : Cache N τ) (sh : Fin N) (v : Option (Fin N)) : Cache N τ :=
  c.modify sh fun s => { s with hashNext := v }

/-- Write `hash_pprev`. -/
def setPprev (c : Cache N τ) (sh : Fin N) (v : Option (Link (Fin nrHash) (Fin N))) : Cache N τ :=
  c.modify sh fun s => { s with hashPprev := v }

/-- Write through a `hash_pprev`. -/
def setLink (c : Cache N τ) : Link (Fin nrHash) (Fin N) → Option (Fin N) → Cache N τ
  | .bucket b, v => { c with stripeHashtbl := Function.update c.stripeHashtbl b v }
  | .node sh, v => c.setNext sh v

/-- `remove_hash`. -/
def removeHash (c : Cache N τ) (sh : Fin N) : Cache N τ :=
  match (c.stripe sh).hashPprev with
  | none => c
  | some pprev =>
    let c := match (c.stripe sh).hashNext with
      | some next => c.setPprev next (some pprev)
      | none => c
    let c := c.setLink pprev (c.stripe sh).hashNext
    c.setPprev sh none

/-- `insert_hash`. -/
def insertHash (conf : JRaid5Conf) (c : Cache N τ) (sh : Fin N) : Cache N τ :=
  let shp := stripeHash conf (c.stripe sh).sector
  let first := c.stripeHashtbl shp
  let c := c.setNext sh first
  let c := match first with
    | some first => c.setPprev first (some (.node sh))
    | none => c
  let c := c.setLink (.bucket shp) (some sh)
  c.setPprev sh (some (.bucket shp))

/-- The loop of `__find_stripe`. A chain has at most `N` stripes, so a walk that has not
ended after `N` of them (`none`) would not end. -/
def findFrom (c : Cache N τ) (sector : UInt64) : ℕ → Option (Fin N) → Option (Option (Fin N))
  | _, none => some none
  | 0, some _ => none
  | fuel + 1, some sh =>
    if (c.stripe sh).sector = sector then some (some sh)
    else findFrom c sector fuel (c.stripe sh).hashNext

/-- `__find_stripe`. -/
def findStripe (conf : JRaid5Conf) (c : Cache N τ) (sector : UInt64) : Option (Option (Fin N)) :=
  c.findFrom sector N (c.stripeHashtbl (stripeHash conf sector))

/-! ### The view of the hash table -/

@[simp]
theorem table_setPprev (c : Cache N τ) (sh : Fin N) (v : Option (Link (Fin nrHash) (Fin N))) :
    (c.setPprev sh v).table = c.table.setPprev sh v := by
  refine Table.ext rfl (funext fun x => ?_) (funext fun x => ?_)
  all_goals
    by_cases hx : x = sh
    · subst hx
      simp [setPprev, table, Table.setPprev]
    · simp [setPprev, table, Table.setPprev, hx]

@[simp]
theorem table_setLink (c : Cache N τ) (lk : Link (Fin nrHash) (Fin N)) (v : Option (Fin N)) :
    (c.setLink lk v).table = c.table.set lk v := by
  cases lk with
  | bucket b => rfl
  | node sh =>
    refine Table.ext rfl (funext fun x => ?_) (funext fun x => ?_)
    all_goals
      by_cases hx : x = sh
      · subst hx
        simp [setLink, setNext, table, Table.set]
      · simp [setLink, setNext, table, Table.set, hx]

@[simp]
theorem table_setNext (c : Cache N τ) (sh : Fin N) (v : Option (Fin N)) :
    (c.setNext sh v).table = c.table.set (.node sh) v :=
  table_setLink c (.node sh) v

/-- `remove_hash` takes the stripe out of the table. -/
@[simp]
theorem table_removeHash (c : Cache N τ) (sh : Fin N) :
    (c.removeHash sh).table = c.table.unlink sh := by
  have hp : c.table.pprev sh = (c.stripe sh).hashPprev := rfl
  have hn : c.table.next sh = (c.stripe sh).hashNext := rfl
  unfold removeHash Table.unlink
  rw [hp, hn]
  cases (c.stripe sh).hashPprev with
  | none => rfl
  | some pprev =>
    cases h : (c.stripe sh).hashNext with
    | none => simp [h]
    | some next =>
      have hnext : ((c.setPprev next (some pprev)).stripe sh).hashNext = some next := by
        rw [setPprev, stripe_modify]
        split_ifs with e
        · rw [← h, e]
        · exact h
      simp [hnext]

/-- `insert_hash` puts the stripe in front of the chain of its sector. -/
@[simp]
theorem table_insertHash (conf : JRaid5Conf) (c : Cache N τ) (sh : Fin N) :
    (insertHash conf c sh).table = c.table.insert (stripeHash conf (c.row sh).sector) sh := by
  have hsector : (c.row sh).sector = (c.stripe sh).sector := rfl
  have hhead : c.table.head = c.stripeHashtbl := rfl
  unfold insertHash Table.insert
  rw [hsector, hhead]
  dsimp only
  cases c.stripeHashtbl (stripeHash conf (c.stripe sh).sector) <;> simp

/-! ### What the table operations leave alone -/

/-- Two caches that differ in the hash table at most. -/
structure SameButHash (c c' : Cache N τ) : Prop where
  pool : c'.pool = c.pool
  row : c'.row = c.row
  report : c'.report = c.report

theorem SameButHash.rfl {c : Cache N τ} : c.SameButHash c := ⟨Eq.refl _, Eq.refl _, Eq.refl _⟩

theorem SameButHash.trans {c c' c'' : Cache N τ} (h : c.SameButHash c') (h' : c'.SameButHash c'') :
    c.SameButHash c'' :=
  ⟨h'.pool.trans h.pool, h'.row.trans h.row, h'.report.trans h.report⟩

theorem setPprev_same (c : Cache N τ) (sh : Fin N) (v : Option (Link (Fin nrHash) (Fin N))) :
    c.SameButHash (c.setPprev sh v) :=
  ⟨pool_modify c rfl rfl, row_modify c rfl, rfl⟩

theorem setNext_same (c : Cache N τ) (sh : Fin N) (v : Option (Fin N)) :
    c.SameButHash (c.setNext sh v) :=
  ⟨pool_modify c rfl rfl, row_modify c rfl, rfl⟩

theorem setLink_same (c : Cache N τ) (lk : Link (Fin nrHash) (Fin N)) (v : Option (Fin N)) :
    c.SameButHash (c.setLink lk v) := by
  cases lk with
  | bucket b => exact ⟨rfl, rfl, rfl⟩
  | node sh => exact c.setNext_same sh v

theorem removeHash_same (c : Cache N τ) (sh : Fin N) : c.SameButHash (c.removeHash sh) := by
  unfold removeHash
  cases (c.stripe sh).hashPprev with
  | none => exact .rfl
  | some pprev =>
    refine SameButHash.trans ?_ ((setLink_same _ _ _).trans (setPprev_same _ _ _))
    cases (c.stripe sh).hashNext with
    | none => exact .rfl
    | some next => exact setPprev_same _ _ _

theorem insertHash_same (conf : JRaid5Conf) (c : Cache N τ) (sh : Fin N) :
    c.SameButHash (insertHash conf c sh) := by
  refine SameButHash.trans ?_ ((setLink_same _ _ _).trans (setPprev_same _ _ _))
  cases c.stripeHashtbl (stripeHash conf (c.stripe sh).sector) with
  | none => exact setNext_same _ _ _
  | some first => exact (setNext_same _ _ _).trans (setPprev_same _ _ _)

/-! ### Searching -/

theorem findFrom_eq (c : Cache N τ) (sector : UInt64) (fuel : ℕ) (cur : Option (Fin N)) :
    c.findFrom sector fuel cur =
      c.table.find (fun sh => decide ((c.row sh).sector = sector)) fuel cur := by
  induction fuel generalizing cur with
  | zero => cases cur <;> rfl
  | succ fuel ih =>
    cases cur with
    | none => rfl
    | some sh =>
      rw [findFrom, Table.find, ih]
      exact ite_congr (decide_eq_true_eq (p := _ = _)).symm (fun _ => rfl) fun _ => rfl

/-- `__find_stripe` searches the bucket of the sector. -/
theorem findStripe_eq (conf : JRaid5Conf) (c : Cache N τ) (sector : UInt64) :
    findStripe conf c sector =
      c.table.find (fun sh => decide ((c.row sh).sector = sector)) N
        (c.table.head (stripeHash conf sector)) :=
  findFrom_eq c sector N _

end Cache

end JRaid
