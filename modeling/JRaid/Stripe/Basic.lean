import JRaid.Geometry.ComputeBlocknr
import JRaid.ForMathlib.PprevChain
import JRaid.ForMathlib.RefPool

/-!
# Stripes and the stripe cache

The data of the stripe cache: bios, the per-device part of a stripe (`R5dev`), stripes
(`StripeHead`) and the part of `struct jraid5_conf` that changes while the array runs
(`Cache`). Stripes are addressed by `Fin N`, where `N` is the number of stripes that
`grow_stripes` allocates; a bio is addressed by an element of an arbitrary type `τ`, and a
chain of bios linked by `bi_next` is the list of their addresses.

The invariants speak about a cache through three views: its hash table (`Cache.table`, a
`PprevChain.Table`), its reference counts and lists (`Cache.pool`, a `RefPool`), and the row
of blocks that each stripe holds (`Cache.row`). Each operation on the cache is specified by
what it does to the three.

The counters `count` and `active_stripes` are `atomic_t`; they count threads, requests and
stripes, and are modelled by integers. The field `report` collects the diagnostics that the
driver prints where it finds a list or a counter in an impossible state and goes on.
-/

namespace JRaid

open PprevChain

/-! ### Sizes -/

/-- `PAGE_SIZE`, also `STRIPE_SIZE`. -/
def pageSize : ℕ := 4096

/-- `STRIPE_SECTORS`. -/
def stripeSectors : UInt64 := 8

/-- `NR_STRIPES`. -/
def nrStripes : ℕ := 1024

/-- `NR_HASH`: one page of pointers. -/
def nrHash : ℕ := 512

/-- `HASH_MASK`. -/
def hashMask : UInt64 := 511

/-- The contents of a page. -/
abbrev Page := Fin pageSize → UInt8

/-! ### Bios -/

/-- The direction of a bio. -/
inductive Dir where
  | read
  | write
  deriving DecidableEq, Repr

/-- The fields of an upper-level bio that the driver reads. -/
structure Bio where
  biSector : UInt64
  biSize : UInt32
  biRw : Dir
  deriving DecidableEq, Repr

/-- `bi_size >> 9`, the number of sectors of a bio. -/
def Bio.sectors (b : Bio) : UInt64 := (b.biSize >>> 9).toUInt64

/-- `bi_sector + (bi_size >> 9)`. -/
def Bio.sectorEnd (b : Bio) : UInt64 := b.biSector + b.sectors

/-! ### Stripes -/

/-- The bits of `r5dev.flags`. -/
structure R5Flags where
  uptodate : Bool
  locked : Bool
  overwrite : Bool
  insync : Bool
  wantread : Bool
  wantwrite : Bool
  overlap : Bool
  deriving DecidableEq, Repr

/-- `flags = 0`. -/
def R5Flags.zero : R5Flags := ⟨false, false, false, false, false, false, false⟩

/-- The part of a stripe that belongs to one device. -/
structure R5dev (τ : Type) where
  toread : List τ
  towrite : List τ
  written : List τ
  sector : UInt64
  flags : R5Flags
  page : Option Page

/-- `struct stripe_head`. -/
structure StripeHead (N : ℕ) (τ : Type) where
  hashNext : Option (Fin N)
  hashPprev : Option (Link (Fin nrHash) (Fin N))
  sector : UInt64
  pdIdx : Int32
  /-- the bit `STRIPE_HANDLE` of `state` -/
  handle : Bool
  count : ℤ
  dev : ℕ → R5dev τ

/-- What a stripe says about its row of blocks. -/
structure Row (τ : Type) where
  sector : UInt64
  pdIdx : Int32
  dev : ℕ → R5dev τ

/-- The row of a stripe. -/
def StripeHead.row {N : ℕ} {τ : Type} (s : StripeHead N τ) : Row τ := ⟨s.sector, s.pdIdx, s.dev⟩

/-- A device of a stripe after `memset(sh, 0, …)`. -/
def R5dev.zero {τ : Type} : R5dev τ := ⟨[], [], [], 0, R5Flags.zero, none⟩

/-- A stripe after `memset(sh, 0, …)`. -/
def StripeHead.zero {N : ℕ} {τ : Type} : StripeHead N τ :=
  ⟨none, none, 0, 0, false, 0, fun _ => R5dev.zero⟩

/-- The bios queued on a device in one direction. -/
def R5dev.queue {τ : Type} (d : R5dev τ) : Dir → List τ
  | .read => d.toread
  | .write => d.towrite

/-- The bit that asks for a request in one direction. -/
def R5dev.want {τ : Type} (d : R5dev τ) : Dir → Bool
  | .read => d.flags.wantread
  | .write => d.flags.wantwrite

theorem R5dev.want_congr {τ : Type} {d d' : R5dev τ} (h : d'.flags = d.flags) (rw : Dir) :
    d'.want rw = d.want rw := by
  cases rw
  · exact congrArg R5Flags.wantread h
  · exact congrArg R5Flags.wantwrite h

/-- What `__init_stripe` must not find on a device: a queued bio or a locked block. -/
def R5dev.Pending {τ : Type} (d : R5dev τ) : Prop :=
  d.toread ≠ [] ∨ d.towrite ≠ [] ∨ d.written ≠ [] ∨ d.flags.locked = true

instance {τ : Type} (d : R5dev τ) : Decidable d.Pending :=
  inferInstanceAs (Decidable (_ ∨ _ ∨ _ ∨ _))

/-! ### The cache -/

/-- The diagnostics that are printed instead of stopping. -/
inductive Report where
  | releaseLru
  | releaseActive
  | activeLru
  | shrinkCount
  deriving DecidableEq, Repr

/-- What ends a run: a `BUG()`, or a chain walk that does not end. -/
inductive Stop where
  /-- `get_active_stripe`: an idle stripe of the table is on no list -/
  | activeLru
  /-- `__init_stripe`: the stripe is referred to -/
  | initCount
  /-- `__init_stripe`: the stripe is to be handled -/
  | initHandle
  /-- `__init_stripe`: a device has a queued bio or is locked -/
  | initPending
  /-- `jraid5d`: a stripe of `handle_list` is referred to -/
  | daemonCount
  /-- `__find_stripe` does not reach the end of its chain -/
  | chain
  deriving DecidableEq, Repr

/-- The part of `struct jraid5_conf` that changes while the array runs, together with the
stripes themselves. -/
structure Cache (N : ℕ) (τ : Type) where
  stripeHashtbl : Fin nrHash → Option (Fin N)
  stripe : Fin N → StripeHead N τ
  inactiveList : List (Fin N)
  handleList : List (Fin N)
  activeStripes : ℤ
  report : List Report

namespace Cache

variable {N : ℕ} {τ : Type}

/-- The cache before `grow_stripes`: no stripe is on a list. -/
def empty : Cache N τ := ⟨fun _ => none, fun _ => StripeHead.zero, [], [], 0, []⟩

/-- Write one stripe. -/
def modify (c : Cache N τ) (sh : Fin N) (f : StripeHead N τ → StripeHead N τ) : Cache N τ :=
  { c with stripe := Function.update c.stripe sh (f (c.stripe sh)) }

/-- Write one device of one stripe. -/
def modifyDev (c : Cache N τ) (sh : Fin N) (i : ℕ) (f : R5dev τ → R5dev τ) : Cache N τ :=
  c.modify sh fun s => { s with dev := Function.update s.dev i (f (s.dev i)) }

/-- Print a diagnostic if a condition holds. -/
def printIf (c : Cache N τ) (p : Prop) [Decidable p] (r : Report) : Cache N τ :=
  if p then { c with report := c.report ++ [r] } else c

/-- `!list_empty(&sh->lru)`: the stripe is on a list. -/
def OnList (c : Cache N τ) (sh : Fin N) : Prop := sh ∈ c.inactiveList ∨ sh ∈ c.handleList

instance (c : Cache N τ) (sh : Fin N) : Decidable (c.OnList sh) :=
  inferInstanceAs (Decidable (_ ∨ _))

/-! ### Views -/

/-- The hash table of the cache. -/
def table (c : Cache N τ) : Table (Fin nrHash) (Fin N) where
  head := c.stripeHashtbl
  next sh := (c.stripe sh).hashNext
  pprev sh := (c.stripe sh).hashPprev

/-- The reference counts, the `STRIPE_HANDLE` bits and the two lists. -/
def pool (c : Cache N τ) : RefPool (Fin N) where
  count sh := (c.stripe sh).count
  marked sh := (c.stripe sh).handle
  free := c.inactiveList
  work := c.handleList
  live := c.activeStripes

/-- The rows of the stripes. -/
def row (c : Cache N τ) (sh : Fin N) : Row τ := (c.stripe sh).row

/-- The stripe is in the hash table. -/
def Hashed (c : Cache N τ) (sh : Fin N) : Prop := c.table.pprev sh ≠ none

/-- A stripe that can be reused: no device has a queued bio or is locked. -/
def Clean (c : Cache N τ) (sh : Fin N) : Prop := ∀ i, ¬((c.row sh).dev i).Pending

/-! ### What writing a stripe does to the views -/

@[simp]
theorem stripe_modify (c : Cache N τ) (sh x : Fin N) (f : StripeHead N τ → StripeHead N τ) :
    (c.modify sh f).stripe x = if x = sh then f (c.stripe sh) else c.stripe x := by
  simp [modify, Function.update_apply]

theorem table_modify (c : Cache N τ) {sh : Fin N} {f : StripeHead N τ → StripeHead N τ}
    (hnext : (f (c.stripe sh)).hashNext = (c.stripe sh).hashNext)
    (hpprev : (f (c.stripe sh)).hashPprev = (c.stripe sh).hashPprev) :
    (c.modify sh f).table = c.table := by
  refine Table.ext rfl (funext fun x => ?_) (funext fun x => ?_)
  all_goals
    by_cases hx : x = sh
    · subst hx
      simpa [table]
    · simp [table, hx]

theorem pool_modify (c : Cache N τ) {sh : Fin N} {f : StripeHead N τ → StripeHead N τ}
    (hcount : (f (c.stripe sh)).count = (c.stripe sh).count)
    (hhandle : (f (c.stripe sh)).handle = (c.stripe sh).handle) :
    (c.modify sh f).pool = c.pool := by
  refine RefPool.ext (funext fun x => ?_) (funext fun x => ?_) rfl rfl rfl
  all_goals
    by_cases hx : x = sh
    · subst hx
      simpa [pool]
    · simp [pool, hx]

theorem row_modify (c : Cache N τ) {sh : Fin N} {f : StripeHead N τ → StripeHead N τ}
    (hrow : (f (c.stripe sh)).row = (c.stripe sh).row) : (c.modify sh f).row = c.row := by
  funext x
  by_cases hx : x = sh
  · subst hx
    simpa [row]
  · simp [row, hx]

theorem sector_modify (c : Cache N τ) {sh : Fin N} {f : StripeHead N τ → StripeHead N τ}
    (hsector : (f (c.stripe sh)).sector = (c.stripe sh).sector) (x : Fin N) :
    ((c.modify sh f).row x).sector = (c.row x).sector := by
  by_cases hx : x = sh
  · subst hx
    simpa [row, StripeHead.row]
  · simp [row, hx]

/-! ### Writing a device -/

section ModifyDev

variable (c : Cache N τ) (sh : Fin N) (i : ℕ) (f : R5dev τ → R5dev τ)

@[simp]
theorem table_modifyDev : (c.modifyDev sh i f).table = c.table := table_modify c rfl rfl

@[simp]
theorem pool_modifyDev : (c.modifyDev sh i f).pool = c.pool := pool_modify c rfl rfl

@[simp]
theorem sector_modifyDev (x : Fin N) : ((c.modifyDev sh i f).row x).sector = (c.row x).sector :=
  sector_modify c rfl x

@[simp]
theorem pdIdx_modifyDev (x : Fin N) : ((c.modifyDev sh i f).row x).pdIdx = (c.row x).pdIdx := by
  by_cases hx : x = sh
  · subst hx
    simp [row, StripeHead.row, modifyDev]
  · simp [row, modifyDev, hx]

theorem dev_modifyDev (x : Fin N) (j : ℕ) :
    ((c.modifyDev sh i f).row x).dev j =
      if x = sh ∧ j = i then f ((c.row sh).dev i) else (c.row x).dev j := by
  by_cases hx : x = sh
  · subst hx
    by_cases hj : j = i
    · subst hj
      simp [row, StripeHead.row, modifyDev]
    · simp [row, StripeHead.row, modifyDev, hj]
  · simp [row, modifyDev, hx]

end ModifyDev

end Cache

end JRaid
