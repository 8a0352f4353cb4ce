import JRaid.ForMathlib.StoppableLoop
import JRaid.Jmd.CacheMem

/-!
# The thread that manages the cache blocks

`memory_management_fn` waits until blocks shall be released. Its wait does not look at the stop
flag, and at the top of each pass it flushes the signals that are pending. `jmd_cache_mem_exit`
sends it `SIGINT` and then stops it. If the thread flushes the signal before it is told to stop, it
waits again, for a condition that never comes: `release_start_line` is 0, and a share of free
blocks is not below 0. Then the exit does not return (`exit_may_hang_iff`).

On a machine of fewer than 100 pages there are no blocks, and `need_release` divides by 0. With so
many blocks that a hundred times their number is no `int` the share can come out below 0, and then
the thread never waits.
-/

namespace JRaid

namespace Jmd

namespace CacheMem

open WaitLoop

/-- `release_start_line`, which nothing sets. -/
def releaseStartLine : Int32 := 0

/-- `need_release`. It stops where it would divide by 0. -/
def needRelease (m : CacheMem) : Option Bool :=
  if m.totalBlks = 0 then none
  else
    let ratio := 100 * m.freeBlks / m.totalBlks
    some (ratio < releaseStartLine)

/-- `memory_management_fn`, which does nothing after its wait, and `jmd_cache_mem_init` and
`jmd_cache_mem_exit` as far as they create and stop it. The queue is made after the thread has
been started, and nobody wakes it. -/
def memoryManagementFn : WaitLoop CacheMem Empty where
  queueMaker := .after
  flushes := true
  ready := needRelease
  clear := id
  effect e := e.elim
  wakes e := e.elim

/-! ### The condition -/

/-- A loop that comes to its end has put a block on the cold list in each pass. -/
theorem length_cold_initLoop {env : MemEnv} {n i : ℕ} {m : CacheMem}
    (h : (initLoop env n i m).1 = true) :
    (initLoop env n i m).2.cold.length = m.cold.length + n := by
  induction n generalizing i m with
  | zero => rfl
  | succ n ih =>
    rw [initLoop] at h ⊢
    split_ifs at h ⊢
    · exact (ih h).trans (Nat.succ_add_eq_add_succ _ _)

/-- With nothing refused, all blocks are free. -/
theorem blks_of_grantsAll {env : MemEnv} (ret : Int32) (h : env.GrantsAll) :
    (jmdCacheMemInit env ret).2.totalBlks = Int32.ofNat env.pages.toNat ∧
      (jmdCacheMemInit env ret).2.freeBlks = Int32.ofNat env.pages.toNat := by
  obtain ⟨i, hm, hiff⟩ := owns_start.initLoop env env.pages.toNat
  have hend := hiff.mpr fun k _ hk => h.2.1 k (by omega)
  have hlen := length_cold_initLoop hend
  rw [jmdCacheMemInit, h.1]
  dsimp only [Bool.not_true, Bool.false_eq_true, if_false]
  generalize initLoop env env.pages.toNat 0 _ = r at hm hend hlen
  obtain ⟨b, m⟩ := r
  obtain rfl : b = true := hend
  rw [h.2.2]
  refine ⟨hm.totalBlks.trans (congrArg Int32.ofNat ?_), hm.freeBlks.trans (congrArg Int32.ofNat ?_)⟩
  all_goals exact hlen.trans (Nat.zero_add _)

/-- The share of free blocks, when all of `blks` blocks are free. -/
theorem needRelease_of_count {m : CacheMem} {blks : Int32} (htotal : m.totalBlks = blks)
    (hfree : m.freeBlks = blks) :
    m.needRelease = some false ↔ blks ≠ 0 ∧ ¬100 * blks / blks < 0 := by
  rw [needRelease, htotal, hfree]
  by_cases hzero : blks = 0
  · rw [if_pos hzero]
    exact iff_of_false (fun h => by cases h) fun h => h.1 hzero
  · rw [if_neg hzero]
    exact (Option.some_inj.trans decide_eq_false_iff_not).trans (and_iff_right hzero).symm

/-- As long as a hundred times the number of blocks is an `int`, the share is not below 0. -/
theorem share_nonneg {n : ℕ} (hn : 100 * n < 2 ^ 31) :
    (Int32.ofNat n ≠ 0 ∧ ¬100 * Int32.ofNat n / Int32.ofNat n < 0) ↔ n ≠ 0 := by
  have htoInt : (Int32.ofNat n).toInt = n := Int32.toInt_ofNat_of_lt (by omega)
  have hzero : Int32.ofNat n ≠ 0 ↔ n ≠ 0 := by
    refine not_congr ⟨fun h => ?_, fun h => h ▸ rfl⟩
    rw [h] at htoInt
    have : (0 : ℤ) = n := htoInt
    omega
  rw [hzero]
  refine and_iff_left_of_imp fun _ => ?_
  have hmul : 100 * Int32.ofNat n = Int32.ofNat (100 * n) := (Int32.ofNat_mul 100 n).symm
  rw [Int32.lt_iff_toInt_lt, hmul, Int32.toInt_div_of_ne_right, htoInt, Int32.toInt_ofNat_of_lt hn]
  · exact not_lt.mpr (Int.tdiv_nonneg (by omega) (by omega))
  · intro h
    rw [h] at htoInt
    have : (-1 : ℤ) = n := htoInt
    omega

/-! ### The exit -/

/-- While the blocks stay as they are, the thread waits only if they let it. -/
theorem not_waiting {m : CacheMem} (hready : m.needRelease ≠ some false)
    {s : WaitLoop.State CacheMem} (hs : (memoryManagementFn.system m).Reachable s) :
    s.data = m ∧ s.thread.waiting = false := by
  refine hs.invariant (I := fun s => s.data = m ∧ s.thread.waiting = false) ⟨rfl, rfl⟩
    fun s e s' _ h hstep => ?_
  obtain ⟨hdata, hwait⟩ := h
  cases e with
  | thread =>
    rcases moves_of_stepThread hstep with h | h | h | h | h | h | ⟨h, hc⟩ | h | h | h | h | h | h |
      h | h | h | h
    case unready => exact absurd (hdata ▸ hc) hready
    case prepare | leave | sleep | wake | still => simp [h, ThreadPc.waiting] at hwait
    all_goals first | exact ⟨hdata, rfl⟩ | exact ⟨hdata, hwait⟩
  | stopper =>
    obtain rfl := Except.ok.inj hstep
    obtain ⟨hthread, hdata'⟩ := stepStopper_frame (L := memoryManagementFn) s
    exact ⟨hdata'.trans hdata, hthread ▸ hwait⟩
  | signal =>
    obtain rfl := Except.ok.inj hstep
    obtain ⟨hdata', -, hthread, -⟩ := sendSig_frame s
    exact ⟨hdata'.trans hdata, hthread ▸ hwait⟩
  | other e => exact e.elim

/-- The exit may wait for ever for the end of the thread, though all sides have their turn again and
again and the thread has asked for the signal. -/
def ExitMayHang (m : CacheMem) : Prop :=
  ∃ run ev, memoryManagementFn.FairRun m run ev ∧ Delivered run ev ∧
    run 0 = memoryManagementFn.start m ∧ ∀ n, (run n).stopper ≠ .done

/-- It may exactly if the thread's wait would go on. -/
theorem exitMayHang_iff (m : CacheMem) : m.ExitMayHang ↔ m.needRelease = some false := by
  constructor
  · rintro ⟨run, ev, hrun, -, -, hdone⟩
    by_contra hneed
    obtain ⟨n, hn⟩ := hrun.returns_or_stranded
    obtain ⟨-, hwait, -⟩ := hn.resolve_left (hdone n)
    have hnot := not_waiting (m := m) hneed (hrun.isRun.reachable_all n)
    cases hwait.symm.trans hnot.2
  · exact fun hneed => exists_stranded rfl hneed rfl

/-- **When `jmd_cache_mem_exit` may hang.** After a start that was refused nothing the exit may hang
exactly if there are blocks, and the share of free ones, as it is computed, is not negative. While a
hundred times the number of the blocks is an `int` this means that there are blocks to manage. -/
theorem exit_may_hang_iff {env : MemEnv} (ret : Int32) (hall : env.GrantsAll) :
    let m := (jmdCacheMemInit env ret).2
    let blks := Int32.ofNat env.pages.toNat
    (m.ExitMayHang ↔ blks ≠ 0 ∧ ¬100 * blks / blks < 0) ∧
      (100 * env.pages.toNat < 2 ^ 31 → (m.ExitMayHang ↔ 100 ≤ env.totalPages)) := by
  intro m blks
  obtain ⟨htotal, hfree⟩ := blks_of_grantsAll ret hall
  have hiff : m.ExitMayHang ↔ blks ≠ 0 ∧ ¬100 * blks / blks < 0 :=
    (exitMayHang_iff m).trans (needRelease_of_count htotal hfree)
  refine ⟨hiff, fun hsmall => ?_⟩
  have hpages : env.pages.toNat = 0 ↔ ¬100 ≤ env.totalPages := by
    rw [MemEnv.pages, cacheRatio, UInt64.mul_one, UInt64.toNat_div, UInt64.le_iff_toNat_le]
    exact (Nat.div_eq_zero_iff).trans (by simp)
  rw [hiff, share_nonneg hsmall, ne_eq, hpages, not_not]

/-- A number of pages is present, and nothing is refused. -/
def withPages (totalPages : UInt64) : MemEnv :=
  ⟨totalPages, true, fun _ => true, fun _ => true, true⟩

/-- With a hundred pages the exit may hang. With 8 TiB of memory, of which there are so many blocks
that their share overflows, it does not. -/
theorem exit_may_hang_iff_two : (jmdCacheMemInit (withPages 100) 0).2.ExitMayHang ∧
    ¬(jmdCacheMemInit (withPages 2147487744) 0).2.ExitMayHang := by
  have hall : ∀ totalPages, (withPages totalPages).GrantsAll :=
    fun _ => ⟨rfl, fun _ _ => ⟨rfl, rfl⟩, rfl⟩
  have hpages : (withPages 100).pages.toNat = 1 := by decide
  refine ⟨((exit_may_hang_iff 0 (hall 100)).2 (by omega)).mpr (by decide), fun hhang => ?_⟩
  exact absurd ((exit_may_hang_iff 0 (hall _)).1.mp hhang) (by decide)

end CacheMem

end Jmd

end JRaid
