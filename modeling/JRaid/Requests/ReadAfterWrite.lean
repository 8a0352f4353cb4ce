import JRaid.Requests.Machine

/-!
# What a read delivers

The driver moves no data between a bio and the pages of a stripe: `copy_data` is called
nowhere. A completed read therefore delivers what the memory of its bio held when it was
submitted, whatever has been written before and whatever the block layer does.
-/

namespace JRaid

variable {N : ℕ} {τ : Type} [DecidableEq τ]

/-! ### What a read should deliver -/

/-- The byte that the disks of a fully operational array hold at the start, at offset `k` of
the page that begins at the start sector of a bio. -/
def Env.initialByte (env : Env N τ) (t : τ) (k : ℕ) : UInt8 :=
  let p := env.conf.mapSector ((env.bio t).biSector + UInt64.ofNat (k / 512)) 0
  match (env.conf.disks p.ddIdx.toNat).jrdev with
  | some jrdev => env.disk jrdev.bdev p.newSector ⟨k % 512, Nat.mod_lt _ (by decide)⟩
  | none => 0

/-- The byte that a read of a page should deliver after the completed calls `earlier`, the
latest of which comes first: the byte of the latest write to the page, or the initial one. -/
def Env.expectedByte (env : Env N τ) (earlier : List (τ × (ℕ → UInt8))) (t : τ) (k : ℕ) : UInt8 :=
  match earlier.find? fun e =>
    (env.bio e.1).biRw = .write ∧ (env.bio e.1).biSector = (env.bio t).biSector with
  | some e => env.memory e.1 k
  | none => env.initialByte t k

/-- The bios are submitted one after another: a call starts when the earlier ones have
returned and no request is in flight. -/
def Sequential {m : ℕ} (s : State N (Fin m)) : Event (Fin m) → Prop
  | .run t => s.pc t = .start → (∀ u < t, s.pc u = .done) ∧ s.inflight.isEmpty
  | .complete _ => True

instance {m : ℕ} (s : State N (Fin m)) (e : Event (Fin m)) : Decidable (Sequential s e) := by
  cases e <;> unfold Sequential <;> infer_instance

/-! ### What it does deliver -/

namespace State

variable {env : Env N τ} {s : State N τ}

/-- The memory of the bios never changes, and a completed bio delivers what is in it. -/
theorem memory_reachable (hs : env.machine.Reachable s) :
    s.memory = env.memory ∧ ∀ e ∈ s.ended, e.2 = env.memory e.1 := by
  refine hs.invariant (I := fun s => s.memory = env.memory ∧ ∀ e ∈ s.ended, e.2 = env.memory e.1)
    ⟨rfl, fun e he => absurd he (List.not_mem_nil)⟩ fun s e s' _ h hstep => ?_
  obtain ⟨t, -, hrun⟩ | rfl | ⟨k, req, -, hdone⟩ := step_cases hstep
  · cases hrun with
    | finish ht hpc =>
      refine ⟨(finish_frame s t).2.2.2.trans h.1, ?_⟩
      unfold finish
      dsimp only
      split_ifs
      · intro e he
        obtain rfl | he := List.mem_cons.mp he
        · exact congrFun h.1 t
        · exact h.2 e he
      · exact h.2
    | _ => exact h
  · exact h
  · rw [hdone.memory, hdone.ended]
    exact h

/-- **A completed read delivers the right bytes exactly when its memory held them already.** -/
theorem read_delivers_iff (env : Env N τ) {s : State N τ} (hs : env.machine.Reachable s)
    {later earlier : List (τ × (ℕ → UInt8))} {t : τ} {bytes : ℕ → UInt8}
    (hended : s.ended = later ++ (t, bytes) :: earlier) :
    (∀ k < pageSize, bytes k = env.expectedByte earlier t k) ↔
      ∀ k < pageSize, env.memory t k = env.expectedByte earlier t k := by
  have hbytes : bytes = env.memory t :=
    (memory_reachable hs).2 (t, bytes) (by rw [hended]; simp)
  rw [hbytes]

/-- A page of ones is written to logical sector 0 of a blank array and completes; then the
page is read into a blank buffer, which stays blank. -/
theorem read_after_write_fails :
    let env : Env 4 (Fin 2) := { smallArray 4 allPresent [⟨0, 4096, .write⟩, ⟨0, 4096, .read⟩] with
      memory := fun t _ => if t = 0 then 1 else 0 }
    ∃ s bytes earlier, env.machine.ReachableWith Sequential s ∧ s.inflight = [] ∧
      s.ended = (1, bytes) :: earlier ∧ (env.bio 1).biRw = .read ∧
      ¬∀ k < pageSize, bytes k = env.expectedByte earlier 1 k := by
  intro env
  let es : List (Event (Fin 2)) := List.replicate 12 (.run 0) ++ [.complete 0] ++
    List.replicate 12 (.run 1) ++ [.complete 0]
  let outcome (s : State 4 (Fin 2)) :=
    (s.inflight.isEmpty, s.ended.map fun e => (e.1, e.2 0), env.expectedByte s.ended.tail 1 0)
  have hrun : (env.machine.execWith Sequential env.init es).map outcome =
      some (true, [(1, 0), (0, 1)], 1) := by decide +kernel
  obtain ⟨s, hs, hout⟩ := Option.map_eq_some_iff.mp hrun
  have hin : s.inflight.isEmpty = true := congrArg Prod.fst hout
  have hended : s.ended.map (fun e => (e.1, e.2 0)) = [(1, 0), (0, 1)] :=
    congrArg (fun o => o.2.1) hout
  have hexp : env.expectedByte s.ended.tail 1 0 = 1 := congrArg (fun o => o.2.2) hout
  obtain ⟨⟨t, bytes⟩, earlier, heq, hread, -⟩ := List.map_eq_cons_iff.mp hended
  obtain ⟨rfl, hbyte⟩ := Prod.mk.inj hread
  rw [heq, List.tail_cons] at hexp
  refine ⟨s, bytes, earlier, FallibleSystem.reachableWith_of_execWith hs,
    List.isEmpty_iff.mp hin, heq, rfl, fun h => ?_⟩
  have h0 := h 0 (by decide)
  rw [hexp, show bytes 0 = 0 from hbyte] at h0
  exact absurd h0 (by decide)

/-- A page of ones is written, and read into a buffer that holds ones already. -/
theorem read_delivers_iff_written :
    let env : Env 4 (Fin 2) := { smallArray 4 allPresent [⟨0, 4096, .write⟩, ⟨0, 4096, .read⟩] with
      memory := fun _ _ => 1 }
    ∃ s bytes written, env.machine.Reachable s ∧ s.ended = [(1, bytes), (0, written)] ∧
      env.initialByte 1 0 = 0 ∧
        ∀ k < pageSize, bytes k = env.expectedByte [(0, written)] 1 k := by
  intro env
  let es : List (Event (Fin 2)) := List.replicate 12 (.run 0) ++ [.complete 0] ++
    List.replicate 12 (.run 1) ++ [.complete 0]
  obtain ⟨s, hs, hended⟩ := FallibleSystem.exists_exec
    (f := fun s : State 4 (Fin 2) => s.ended.map Prod.fst) (v := [1, 0])
    (show (env.machine.exec env.init es).toOption.map _ = _ by decide +kernel)
  obtain ⟨⟨t, bytes⟩, rest, heq, rfl, hrest⟩ := List.map_eq_cons_iff.mp hended
  obtain ⟨⟨t, written⟩, rest, rfl, rfl, hnil⟩ := List.map_eq_cons_iff.mp hrest
  obtain rfl := List.map_eq_nil_iff.mp hnil
  have hreachable := FallibleSystem.reachable_of_exec hs
  have hended' : s.ended = [] ++ (1, bytes) :: [(0, written)] := heq
  exact ⟨s, bytes, written, hreachable, heq, by decide +kernel,
    (read_delivers_iff env hreachable hended').mpr fun k _ => rfl⟩

end State

end JRaid
