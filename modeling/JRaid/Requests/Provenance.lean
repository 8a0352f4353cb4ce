import JRaid.Requests.Machine

/-!
# Where the data of the array comes from

Only the completion of a request touches the page of a stripe, and only through the block layer. A
block layer that moves blocks of 512 bytes between the pages and the members
(`Env.MovesBlocks`) therefore moves what was there when the array was started: at all times every
sector of a member holds a block that a member or a page of a stripe held then
(`State.block_provenance`). What the bios carry never gets there.
-/

namespace JRaid

variable {N : ℕ} {τ : Type}

/-- One of the eight blocks of a page. -/
def Page.block (p : Page) (j : Fin 8) : Fin 512 → UInt8 :=
  fun k => p ⟨j * 512 + k, by
    rw [pageSize]
    omega⟩

/-- A block that is there when the array is started: in a sector of a member, or in a page that
`grow_buffers` has allocated. -/
def Env.Initial (env : Env N τ) (b : Fin 512 → UInt8) : Prop :=
  (∃ d sect, env.disk d sect = b) ∨ ∃ sh i j, Page.block (env.page sh i) j = b

/-- A block that is there when a request is carried out. -/
def Moved (page : Option Page) (disk : ℕ → Disk) (b : Fin 512 → UInt8) : Prop :=
  (∃ d sect, disk d sect = b) ∨ ∃ p j, page = some p ∧ Page.block p j = b

/-- The block layer moves blocks between the page of a request and the members. -/
structure Env.MovesBlocks (env : Env N τ) : Prop where
  page : ∀ req page disk p j, (env.transfer req page disk).1 = some p →
    Moved page disk (Page.block p j)
  disk : ∀ req page disk d sect, Moved page disk ((env.transfer req page disk).2 d sect)

theorem movesBlocks_of_copy {env : Env N τ} (h : env.transfer = MemberReq.copy) :
    env.MovesBlocks where
  page req page disk p j hp := by
    rw [h] at hp
    cases page with
    | none => cases hp
    | some q =>
      cases hrw : req.rw with
      | write =>
        simp only [MemberReq.copy, hrw] at hp
        obtain rfl := Option.some.inj hp
        exact Or.inr ⟨q, j, rfl, rfl⟩
      | read =>
        simp only [MemberReq.copy, hrw] at hp
        refine Or.inl ⟨req.bdev, req.sector + UInt64.ofNat j, ?_⟩
        rw [← Option.some.inj hp]
        funext k
        have hdiv : (j * 512 + k : ℕ) / 512 = j := by omega
        have hmod : (j * 512 + k : ℕ) % 512 = k := by omega
        simp only [Page.block, hdiv, hmod]
  disk req page disk d sect := by
    rw [h]
    cases page with
    | none => exact Or.inl ⟨d, sect, rfl⟩
    | some q =>
      cases hrw : req.rw with
      | read =>
        simp only [MemberReq.copy, hrw]
        exact Or.inl ⟨d, sect, rfl⟩
      | write =>
        simp only [MemberReq.copy, hrw]
        rcases eq_or_ne d req.bdev with rfl | hd
        · rw [Function.update_self]
          by_cases hin : (sect - req.sector).toNat < 8
          · -- a sector of the page
            refine Or.inr ⟨q, ⟨(sect - req.sector).toNat, hin⟩, rfl, funext fun k => ?_⟩
            rw [dif_pos (by rw [pageSize]; omega)]
            rfl
          · refine Or.inl ⟨req.bdev, sect, funext fun k => ?_⟩
            rw [dif_neg (by rw [pageSize]; omega)]
        · rw [Function.update_of_ne hd]
          exact Or.inl ⟨d, sect, rfl⟩

/-! ### The pages of the stripes -/

namespace R5dev

theorem page_setWant (d : R5dev τ) (v : Bool) (rw : Dir) : (d.setWant v rw).page = d.page := by
  cases rw <;> rfl

theorem page_scan (d : R5dev τ) : d.scan.page = d.page := by
  unfold scan
  dsimp only
  split_ifs <;> simp [page_setWant]

theorem page_addBio (bio : τ → Bio) (bi : τ) (rw : Dir) (d : R5dev τ) :
    (d.addBio bio bi rw).2.page = d.page := by
  rw [addBio]
  split
  · rfl
  · dsimp only
    split_ifs <;> cases rw <;> rfl

theorem page_buildBlock (conf : JRaid5Conf) (sector : UInt64) (pdIdx : Int32) (i : ℕ)
    (d : R5dev τ) : (Cache.buildBlock conf sector pdIdx i d).page = d.page := by
  rw [Cache.buildBlock]
  dsimp only
  split_ifs <;> rfl

end R5dev

namespace Cache

/-- The page of a device of a stripe. -/
def page (c : Cache N τ) (sh : Fin N) (i : ℕ) : Option Page := ((c.row sh).dev i).page

theorem page_congr {c c' : Cache N τ} (h : c'.row = c.row) : c'.page = c.page := by
  funext sh i
  rw [page, page, h]

theorem page_modifyDev (c : Cache N τ) (sh : Fin N) (i : ℕ) (f : R5dev τ → R5dev τ) (x : Fin N)
    (j : ℕ) : (c.modifyDev sh i f).page x j =
      if x = sh ∧ j = i then (f ((c.row sh).dev i)).page else c.page x j := by
  rw [page, dev_modifyDev, apply_ite R5dev.page]
  rfl

/-- What leaves the page of each device alone leaves the pages alone. -/
theorem page_modifyDev_same (c : Cache N τ) (sh : Fin N) (i : ℕ) {f : R5dev τ → R5dev τ}
    (h : ∀ d, (f d).page = d.page) : (c.modifyDev sh i f).page = c.page := by
  funext x j
  rw [page_modifyDev, h]
  split_ifs with hx
  · rw [hx.1, hx.2]
    rfl
  · rfl

theorem page_growStripes (N : ℕ) (τ : Type) (conf : JRaid5Conf) (page : Fin N → ℕ → Page)
    (sh : Fin N) (i : ℕ) : (growStripes N τ conf page).page sh i =
      if i < conf.numDisks then some (page sh i) else none := by
  rw [growStripes_eq]
  change (if i < conf.numDisks then _ else _ : R5dev τ).page = _
  rw [apply_ite R5dev.page]
  rfl

end Cache

namespace State

variable [DecidableEq τ] {env : Env N τ} {s s' : State N τ} {t : τ}

/-- **No step of a thread touches a page.** -/
theorem page_of_runs (hrun : Runs env s t s') : s'.cache.page = s.cache.page := by
  cases hrun with
  | hit ht hpc hhit => exact Cache.page_congr hhit.row
  | @miss b sh c ht hpc hmiss =>
    funext x i
    change ((c.row x).dev i).page = ((s.cache.row x).dev i).page
    rw [hmiss.row, Function.update_apply]
    split_ifs with hx
    · rw [hx, Cache.initRow]
      dsimp only
      split_ifs
      · exact R5dev.page_buildBlock _ _ _ _ _
      · rfl
    · rfl
  | add ht hpc => exact Cache.page_modifyDev_same _ _ _ (R5dev.page_addBio env.bio t _)
  | scan hpc => exact Cache.page_modifyDev_same _ _ _ R5dev.page_scan
  | parity hpc => exact Cache.page_modifyDev_same _ _ _ fun _ => rfl
  | request hpc hsub =>
    exact (Cache.page_congr hsub.row).trans
      (Cache.page_modifyDev_same _ _ _ fun d => R5dev.page_setWant d false _)
  | postpone hpc hpost =>
    exact (Cache.page_congr hpost.row).trans
      (Cache.page_modifyDev_same _ _ _ fun d => R5dev.page_setWant d false _)
  | release ht hpc => exact Cache.page_congr (Cache.row_releaseStripe _ _)
  | releaseDaemon ht hpc => exact Cache.page_congr (Cache.row_releaseStripe _ _)
  | finish ht hpc => rw [(finish_frame s t).1]
  | take ht hpc htaken => exact Cache.page_congr htaken.row
  | _ => rfl

/-- No step of a thread touches the members. -/
theorem disk_of_runs (hrun : Runs env s t s') : s'.disk = s.disk := by
  cases hrun with
  | finish ht hpc =>
    rw [finish]
    dsimp only
    split_ifs <;> rfl
  | _ => rfl

omit [DecidableEq τ] in
/-- **The completion of a request carries it out**: it writes the page of its device and the
members as the block layer says. -/
theorem carried_out (env : Env N τ) (s : State N τ) (k : ℕ) :
    ((s.complete env k).cache.page = s.cache.page ∧ (s.complete env k).disk = s.disk) ∨
      ∃ req ∈ s.inflight,
        let done := env.transfer req (s.cache.page req.sh req.dev) s.disk
        (∀ x j, (s.complete env k).cache.page x j =
          if x = req.sh ∧ j = req.dev then done.1 else s.cache.page x j) ∧
        (s.complete env k).disk = done.2 := by
  rw [complete]
  cases hk : s.inflight[k]? with
  | none => exact Or.inl ⟨rfl, rfl⟩
  | some req =>
    refine Or.inr ⟨req, List.mem_of_getElem? hk, fun x j => ?_, rfl⟩
    refine (congrFun (congrFun (Cache.page_congr (Cache.row_releaseStripe _ _)) x) j).trans ?_
    exact Cache.page_modifyDev _ _ _ _ _ _

/-! ### The blocks -/

/-- What the members and the pages hold was there when the array was started. -/
structure BlockInv (env : Env N τ) (s : State N τ) : Prop where
  disk : ∀ d sect, env.Initial (s.disk d sect)
  page : ∀ sh i p j, s.cache.page sh i = some p → env.Initial (Page.block p j)

omit [DecidableEq τ] in
/-- A block that a request moves was there when the array was started. -/
private theorem BlockInv.initial_of_moved (h : BlockInv env s) {sh : Fin N} {i : ℕ}
    {b : Fin 512 → UInt8} (hb : Moved (s.cache.page sh i) s.disk b) : env.Initial b := by
  obtain ⟨d, sect, rfl⟩ | ⟨p, j, hp, rfl⟩ := hb
  · exact h.disk d sect
  · exact h.page sh i p j hp

theorem BlockInv.reachable (hmoves : env.MovesBlocks) (hs : env.machine.Reachable s) :
    BlockInv env s := by
  refine hs.invariant (I := BlockInv env) ⟨fun d sect => Or.inl ⟨d, sect, rfl⟩,
    fun sh i p j hp => ?_⟩ fun s e s' _ h hstep => ?_
  · have hgrow := Cache.page_growStripes N τ env.conf env.page sh i
    rw [show env.machine.init.cache.page sh i = _ from hgrow] at hp
    split_ifs at hp
    exact Or.inr ⟨sh, i, j, by rw [Option.some.inj hp]⟩
  · cases e with
    | run t =>
      have hrun := runThread_runs hstep
      exact ⟨disk_of_runs hrun ▸ h.disk, page_of_runs hrun ▸ h.page⟩
    | complete k =>
      obtain rfl := Except.ok.inj hstep
      obtain ⟨hpage, hdisk⟩ | ⟨req, -, hpage, hdisk⟩ := carried_out env s k
      · exact ⟨hdisk ▸ h.disk, hpage ▸ h.page⟩
      · refine ⟨fun d sect => ?_, fun x i p j hp => ?_⟩
        · rw [hdisk]
          exact h.initial_of_moved (hmoves.disk _ _ _ _ _)
        · rw [hpage] at hp
          split_ifs at hp
          · exact h.initial_of_moved (hmoves.page _ _ _ p j hp)
          · exact h.page x i p j hp

/-- **Where the data of the array comes from.** In every reachable state each sector of a member,
and each block of a page of a stripe, holds a block that was in a sector of a member or in a page
of a stripe when the array was started. -/
theorem block_provenance (env : Env N τ) (hmoves : env.MovesBlocks) {s : State N τ}
    (hs : env.machine.Reachable s) :
    (∀ d sect, env.Initial (s.disk d sect)) ∧
      ∀ sh i p j, ((s.cache.row sh).dev i).page = some p → env.Initial (Page.block p j) :=
  ⟨(BlockInv.reachable hmoves hs).disk, (BlockInv.reachable hmoves hs).page⟩

/-- A page of ones is written to a blank array with blank stripes, and no sector of a member is
ever found to hold ones. -/
theorem block_provenance_blank :
    let env : Env 1 (Fin 1) := { smallArray 1 allPresent [⟨0, 4096, .write⟩] with
      memory := fun _ _ => 1 }
    ∃ s, env.machine.exec env.init (List.replicate 12 (.run 0) ++ [.complete 0]) = .ok s ∧
      s.pc 0 = .done ∧ ∀ d sect, s.disk d sect = fun _ => 0 := by
  intro env
  obtain ⟨s, hs, hpc⟩ := FallibleSystem.exists_exec (f := fun s : State 1 (Fin 1) => s.pc 0)
    (v := .done) (show (env.machine.exec env.init (List.replicate 12 (.run 0) ++
      [.complete 0])).toOption.map _ = _ by decide +kernel)
  obtain ⟨hdisk, -⟩ := block_provenance env (movesBlocks_of_copy rfl)
    (FallibleSystem.reachable_of_exec hs)
  refine ⟨s, hs, hpc, fun d sect => ?_⟩
  obtain ⟨d', sect', h⟩ | ⟨sh, i, j, h⟩ := hdisk d sect
  · exact h.symm
  · exact h.symm

end State

end JRaid
