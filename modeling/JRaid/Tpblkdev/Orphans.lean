import JRaid.Tpblkdev.Device

/-!
# Concurrent insertions

`dev_insert_page` looks the block up in one critical section and inserts a new one in another, with
the allocations between them. Two calls for the same index can both find nothing; the second
insertion then fails, which is only reported, and the call returns a block that the tree does not
hold. This is the only way: every block that is returned is the one in the tree exactly if each call
comes to its insertion with the index still free (`noOrphans_always_iff`).

A call alone does what `dev_insert_page` does to the device of the other modules
(`iterate_stepCall_alone`).
-/

namespace JRaid

namespace Tpblkdev

namespace Concurrent

/-- A block, and the address at which it lies. -/
structure BlkPtr (α : Type) where
  ptr : α
  blk : IoBlk

/-- Where a call of `dev_insert_page` is. -/
inductive InsertPc (α : Type) where
  /-- not called yet -/
  | idle
  /-- before `dev_lookup_blk` -/
  | lookup (sector : UInt64)
  /-- before `kmem_cache_zalloc` -/
  | zalloc (sector : UInt64)
  /-- before `alloc_page`, with the address of the block -/
  | allocPage (sector : UInt64) (ptr : α)
  /-- before `radix_tree_preload` -/
  | preload (sector : UInt64) (ptr : α) (page : Page)
  /-- before `radix_tree_insert` -/
  | insert (sector : UInt64) (ptr : α) (page : Page)
  /-- returned -/
  | done (sector : UInt64) (ret : Option (BlkPtr α))

/-- What the calls `ι` share: the tree and the addresses that are allocated; and where they are. -/
structure InsertState (ι α : Type) where
  devPages : TaggedTree ℕ (BlkPtr α) Tag
  live : Finset α
  calls : ι → InsertPc α

/-- What the kernel answers to a step of a call. -/
structure CallEnv (α : Type) where
  /-- `kmem_cache_zalloc` -/
  ptr : Option α
  /-- `alloc_page`, and what is in the page -/
  page : Option Page
  /-- `radix_tree_preload` succeeds -/
  preload : Bool

/-- A call is made, or the next step of one. -/
inductive InsertEvent (ι α : Type) where
  | call (c : ι) (sector : UInt64)
  | step (c : ι) (env : CallEnv α)

variable {ι α : Type} [DecidableEq ι] [DecidableEq α]

/-- Move a call. -/
def InsertState.setCall (s : InsertState ι α) (c : ι) (pc : InsertPc α) : InsertState ι α :=
  { s with calls := Function.update s.calls c pc }

/-- The next step of a call. The kernel does not answer with an address that is allocated. -/
def InsertState.stepCall (s : InsertState ι α) (c : ι) (env : CallEnv α) : InsertState ι α :=
  match s.calls c with
  | .idle => s
  | .lookup sector =>
    match s.devPages.item (blkIndex sector) with
    | some blk => s.setCall c (.done sector (some blk))
    | none => s.setCall c (.zalloc sector)
  | .zalloc sector =>
    match env.ptr with
    | none => s.setCall c (.done sector none)
    | some ptr =>
      if ptr ∈ s.live then s
      else { s with live := insert ptr s.live }.setCall c (.allocPage sector ptr)
  | .allocPage sector ptr =>
    match env.page with
    | none => { s with live := s.live.erase ptr }.setCall c (.done sector none)
    | some page => s.setCall c (.preload sector ptr page)
  | .preload sector ptr page =>
    if !env.preload then s.setCall c (.done sector none)
    else s.setCall c (.insert sector ptr page)
  | .insert sector ptr page =>
    let idx := blkIndex sector
    let blk : BlkPtr α := ⟨ptr, idx, page⟩
    { s with devPages := (s.devPages.insert idx blk).getD s.devPages }.setCall c
      (.done sector (some blk))
  | .done _ _ => s

/-- **The calls and the tree**: every interleaving of any number of calls. -/
def insertSystem : FallibleSystem (InsertState ι α) (InsertEvent ι α) Empty where
  init := ⟨.empty, ∅, fun _ => .idle⟩
  step s
    | .call c sector =>
      match s.calls c with
      | .idle => .ok (s.setCall c (.lookup sector))
      | _ => .ok s
    | .step c env => .ok (s.stepCall c env)

/-- Every block that has been returned is the one that the tree holds at its index. -/
def NoOrphans (s : InsertState ι α) : Prop :=
  ∀ c sector blk, s.calls c = .done sector (some blk) →
    s.devPages.item (blkIndex sector) = some blk

/-- A call that comes to its insertion finds the index still free. -/
def InsertsFree (s : InsertState ι α) : InsertEvent ι α → Prop
  | .call _ _ => True
  | .step c _ => ∀ sector ptr page, s.calls c = .insert sector ptr page →
      blkIndex sector ∉ s.devPages.keys

/-- The address of the block that a call has allocated and not inserted yet. -/
def InsertPc.held : InsertPc α → Option α
  | .allocPage _ ptr => some ptr
  | .preload _ ptr _ => some ptr
  | .insert _ ptr _ => some ptr
  | _ => none

/-- The blocks that the calls work on are theirs alone. -/
structure Sound (s : InsertState ι α) : Prop where
  held_live : ∀ c p, (s.calls c).held = some p → p ∈ s.live
  held_out : ∀ c p, (s.calls c).held = some p → ∀ i b, s.devPages.item i = some b → b.ptr ≠ p
  held_inj : ∀ c c' p, (s.calls c).held = some p → (s.calls c').held = some p → c = c'
  item_live : ∀ i b, s.devPages.item i = some b → b.ptr ∈ s.live

/-! ### One step -/

variable {s : InsertState ι α} {c : ι} {pc : InsertPc α}

omit [DecidableEq α] in
theorem calls_setCall (s : InsertState ι α) (c c' : ι) (pc : InsertPc α) :
    (s.setCall c pc).calls c' = if c' = c then pc else s.calls c' :=
  Function.update_apply ..

omit [DecidableEq α] in
/-- What is held once a call has been moved. -/
theorem held_setCall {c' : ι} {p : α} (h : ((s.setCall c pc).calls c').held = some p) :
    (c' = c ∧ pc.held = some p) ∨ (c' ≠ c ∧ (s.calls c').held = some p) := by
  rw [calls_setCall] at h
  split_ifs at h with hc
  · exact Or.inl ⟨hc, h⟩
  · exact Or.inr ⟨hc, h⟩

omit [DecidableEq α] in
/-- A call that is moved holds nothing that it has not held before. -/
theorem Sound.setCall (h : Sound s)
    (hheld : ∀ p, pc.held = some p → (s.calls c).held = some p) : Sound (s.setCall c pc) := by
  have hcalls : ∀ c' p, ((s.setCall c pc).calls c').held = some p →
      (s.calls c').held = some p := by
    intro c' p hp
    obtain ⟨hc, hpc⟩ | ⟨-, hpc⟩ := held_setCall hp
    · exact hc ▸ hheld p hpc
    · exact hpc
  exact ⟨fun c' p hp => h.held_live c' p (hcalls c' p hp),
    fun c' p hp => h.held_out c' p (hcalls c' p hp),
    fun c₁ c₂ p h₁ h₂ => h.held_inj c₁ c₂ p (hcalls c₁ p h₁) (hcalls c₂ p h₂), h.item_live⟩

/-- A block is allocated. -/
theorem Sound.zalloc (h : Sound s) {ptr : α} (hptr : ptr ∉ s.live) (sector : UInt64) :
    Sound ({ s with live := insert ptr s.live }.setCall c (.allocPage sector ptr)) := by
  have hnew : ∀ c', (s.calls c').held ≠ some ptr := fun c' hp => hptr (h.held_live c' ptr hp)
  refine ⟨fun c' p hp => ?_, fun c' p hp i b hb => ?_, fun c₁ c₂ p h₁ h₂ => ?_,
    fun i b hb => Finset.mem_insert_of_mem (h.item_live i b hb)⟩
  · obtain ⟨-, hp⟩ | ⟨-, hp⟩ := held_setCall hp
    · obtain rfl : ptr = p := Option.some.inj hp
      exact Finset.mem_insert_self ..
    · exact Finset.mem_insert_of_mem (h.held_live c' p hp)
  · obtain ⟨-, hp⟩ | ⟨-, hp⟩ := held_setCall hp
    · obtain rfl : ptr = p := Option.some.inj hp
      exact fun hbp => hptr (hbp ▸ h.item_live i b hb)
    · exact h.held_out c' p hp i b hb
  · obtain ⟨hc₁, h₁⟩ | ⟨-, h₁⟩ := held_setCall h₁ <;>
      obtain ⟨hc₂, h₂⟩ | ⟨-, h₂⟩ := held_setCall h₂
    · rw [hc₁, hc₂]
    · exact absurd (h₂.trans h₁.symm) (hnew c₂)
    · exact absurd (h₁.trans h₂.symm) (hnew c₁)
    · exact h.held_inj c₁ c₂ p h₁ h₂

omit [DecidableEq α] in
/-- A call that returns holds nothing any more. -/
theorem held_done {sector : UInt64} {ret : Option (BlkPtr α)} {c' : ι} {p : α}
    (h : ((s.setCall c (.done sector ret)).calls c').held = some p) :
    c' ≠ c ∧ (s.calls c').held = some p := by
  obtain ⟨-, hp⟩ | hp := held_setCall h
  · cases hp
  · exact hp

/-- A block is freed again. -/
theorem Sound.free (h : Sound s) {ptr : α} (hheld : (s.calls c).held = some ptr)
    (sector : UInt64) :
    Sound ({ s with live := s.live.erase ptr }.setCall c (.done sector none)) := by
  refine ⟨fun c' p hp => ?_, fun c' p hp => h.held_out c' p (held_done hp).2,
    fun c₁ c₂ p h₁ h₂ => h.held_inj c₁ c₂ p (held_done h₁).2 (held_done h₂).2, fun i b hb =>
      Finset.mem_erase.mpr ⟨h.held_out c ptr hheld i b hb, h.item_live i b hb⟩⟩
  obtain ⟨hc, hp⟩ := held_done hp
  refine Finset.mem_erase.mpr ⟨fun hpp => ?_, h.held_live c' p hp⟩
  exact hc (h.held_inj c' c p hp (hpp ▸ hheld))

omit [DecidableEq α] in
/-- A call comes to its insertion. -/
theorem Sound.insert (h : Sound s) {ptr : α} (hheld : (s.calls c).held = some ptr)
    {T : TaggedTree ℕ (BlkPtr α) Tag}
    (hT : ∀ i b, T.item i = some b → s.devPages.item i = some b ∨ b.ptr = ptr)
    (sector : UInt64) (ret : Option (BlkPtr α)) :
    Sound ({ s with devPages := T }.setCall c (.done sector ret)) := by
  refine ⟨fun c' p hp => h.held_live c' p (held_done hp).2, fun c' p hp i b hb => ?_,
    fun c₁ c₂ p h₁ h₂ => h.held_inj c₁ c₂ p (held_done h₁).2 (held_done h₂).2, fun i b hb => ?_⟩
  · obtain ⟨hc, hp⟩ := held_done hp
    obtain hb | hb := hT i b hb
    · exact h.held_out c' p hp i b hb
    · exact fun hbp => hc (h.held_inj c' c p hp (by rw [hheld, ← hb, hbp]))
  · obtain hb | hb := hT i b hb
    · exact h.item_live i b hb
    · exact hb ▸ h.held_live c ptr hheld

omit [DecidableEq α] in
/-- A call that is moved endangers its own result only. -/
theorem noOrphans_setCall (h : NoOrphans s)
    (hpc : ∀ sector blk, pc = .done sector (some blk) →
      s.devPages.item (blkIndex sector) = some blk) : NoOrphans (s.setCall c pc) := by
  intro c' sector blk hdone
  rw [calls_setCall] at hdone
  split_ifs at hdone with hc
  · exact hpc sector blk hdone
  · exact h c' sector blk hdone

omit [DecidableEq α] in
/-- The index is free: the block goes into the tree, and the others stay. -/
theorem noOrphans_insert (h : NoOrphans s) {sector : UInt64} {blk : BlkPtr α}
    {T : TaggedTree ℕ (BlkPtr α) Tag} (hT : s.devPages.insert (blkIndex sector) blk = some T) :
    NoOrphans ({ s with devPages := T }.setCall c (.done sector (some blk))) := by
  obtain ⟨hfree, hitem, -, -⟩ := TaggedTree.insert_spec hT
  refine noOrphans_setCall (fun c' sector' blk' hdone => ?_) fun sector' blk' hdone => ?_
  · have hold := h c' sector' blk' hdone
    have hne : blkIndex sector' ≠ blkIndex sector := fun hne =>
      hfree (hne ▸ (s.devPages.mem_keys _).mpr (hold ▸ rfl))
    exact (congrFun hitem _).trans ((Function.update_of_ne hne ..).trans hold)
  · obtain ⟨rfl, hblk⟩ := InsertPc.done.inj hdone
    rw [← hblk]
    exact (congrFun hitem _).trans (Function.update_self ..)

omit [DecidableEq α] in
/-- The index is taken: the tree holds the block of another call. -/
theorem not_noOrphans_of_held (hs : Sound s) {blk : BlkPtr α}
    (hheld : (s.calls c).held = some blk.ptr) (sector : UInt64) :
    ¬ NoOrphans (s.setCall c (.done sector (some blk))) := fun hno => by
  have hitem : s.devPages.item (blkIndex sector) = some blk :=
    hno c sector blk ((calls_setCall ..).trans (if_pos rfl))
  exact hs.held_out c blk.ptr hheld _ _ hitem rfl

omit [DecidableEq α] in
/-- A call goes on with what it holds, and does not return a block. -/
theorem setCall_goesOn (hs : Sound s) (h : NoOrphans s)
    (hheld : pc.held = none ∨ pc.held = (s.calls c).held)
    (hret : ∀ sector blk, pc ≠ .done sector (some blk)) :
    Sound (s.setCall c pc) ∧ NoOrphans (s.setCall c pc) := by
  refine ⟨hs.setCall fun p hp => ?_, noOrphans_setCall h fun sector blk hd =>
    absurd hd (hret sector blk)⟩
  rcases hheld with hnone | hsame
  · rw [hnone] at hp
    cases hp
  · exact hsame ▸ hp

/-- The steps of a call before its insertion. -/
theorem stepCall_before (c : ι) (env : CallEnv α) (hs : Sound s) (h : NoOrphans s)
    (hpc : ∀ sector ptr page, s.calls c ≠ .insert sector ptr page) :
    Sound (s.stepCall c env) ∧ NoOrphans (s.stepCall c env) := by
  unfold InsertState.stepCall
  cases hcall : s.calls c with
  | idle => exact ⟨hs, h⟩
  | lookup sector =>
    dsimp only
    cases hitem : s.devPages.item (blkIndex sector) with
    | none => exact setCall_goesOn hs h (Or.inl rfl) (by simp)
    | some blk =>
      have hnone : ∀ p, (InsertPc.done sector (some blk)).held = some p →
          (s.calls c).held = some p := fun p hp => by cases hp
      refine ⟨hs.setCall hnone, noOrphans_setCall h fun sector' blk' hdone => ?_⟩
      obtain ⟨rfl, hblk⟩ := InsertPc.done.inj hdone
      exact hitem.trans hblk
  | zalloc sector =>
    dsimp only
    cases env.ptr with
    | none => exact setCall_goesOn hs h (Or.inl rfl) (by simp)
    | some ptr =>
      dsimp only
      split_ifs with hlive
      · exact ⟨hs, h⟩
      · exact ⟨hs.zalloc hlive sector, noOrphans_setCall h (by simp)⟩
  | allocPage sector ptr =>
    dsimp only
    have hheld : (s.calls c).held = some ptr := by rw [hcall]; rfl
    cases env.page with
    | none => exact ⟨hs.free hheld sector, noOrphans_setCall h (by simp)⟩
    | some page => exact setCall_goesOn hs h (Or.inr hheld.symm) (by simp)
  | preload sector ptr page =>
    dsimp only
    have hheld : (s.calls c).held = some ptr := by rw [hcall]; rfl
    split_ifs
    · exact setCall_goesOn hs h (Or.inl rfl) (by simp)
    · exact setCall_goesOn hs h (Or.inr hheld.symm) (by simp)
  | insert sector ptr page => exact absurd hcall (hpc sector ptr page)
  | done sector ret => exact ⟨hs, h⟩

/-- **What the insertion does to the results**: they are in the tree exactly if the index was
free. -/
theorem stepCall_insert (env : CallEnv α) (hs : Sound s) (h : NoOrphans s) {sector : UInt64}
    {ptr : α} {page : Page} (hcall : s.calls c = .insert sector ptr page) :
    Sound (s.stepCall c env) ∧
      (NoOrphans (s.stepCall c env) ↔ blkIndex sector ∉ s.devPages.keys) := by
  have hheld : (s.calls c).held = some ptr := by rw [hcall]; rfl
  rw [InsertState.stepCall, hcall]
  dsimp only
  by_cases hi : blkIndex sector ∈ s.devPages.keys
  · rw [TaggedTree.insert_eq_none hi, Option.getD_none]
    exact ⟨hs.insert hheld (fun i b hb => Or.inl hb) sector _,
      iff_of_false (not_noOrphans_of_held hs hheld sector) (not_not.mpr hi)⟩
  · obtain ⟨T, hT⟩ := TaggedTree.exists_insert hi (⟨ptr, blkIndex sector, page⟩ : BlkPtr α)
    rw [hT, Option.getD_some]
    refine ⟨hs.insert hheld (fun i b hb => ?_) sector _, iff_of_true (noOrphans_insert h hT) hi⟩
    exact (TaggedTree.item_cases_of_insert hT hb).imp_right (congrArg BlkPtr.ptr)

/-- What an event does to the results. -/
theorem exists_step (e : InsertEvent ι α) (hs : Sound s) (h : NoOrphans s) :
    ∃ s', insertSystem.step s e = .ok s' ∧ Sound s' ∧ (NoOrphans s' ↔ InsertsFree s e) := by
  cases e with
  | call c sector =>
    cases hcall : s.calls c with
    | idle =>
      obtain ⟨hs', h'⟩ : Sound (s.setCall c (.lookup sector)) ∧ _ :=
        setCall_goesOn hs h (Or.inl rfl) (by simp)
      exact ⟨_, by simp only [insertSystem, hcall], hs', iff_of_true h' trivial⟩
    | _ => exact ⟨s, by simp only [insertSystem, hcall], hs, iff_of_true h trivial⟩
  | step c env =>
    refine ⟨_, rfl, ?_⟩
    by_cases hpc : ∃ sector ptr page, s.calls c = .insert sector ptr page
    · obtain ⟨sector, ptr, page, hcall⟩ := hpc
      obtain ⟨hs', hiff⟩ := stepCall_insert env hs h hcall
      refine ⟨hs', hiff.trans ⟨fun hi sector' ptr' page' hcall' => ?_,
        fun hguard => hguard sector ptr page hcall⟩⟩
      obtain ⟨rfl, -, -⟩ := InsertPc.insert.inj (hcall.symm.trans hcall')
      exact hi
    · have hnot : ∀ sector ptr page, s.calls c ≠ .insert sector ptr page :=
        fun sector ptr page hcall => hpc ⟨sector, ptr, page, hcall⟩
      obtain ⟨hs', h'⟩ := stepCall_before c env hs h hnot
      exact ⟨hs', iff_of_true h' fun sector ptr page hcall =>
        absurd hcall (hnot sector ptr page)⟩

/-! ### One call alone -/

/-- What the kernel answers to a call, without the address. -/
def CallEnv.toInsertEnv (env : CallEnv α) : InsertEnv := ⟨env.ptr.isSome, env.page, env.preload⟩

/-- A call for the sector has returned, with the block and the tree of the result `r`. -/
def Returned (s : InsertState ι α) (c : ι) (sector : UInt64) (r : Option IoBlk × DummyDevice) :
    Prop :=
  ∃ ret, s.calls c = .done sector ret ∧ ret.map BlkPtr.blk = r.1 ∧
    s.devPages.map BlkPtr.blk = r.2.devPages

variable {env : CallEnv α} {sector : UInt64} {r : Option IoBlk × DummyDevice}

/-- Once a call has returned, its further steps change nothing. -/
theorem returned_setCall {ret : Option (BlkPtr α)} (hret : ret.map BlkPtr.blk = r.1)
    (htree : s.devPages.map BlkPtr.blk = r.2.devPages) (n : ℕ) :
    Returned ((fun s => s.stepCall c env)^[n] (s.setCall c (.done sector ret))) c sector r := by
  have hdone : (s.setCall c (.done sector ret)).calls c = .done sector ret :=
    (calls_setCall ..).trans (if_pos rfl)
  rw [Function.iterate_fixed (by rw [InsertState.stepCall, hdone]) n]
  exact ⟨ret, hdone, hret, htree⟩

/-- **A call alone does what `dev_insert_page` does**, if the address that it is given is new. -/
theorem iterate_stepCall_alone (hcall : s.calls c = .lookup sector)
    (hnew : ∀ p, env.ptr = some p → p ∉ s.live) {ddev : DummyDevice}
    (hddev : ddev.devPages = s.devPages.map BlkPtr.blk) :
    Returned ((fun s => s.stepCall c env)^[5] s) c sector
      (ddev.devInsertPage env.toInsertEnv sector) := by
  have hself : ∀ (s : InsertState ι α) (pc : InsertPc α), (s.setCall c pc).calls c = pc :=
    fun s pc => (calls_setCall ..).trans (if_pos rfl)
  have hlookup : ddev.devPages.item (blkIndex sector) =
      (s.devPages.item (blkIndex sector)).map BlkPtr.blk := by
    rw [hddev, TaggedTree.item_map]
  -- one step after the other, until the call returns
  rw [Function.iterate_succ_apply, InsertState.stepCall, hcall]
  dsimp only
  cases hitem : s.devPages.item (blkIndex sector) with
  | some blk =>
    rw [hitem, Option.map_some] at hlookup
    rw [DummyDevice.devInsertPage, hlookup]
    exact returned_setCall rfl hddev.symm 4
  | none =>
    have hfree : blkIndex sector ∉ ddev.devPages.keys := by
      rw [ddev.devPages.mem_keys, hlookup, hitem, Option.map_none]
      exact Bool.false_ne_true
    have hrefused : env.toInsertEnv.grants = false →
        ddev.devInsertPage env.toInsertEnv sector = (none, ddev) :=
      DummyDevice.devInsertPage_eq_none hfree
    rw [Function.iterate_succ_apply, InsertState.stepCall, hself]
    cases hptr : env.ptr with
    | none =>
      rw [hrefused (by simp [CallEnv.toInsertEnv, InsertEnv.grants, hptr])]
      exact returned_setCall rfl hddev.symm 3
    | some p =>
      dsimp only
      rw [if_neg (show p ∉ (s.setCall c (.zalloc sector)).live from hnew p hptr),
        Function.iterate_succ_apply, InsertState.stepCall, hself]
      cases hpage : env.page with
      | none =>
        rw [hrefused (by simp [CallEnv.toInsertEnv, InsertEnv.grants, hpage])]
        exact returned_setCall rfl hddev.symm 2
      | some page =>
        dsimp only
        rw [Function.iterate_succ_apply, InsertState.stepCall, hself]
        cases hpreload : env.preload with
        | false =>
          rw [hrefused (by simp [CallEnv.toInsertEnv, InsertEnv.grants, hpreload])]
          exact returned_setCall rfl hddev.symm 1
        | true =>
          dsimp only
          rw [if_neg (show ¬ (!true) = true from Bool.false_ne_true), Function.iterate_one,
            InsertState.stepCall, hself]
          have hgranted : ddev.devInsertPage env.toInsertEnv sector =
              (some ⟨blkIndex sector, page⟩, { ddev with
                devPages := (ddev.devPages.insert (blkIndex sector) ⟨blkIndex sector, page⟩).getD
                  ddev.devPages }) := by
            rw [DummyDevice.devInsertPage, hlookup, hitem]
            simp only [CallEnv.toInsertEnv, hptr, hpage, hpreload]
            rfl
          rw [hgranted, hddev]
          -- the insertion fails here if it fails there
          have hinsert := TaggedTree.map_insert BlkPtr.blk s.devPages (blkIndex sector)
            ⟨p, blkIndex sector, page⟩
          exact ⟨some ⟨p, blkIndex sector, page⟩, hself .., rfl, (Option.getD_map ..).symm.trans
            (congrArg (Option.getD · (s.devPages.map BlkPtr.blk)) hinsert.symm)⟩

/-! ### Runs -/

theorem sound_init : Sound (insertSystem : FallibleSystem (InsertState ι α) _ _).init :=
  ⟨fun _ _ hp => (by cases hp), fun _ _ hp => (by cases hp), fun _ _ _ hp => (by cases hp),
    fun _ _ hb => (by cases hb)⟩

/-- **Exactly when no block is an orphan.** In every interleaving, every block that has been
returned is the one that the tree holds at its index, throughout the run, exactly if each call that
comes to its insertion finds the index still free. -/
theorem noOrphans_always_iff (es : List (InsertEvent ι α)) :
    insertSystem.Always NoOrphans insertSystem.init es ↔
      insertSystem.Allows InsertsFree insertSystem.init es :=
  FallibleSystem.always_iff_allows (I := Sound) (fun _ e hs h => exists_step e hs h) sound_init
    (fun _ _ _ hdone => (by cases hdone)) es

/-- Two calls look for the block of sector 0 before either inserts it. -/
theorem orphan_returned :
    let env (p : ℕ) : CallEnv ℕ := ⟨some p, some fun _ => 0, true⟩
    let es : List (InsertEvent Bool ℕ) := [.call true 0, .call false 0,
      .step true (env 1), .step false (env 2), .step true (env 1), .step true (env 1),
      .step true (env 1), .step true (env 1), .step false (env 2), .step false (env 2),
      .step false (env 2), .step false (env 2)]
    ¬ insertSystem.Always NoOrphans insertSystem.init es := by
  intro env es h
  have hitem := h.exec rfl false 0 ⟨2, 0, fun _ => 0⟩ rfl
  have hptr : some 1 = some 2 := congrArg (Option.map BlkPtr.ptr) hitem
  exact absurd hptr (by decide)

end Concurrent

end Tpblkdev

end JRaid
