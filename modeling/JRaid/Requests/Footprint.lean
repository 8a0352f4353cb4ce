import JRaid.Requests.Provenance
import JRaid.Requests.Windows

/-!
# What the array writes to its members

A write request is submitted for a device on which a write is queued, and only there. So,
with a block layer that transfers the page of a request and nothing else
(`Env.TransfersPages`), the sectors of the members that differ from what they held at the
start are sectors of the pages that write calls map to (`State.member_footprint`).

In particular nothing is ever submitted for the parity disk of a row. If the calls start at
page boundaries, the parity blocks of the members hold for ever what they held at the start
(`State.parity_never_written`), whatever data is written beside them.
-/

namespace JRaid

variable {N : ℕ} {τ : Type}

/-- A sector lies in the page that starts at another one. -/
def InPageOf (start sector : UInt64) : Prop := sector - start < stripeSectors

instance (start sector : UInt64) : Decidable (InPageOf start sector) :=
  inferInstanceAs (Decidable (_ < _))

/-- The block layer carries out a request as it is documented to do, as far as the members are
concerned: a read leaves them alone, and a write changes sectors of its page on its member
only. -/
structure Env.TransfersPages (env : Env N τ) : Prop where
  read : ∀ req page disk, req.rw = .read → (env.transfer req page disk).2 = disk
  write : ∀ req page disk d sect, req.rw = .write → ¬(d = req.bdev ∧ InPageOf req.sector sect) →
    (env.transfer req page disk).2 d sect = disk d sect

theorem transfersPages_of_copy {env : Env N τ} (h : env.transfer = MemberReq.copy) :
    env.TransfersPages where
  read req page disk hrw := by
    rw [h]
    cases page <;> simp [MemberReq.copy, hrw]
  write req page disk d sect hrw hout := by
    rw [h]
    cases page with
    | none => simp [MemberReq.copy]
    | some p =>
      simp only [MemberReq.copy, hrw]
      rcases eq_or_ne d req.bdev with rfl | hd
      · have hfar : 8 ≤ (sect - req.sector).toNat := by
          by_contra hlt
          exact hout ⟨rfl, UInt64.lt_iff_toNat_lt.mpr (by
            rw [show stripeSectors.toNat = 8 from rfl]
            omega)⟩
        funext k
        rw [Function.update_self, dif_neg]
        rw [pageSize]
        omega
      · rw [Function.update_of_ne hd]

/-- The slots of the member table hold different devices, as `analyze_sbs` makes sure. -/
def Env.MembersApart (env : Env N τ) : Prop :=
  ∀ i j jrdev jrdev', (env.conf.disks i).jrdev = some jrdev →
    (env.conf.disks j).jrdev = some jrdev' → jrdev.bdev = jrdev'.bdev → i = j

/-- The calls start at page boundaries, and chunks consist of whole pages, as `do_jmd_run` makes
sure. -/
structure Env.PageAligned (env : Env N τ) : Prop where
  chunk : stripeSectors.toNat ∣ env.conf.sectorsPerChunk
  call : ∀ t b, env.thread t = .makeRequest b → stripeSectors.toNat ∣ b.biSector.toNat

namespace State

variable {env : Env N τ} {s s' : State N τ} {t : τ}

/-- A write call whose page on its member contains a sector, and which has been through
`__add_stripe_bio`. -/
structure WritesSector (env : Env N τ) (s : State N τ) (t : τ) (d : ℕ) (sect : UInt64) :
    Prop where
  call : ∃ b, env.thread t = .makeRequest b ∧ b.biRw = .write
  member : ∃ jrdev, (env.conf.disks (env.dev t)).jrdev = some jrdev ∧ jrdev.bdev = d
  page : InPageOf (env.place t).newSector sect
  added : (s.pc t).added = true

/-- What has changed on the members has been changed by write calls, and the requests in flight
go to the members of their devices. -/
structure FootprintInv (env : Env N τ) (s : State N τ) : Prop where
  changed : ∀ d sect, s.disk d sect ≠ env.disk d sect → ∃ t, WritesSector env s t d sect
  member : ∀ req ∈ s.inflight, ∃ jrdev, (env.conf.disks req.dev).jrdev = some jrdev ∧
    req.bdev = jrdev.bdev

variable [DecidableEq τ]

/-- Only the completion of a request touches the members. -/
private theorem disk_of_step {e : Event τ} (h : env.machine.step s e = .ok s') :
    s'.disk = s.disk ∨ ∃ req ∈ s.inflight, ∃ page,
      s'.disk = (env.transfer req page s.disk).2 := by
  cases e with
  | run t => exact Or.inl (disk_of_runs (runThread_runs h))
  | complete k =>
    obtain rfl := Except.ok.inj h
    obtain ⟨-, heq⟩ | ⟨req, hreq, -, heq⟩ := carried_out env s k
    · exact Or.inl heq
    · exact Or.inr ⟨req, hreq, _, heq⟩

/-- A call that has been through `__add_stripe_bio` stays behind it. -/
private theorem added_of_step [Fintype τ] (hinv : Inv env s) {e : Event τ}
    (h : env.machine.step s e = .ok s') {u : τ} (hu : (s.pc u).added = true) :
    (s'.pc u).added = true := by
  obtain hkeep | ⟨t, sh, c, hpc, -, -, rfl⟩ := hinv.keeps_or_miss h
  · exact hkeep.added u hu
  · rwa [pc_goto_of_ne]
    rintro rfl
    rcases hpc with hpc | hpc <;> rw [hpc] at hu <;> cases hu

/-- The requests that a step submits go to the members of their devices. -/
private theorem member_of_step (h : FootprintInv env s) {e : Event τ}
    (hstep : env.machine.step s e = .ok s') {req : MemberReq N τ} (hreq : req ∈ s'.inflight) :
    ∃ jrdev, (env.conf.disks req.dev).jrdev = some jrdev ∧ req.bdev = jrdev.bdev := by
  obtain ⟨t, -, hrun⟩ | rfl | ⟨k, r, -, hdone⟩ := step_cases hstep
  · cases hrun with
    | @request sh i r c hpc hsub =>
      obtain hold | hnew := List.mem_append.mp hreq
      · exact h.member req hold
      · obtain rfl := List.mem_singleton.mp hnew
        obtain ⟨jrdev, hdisk, hr⟩ := hsub.member
        rw [hr]
        exact ⟨jrdev, hdisk, rfl⟩
    | finish ht hpc =>
      obtain ⟨-, -, hin, -⟩ := finish_frame s t
      exact h.member req (hin ▸ hreq)
    | _ => exact h.member req hreq
  · exact h.member req hreq
  · rw [hdone.inflight] at hreq
    exact h.member req (List.mem_of_mem_eraseIdx hreq)

variable [Fintype τ]

/-- A write request in flight was submitted for a write call. -/
private theorem writesSector_of_inflight (hv : env.Supported) (hs : env.machine.Reachable s)
    (h : FootprintInv env s) {req : MemberReq N τ} (hreq : req ∈ s.inflight)
    (hrw : req.rw = .write) {sect : UInt64} (hin : InPageOf req.sector sect) :
    ∃ t, WritesSector env s t req.bdev sect := by
  have hjust := (Inv.reachable hv hs).queues.inflight req hreq
  obtain ⟨u, hu⟩ := List.exists_mem_of_ne_nil _ hjust.bios
  have hq := (Inv.reachable hv hs).queues.queued _ _ _ u (hjust.queued hu)
  obtain ⟨b, hb⟩ := hq.call
  obtain ⟨-, hsector⟩ := (SectorInv.reachable hv hs).request req hreq
  obtain ⟨jrdev, hdisk, hbdev⟩ := h.member req hreq
  refine ⟨u, ⟨b, hb, ?_⟩, ⟨jrdev, ?_, hbdev.symm⟩, ?_, hq.added⟩
  · rw [← hrw, ← hq.dir, Env.bio, hb]
  · rw [← hq.dev, hdisk]
  · rwa [← hq.sector, ← hsector]

theorem FootprintInv.reachable (hv : env.Supported) (hpage : env.TransfersPages)
    (hs : env.machine.Reachable s) : FootprintInv env s := by
  refine hs.invariant (I := FootprintInv env) ⟨fun d sect hne => absurd rfl hne, fun _ h => by
    cases h⟩ fun s e s' hs h hstep => ⟨fun d sect hne => ?_, fun req => member_of_step h hstep⟩
  have hinv := Inv.reachable hv hs
  suffices hw : ∃ t, WritesSector env s t d sect by
    obtain ⟨t, ht⟩ := hw
    exact ⟨t, ht.call, ht.member, ht.page, added_of_step hinv hstep ht.added⟩
  obtain heq | ⟨req, hreq, page, heq⟩ := disk_of_step hstep
  · exact h.changed d sect (heq ▸ hne)
  · by_cases hold : s.disk d sect = env.disk d sect
    · -- the sector changes in this step
      rw [heq, ← hold] at hne
      cases hrw : req.rw with
      | read => exact absurd (by rw [hpage.read req page s.disk hrw]) hne
      | write =>
        obtain ⟨rfl, hin⟩ : d = req.bdev ∧ InPageOf req.sector sect := by
          by_contra hout
          exact hne (hpage.write req page s.disk d sect hrw hout)
        exact writesSector_of_inflight hv hs h hreq hrw hin
    · exact h.changed d sect hold

/-- **What the array writes to its members.** In every reachable state a sector of a member
that does not hold what it held at the start lies in the page that some write call maps to, on
the member that the call maps to, and the call has been through `__add_stripe_bio`. -/
theorem member_footprint (env : Env N τ) (hv : env.Supported) (hpage : env.TransfersPages)
    {s : State N τ} (hs : env.machine.Reachable s) (d : ℕ) (sect : UInt64)
    (hne : s.disk d sect ≠ env.disk d sect) :
    ∃ t b jrdev, env.thread t = .makeRequest b ∧ b.biRw = .write ∧ (s.pc t).added = true ∧
      (env.conf.disks (env.dev t)).jrdev = some jrdev ∧ jrdev.bdev = d ∧
      InPageOf (env.place t).newSector sect := by
  obtain ⟨t, ⟨b, hb, hrw⟩, ⟨jrdev, hdisk, hd⟩, hin, hadded⟩ :=
    (FootprintInv.reachable hv hpage hs).changed d sect hne
  exact ⟨t, b, jrdev, hb, hrw, hadded, hdisk, hd, hin⟩

/-- An array of blank disks whose stripe pages hold ones, with a write to its first block. -/
def onesArray : Env 1 (Fin 1) :=
  { smallArray 1 allPresent [⟨0, 4096, .write⟩] with page := fun _ _ _ => 1 }

theorem supported_onesArray : onesArray.Supported :=
  let h := Env.supported_smallArray 1 allPresent [⟨0, 4096, .write⟩]
  ⟨h.level, h.algorithm, h.disks, h.chunk⟩

/-- When the write is done, the first byte of the first disk has changed. -/
theorem exists_onesArray_written : ∃ s, onesArray.machine.exec onesArray.init
    (List.replicate 12 (.run 0) ++ [.complete 0]) = .ok s ∧ s.disk 0 0 0 = 1 :=
  FallibleSystem.exists_exec
    (show (onesArray.machine.exec onesArray.init (List.replicate 12 (.run 0) ++
      [.complete 0])).toOption.map (fun s => s.disk 0 0 0) = some 1 by decide +kernel)

/-- The write accounts for the change. -/
theorem member_footprint_ones :
    ∃ s, onesArray.machine.Reachable s ∧ s.disk 0 0 ≠ onesArray.disk 0 0 ∧
      ∃ t b jrdev, onesArray.thread t = .makeRequest b ∧ b.biRw = .write ∧
        (s.pc t).added = true ∧ (onesArray.conf.disks (onesArray.dev t)).jrdev = some jrdev ∧
        jrdev.bdev = 0 ∧ InPageOf (onesArray.place t).newSector 0 := by
  obtain ⟨s, hs, hbyte⟩ := exists_onesArray_written
  have hne : s.disk 0 0 ≠ onesArray.disk 0 0 := fun h => by
    rw [h] at hbyte
    exact absurd hbyte (by decide)
  have hreach := FallibleSystem.reachable_of_exec (S := onesArray.machine) hs
  exact ⟨s, hreach, hne,
    member_footprint onesArray supported_onesArray (transfersPages_of_copy rfl) hreach 0 0 hne⟩

/-! ### The parity blocks -/

omit [DecidableEq τ] [Fintype τ] in
/-- The page of an aligned call lies in one chunk of its member. -/
private theorem chunk_of_inPageOf (hv : env.Supported) (h : env.PageAligned) {b : Bio}
    (ht : env.thread t = .makeRequest b) {sect : UInt64}
    (hin : InPageOf (env.place t).newSector sect) :
    sect.toNat / env.conf.sectorsPerChunk =
      (env.place t).newSector.toNat / env.conf.sectorsPerChunk := by
  have hbio : env.bio t = b := by rw [Env.bio, ht]
  have hstart : stripeSectors.toNat ∣ (env.place t).newSector.toNat := by
    obtain ⟨-, hnew, -⟩ :=
      JRaid5Conf.toNat_mapSector hv.layout hv.disks hv.chunk (env.bio t).biSector 0
    rw [Env.place, hnew, hbio]
    exact Nat.dvd_add (Dvd.dvd.mul_left h.chunk _) ((Nat.dvd_mod_iff h.chunk).mpr (h.call t b ht))
  obtain ⟨k, hk⟩ := hstart
  obtain ⟨m, hm⟩ := h.chunk
  have hlt := UInt64.lt_iff_toNat_lt.mp hin
  have h8 : stripeSectors.toNat = 8 := rfl
  rw [h8] at hk hm hlt
  rw [UInt64.toNat_sub] at hlt
  have hpage : sect.toNat / 8 = (env.place t).newSector.toNat / 8 := by
    have := sect.toNat_lt
    have := (env.place t).newSector.toNat_lt
    omega
  rw [hm, ← Nat.div_div_eq_div_mul, ← Nat.div_div_eq_div_mul, hpage]

omit [DecidableEq τ] [Fintype τ] in
/-- The parity blocks are outside of the footprint of aligned calls. -/
theorem FootprintInv.parity (h : FootprintInv env s) (hv : env.Supported)
    (hapart : env.MembersApart) (halign : env.PageAligned) {i : ℕ} {jrdev : JmdRdev}
    (hi : (env.conf.disks i).jrdev = some jrdev) {sect : UInt64}
    (hparity : env.conf.parityDisk (sect.toNat / env.conf.sectorsPerChunk) = i) :
    s.disk jrdev.bdev sect = env.disk jrdev.bdev sect := by
  by_contra hne
  obtain ⟨t, ⟨b, hb, -⟩, ⟨jrdev', hdisk, hd⟩, hin, -⟩ := h.changed _ _ hne
  have hdev : env.dev t = i := hapart _ _ jrdev' jrdev hdisk hi hd
  rw [chunk_of_inPageOf hv halign hb hin] at hparity
  exact hv.dev_ne_parity t (hdev.trans hparity.symm)

/-- **Parity is never written.** If the calls are aligned to pages, then in every reachable state
every sector of a member that belongs to a parity block, that is a block of a row whose parity
disk the member is, holds what it held at the start. -/
theorem parity_never_written (env : Env N τ) (hv : env.Supported) (hpage : env.TransfersPages)
    (hapart : env.MembersApart) (halign : env.PageAligned) {s : State N τ}
    (hs : env.machine.Reachable s) {i : ℕ} {jrdev : JmdRdev}
    (hi : (env.conf.disks i).jrdev = some jrdev) {sect : UInt64}
    (hparity : env.conf.parityDisk (sect.toNat / env.conf.sectorsPerChunk) = i) :
    s.disk jrdev.bdev sect = env.disk jrdev.bdev sect :=
  (FootprintInv.reachable hv hpage hs).parity hv hapart halign hi hparity

/-- The data block has been written, and the parity block of its row is blank as before. -/
theorem parity_never_written_ones :
    ∃ s, onesArray.machine.Reachable s ∧ s.disk 0 0 0 = 1 ∧ s.disk 2 0 = onesArray.disk 2 0 := by
  obtain ⟨s, hs, hbyte⟩ := exists_onesArray_written
  have hreach := FallibleSystem.reachable_of_exec (S := onesArray.machine) hs
  refine ⟨s, hreach, hbyte, ?_⟩
  refine parity_never_written onesArray supported_onesArray (transfersPages_of_copy rfl)
    (fun i j r r' hi hj h => ?_) ⟨by decide, fun t b ht => ?_⟩ hreach
    (show (onesArray.conf.disks 2).jrdev = some ⟨2⟩ from rfl)
    (by decide)
  · obtain rfl := Option.some.inj hi
    obtain rfl := Option.some.inj hj
    exact h
  · obtain rfl : t = 0 := Subsingleton.elim t 0
    obtain rfl := Thread.makeRequest.inj ht
    decide

end State

end JRaid
