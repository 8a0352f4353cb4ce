import JRaid.Stripe.Cache
import JRaid.ForMathlib.FallibleSystem

/-!
# The hash table invariant

`HashInv conf c` says that the chains of the hash table hold exactly the hashed stripes,
each in the bucket of its sector, and that no two of them have the same sector. Every
operation on the cache preserves it. The delicate one is a miss of `get_active_stripe`: the
free stripe leaves its chain under the old sector and enters the chain of the new one, and
no other stripe has the new sector because the search, made under the same lock, has failed.
-/

namespace JRaid

open PprevChain

namespace Cache

variable {N : ℕ} {τ : Type}

/-- The hash table invariant. -/
structure HashInv (conf : JRaid5Conf) (c : Cache N τ) : Prop where
  wf : ∃ chain, c.table.Wf (fun sh => stripeHash conf (c.row sh).sector) chain
  unique : ∀ sh sh', c.Hashed sh → c.Hashed sh' → (c.row sh).sector = (c.row sh').sector →
    sh = sh'

namespace HashInv

variable {conf : JRaid5Conf} {c c' : Cache N τ}

/-! ### Searching -/

/-- **`__find_stripe` finds the hashed stripe of a sector**, and its walk ends. -/
theorem findStripe (h : HashInv conf c) (sector : UInt64) :
    ∃ f, findStripe conf c sector = some f ∧
      ∀ sh, f = some sh ↔ c.Hashed sh ∧ (c.row sh).sector = sector := by
  obtain ⟨chain, hwf⟩ := h.wf
  have hfind := hwf.find (fun sh => decide ((c.row sh).sector = sector)) (stripeHash conf sector)
  rw [Fintype.card_fin] at hfind
  refine ⟨_, (findStripe_eq conf c sector).trans hfind, fun sh => ⟨fun hsh => ?_, fun hsh => ?_⟩⟩
  · have hmem := (hwf.mem_iff _ _).mp (List.mem_of_find?_eq_some hsh)
    exact ⟨hmem.1, by simpa using List.find?_some hsh⟩
  · have hmem : sh ∈ chain (stripeHash conf sector) :=
      (hwf.mem_iff _ _).mpr ⟨hsh.1, by rw [hsh.2]⟩
    have hsome : ((chain (stripeHash conf sector)).find?
        fun sh => decide ((c.row sh).sector = sector)).isSome :=
      List.find?_isSome.mpr ⟨sh, hmem, by simpa using hsh.2⟩
    obtain ⟨sh', hsh'⟩ := Option.isSome_iff_exists.mp hsome
    have hmem' := (hwf.mem_iff _ _).mp (List.mem_of_find?_eq_some hsh')
    have hsec' : (c.row sh').sector = sector := by simpa using List.find?_some hsh'
    rw [hsh', h.unique sh' sh hmem'.1 hsh.1 (hsec'.trans hsh.2.symm)]

/-- A search that fails proves that no hashed stripe has the sector. -/
theorem not_hashed_of_find (h : HashInv conf c) {sector : UInt64}
    (hf : Cache.findStripe conf c sector = some none) {sh : Fin N} (hsh : c.Hashed sh) :
    (c.row sh).sector ≠ sector := by
  obtain ⟨f, hf', hiff⟩ := h.findStripe sector
  rw [hf] at hf'
  intro e
  have := (hiff sh).mpr ⟨hsh, e⟩
  rw [← Option.some.inj hf'] at this
  cases this

/-- A search that succeeds. -/
theorem hashed_of_find (h : HashInv conf c) {sector : UInt64} {sh : Fin N}
    (hf : Cache.findStripe conf c sector = some (some sh)) :
    c.Hashed sh ∧ (c.row sh).sector = sector := by
  obtain ⟨f, hf', hiff⟩ := h.findStripe sector
  rw [hf] at hf'
  exact (hiff sh).mp (Option.some.inj hf').symm

/-! ### Preservation -/

/-- Only the table and the sectors of the hashed stripes matter. -/
theorem congr (h : HashInv conf c) (htable : c'.table = c.table)
    (hsector : ∀ sh, c.Hashed sh → (c'.row sh).sector = (c.row sh).sector) : HashInv conf c' := by
  have hhashed : ∀ sh, c'.Hashed sh → c.Hashed sh := fun sh hsh => by rwa [Hashed, htable] at hsh
  obtain ⟨chain, hwf⟩ := h.wf
  refine ⟨⟨chain, ?_⟩, fun sh sh' hsh hsh' e => ?_⟩
  · rw [htable]
    exact hwf.congr_key fun sh hsh => by rw [hsector sh hsh]
  · refine h.unique sh sh' (hhashed sh hsh) (hhashed sh' hsh') ?_
    rwa [← hsector sh (hhashed sh hsh), ← hsector sh' (hhashed sh' hsh')]

/-- Writing anything else of a stripe. -/
theorem modify (h : HashInv conf c) {sh : Fin N} {f : StripeHead N τ → StripeHead N τ}
    (hnext : (f (c.stripe sh)).hashNext = (c.stripe sh).hashNext)
    (hpprev : (f (c.stripe sh)).hashPprev = (c.stripe sh).hashPprev)
    (hsector : (f (c.stripe sh)).sector = (c.stripe sh).sector) : HashInv conf (c.modify sh f) :=
  h.congr (table_modify c hnext hpprev) fun x _ => sector_modify c hsector x

theorem modifyDev (h : HashInv conf c) (sh : Fin N) (i : ℕ) (f : R5dev τ → R5dev τ) :
    HashInv conf (c.modifyDev sh i f) :=
  h.modify rfl rfl rfl

/-- The hashed stripes after one has been taken out of the table. -/
theorem hashed_unlink (h : HashInv conf c) {sh : Fin N} (htable : c'.table = c.table.unlink sh)
    (x : Fin N) : c'.Hashed x ↔ x ≠ sh ∧ c.Hashed x := by
  obtain ⟨chain, hwf⟩ := h.wf
  rw [Hashed, htable]
  exact hwf.pprev_unlink_ne_none sh x

/-- Taking a stripe out of the table, after which its sector may change. -/
theorem unlink (h : HashInv conf c) {sh : Fin N} (htable : c'.table = c.table.unlink sh)
    (hrow : ∀ x, x ≠ sh → (c'.row x).sector = (c.row x).sector) : HashInv conf c' := by
  obtain ⟨chain, hwf⟩ := h.wf
  refine ⟨⟨_, htable ▸ hwf.unlink sh fun x hx => by rw [hrow x hx]⟩, fun x y hx hy e => ?_⟩
  obtain ⟨hxs, hx⟩ := (h.hashed_unlink htable x).mp hx
  obtain ⟨hys, hy⟩ := (h.hashed_unlink htable y).mp hy
  rw [hrow x hxs, hrow y hys] at e
  exact h.unique x y hx hy e

/-- The hashed stripes after one has been given another sector. -/
theorem hashed_relink (h : HashInv conf c) {sh : Fin N} {sector : UInt64}
    (htable : c'.table = (c.table.unlink sh).insert (stripeHash conf sector) sh) (x : Fin N) :
    c'.Hashed x ↔ x = sh ∨ c.Hashed x := by
  obtain ⟨chain, hwf⟩ := h.wf
  have hwf' := hwf.unlink sh fun (x : Fin N) (hx : x ≠ sh) =>
    Function.update_of_ne hx (stripeHash conf sector) fun sh => stripeHash conf (c.row sh).sector
  have hnone : (c.table.unlink sh).pprev sh = none := by rw [Table.pprev_unlink, if_pos rfl]
  have hins := hwf'.pprev_insert_ne_none hnone x
  rw [Function.update_self] at hins
  rw [Hashed, htable, hins, hwf.pprev_unlink_ne_none]
  by_cases hx : x = sh
  · simp [hx]
  · simp [hx, Hashed]

/-- **Giving a stripe a sector that no hashed stripe has** keeps the invariant. -/
theorem relink (h : HashInv conf c) {sh : Fin N} {sector : UInt64}
    (hnew : ∀ x, c.Hashed x → (c.row x).sector ≠ sector)
    (htable : c'.table = (c.table.unlink sh).insert (stripeHash conf sector) sh)
    (hsh : (c'.row sh).sector = sector)
    (hrow : ∀ x, x ≠ sh → (c'.row x).sector = (c.row x).sector) : HashInv conf c' := by
  obtain ⟨chain, hwf⟩ := h.wf
  have hwf' := hwf.unlink sh fun (x : Fin N) (hx : x ≠ sh) =>
    show stripeHash conf (c'.row x).sector = stripeHash conf (c.row x).sector by rw [hrow x hx]
  have hnone : (c.table.unlink sh).pprev sh = none := by rw [Table.pprev_unlink, if_pos rfl]
  have hins := hwf'.insert hnone
  rw [hsh] at hins
  refine ⟨⟨_, htable ▸ hins⟩, fun x y hx hy e => ?_⟩
  rw [h.hashed_relink htable] at hx hy
  by_cases hxs : x = sh
  · by_cases hys : y = sh
    · exact hxs.trans hys.symm
    · rw [hxs, hsh, hrow y hys] at e
      exact absurd e.symm (hnew y (hy.resolve_left hys))
  · by_cases hys : y = sh
    · rw [hys, hsh, hrow x hxs] at e
      exact absurd e (hnew x (hx.resolve_left hxs))
    · rw [hrow x hxs, hrow y hys] at e
      exact h.unique x y (hx.resolve_left hxs) (hy.resolve_left hys) e

/-! ### The operations -/

theorem growStripes (conf : JRaid5Conf) (page : Fin N → ℕ → Page) :
    HashInv conf (Cache.growStripes N τ conf page) := by
  have htable := table_growStripes N τ conf page
  refine ⟨⟨_, htable ▸ Table.Wf.empty _⟩, fun sh _ hsh => ?_⟩
  rw [Hashed, htable] at hsh
  exact absurd rfl hsh

theorem releaseStripe (h : HashInv conf c) (sh : Fin N) : HashInv conf (c.releaseStripe sh) :=
  h.congr (table_releaseStripe c sh) fun x _ => by rw [row_releaseStripe]

theorem hit (h : HashInv conf c) {sector : UInt64} {sh : Fin N} (hh : Hit conf c sector sh c') :
    HashInv conf c' :=
  h.congr hh.table fun x _ => by rw [hh.row]

theorem miss (h : HashInv conf c) {sector : UInt64} {pdIdx : Int32} {sh : Fin N}
    (hm : Miss conf c sector pdIdx sh c') : HashInv conf c' :=
  h.relink (fun _ => h.not_hashed_of_find hm.find) hm.table hm.sector_self
    fun x hx => by rw [hm.row, Function.update_of_ne hx]

theorem getFreeStripe (h : HashInv conf c) : HashInv conf c.getFreeStripe.2 := by
  cases hfree : c.inactiveList with
  | nil => rwa [getFreeStripe_nil hfree]
  | cons sh rest =>
    obtain ⟨c', hget, htable, hrow, -, -⟩ := getFreeStripe_cons hfree
    rw [hget]
    exact h.unlink htable fun x _ => by rw [hrow]

theorem shrinkStripes (h : HashInv conf c) (jraidDisks : UInt32) (num : ℕ) :
    HashInv conf (Cache.shrinkStripes jraidDisks num c) := by
  induction num generalizing c with
  | zero => exact h
  | succ num ih =>
    have hget := h.getFreeStripe
    rw [Cache.shrinkStripes]
    rcases hfree : c.getFreeStripe with ⟨_ | sh, c₁⟩ <;> rw [hfree] at hget
    · exact hget
    · have hprint : HashInv conf (c₁.printIf ((c₁.stripe sh).count ≠ 0) .shrinkCount) :=
        hget.congr (table_printIf _ _ _) fun x _ => by rw [row_printIf]
      have hbuf : HashInv conf ((c₁.printIf ((c₁.stripe sh).count ≠ 0) .shrinkCount).modify sh
          (shrinkBuffers jraidDisks.toInt32.toNatClampNeg)) := hprint.modify rfl rfl rfl
      exact ih (hbuf.congr rfl fun _ _ => rfl)

theorem getActiveStripe (h : HashInv conf c) {sector : UInt64} {pdIdx : Int32} {noblock : Bool}
    {f : Found N} (hget : Cache.getActiveStripe conf c sector pdIdx noblock = .ok (f, c')) :
    HashInv conf c' := by
  obtain ⟨sh, -, hhit⟩ | ⟨sh, -, hmiss⟩ | ⟨-, hexh⟩ := getActiveStripe_eq_ok hget
  · exact h.hit hhit
  · exact h.miss hmiss
  · exact hexh.eq ▸ h

end HashInv

/-! ### Sequences of operations -/

/-- The operations on the cache: the three that change the hash table, and everything else
that the driver does to stripes. A request that waits in `get_active_stripe` makes a pass,
lets go of the lock, and makes another pass later. -/
inductive Op (N : ℕ) (τ : Type) where
  | getActiveStripe (sector : UInt64) (pdIdx : Int32) (noblock : Bool)
  | getFreeStripe
  | shrinkStripes (num : ℕ)
  | releaseStripe (sh : Fin N)
  | setHandle (sh : Fin N)
  | takeHandled
  | writeDev (sh : Fin N) (i : ℕ) (f : R5dev τ → R5dev τ)

/-- What an operation does to the cache. -/
def Op.apply (conf : JRaid5Conf) (jraidDisks : UInt32) (c : Cache N τ) :
    Op N τ → Except Stop (Cache N τ)
  | .getActiveStripe sector pdIdx noblock =>
    (Cache.getActiveStripe conf c sector pdIdx noblock).map Prod.snd
  | .getFreeStripe => .ok c.getFreeStripe.2
  | .shrinkStripes num => .ok (Cache.shrinkStripes jraidDisks num c)
  | .releaseStripe sh => .ok (c.releaseStripe sh)
  | .setHandle sh => .ok (c.setHandle sh)
  | .takeHandled => c.takeHandled.map Prod.snd
  | .writeDev sh i f => .ok (c.modifyDev sh i f)

/-- All sequences of operations on the pool that `grow_stripes` builds. -/
def opSystem (N : ℕ) (τ : Type) (conf : JRaid5Conf) (page : Fin N → ℕ → Page)
    (jraidDisks : UInt32) : FallibleSystem (Cache N τ) (Op N τ) Stop where
  init := growStripes N τ conf page
  step := Op.apply conf jraidDisks

/-- One operation keeps the invariant. -/
theorem HashInv.apply {conf : JRaid5Conf} {jraidDisks : UInt32} {c c' : Cache N τ} {op : Op N τ}
    (h : HashInv conf c) (hop : op.apply conf jraidDisks c = .ok c') : HashInv conf c' := by
  cases op with
  | getActiveStripe sector pdIdx noblock =>
    rw [Op.apply] at hop
    cases hget : Cache.getActiveStripe conf c sector pdIdx noblock with
    | error b => simp [hget, Except.map] at hop
    | ok p =>
      rw [hget] at hop
      obtain rfl := Except.ok.inj hop
      exact h.getActiveStripe hget
  | getFreeStripe =>
    obtain rfl := Except.ok.inj hop
    exact h.getFreeStripe
  | shrinkStripes num =>
    obtain rfl := Except.ok.inj hop
    exact h.shrinkStripes jraidDisks num
  | releaseStripe sh =>
    obtain rfl := Except.ok.inj hop
    exact h.releaseStripe sh
  | setHandle sh =>
    obtain rfl := Except.ok.inj hop
    exact h.modify rfl rfl rfl
  | takeHandled =>
    rw [Op.apply] at hop
    cases htake : c.takeHandled with
    | error b => simp [htake, Except.map] at hop
    | ok p =>
      rw [htake] at hop
      obtain rfl := Except.ok.inj hop
      obtain ⟨-, -, heq⟩ | ⟨sh, -, htaken⟩ := takeHandled_eq_ok htake
      · exact heq ▸ h
      · exact h.congr htaken.table fun x _ => by rw [htaken.row]
  | writeDev sh i f =>
    obtain rfl := Except.ok.inj hop
    exact h.modifyDev sh i f

/-- **The hash table invariant of the stripe cache.** After any sequence of operations,
following each bucket ends and visits exactly the hashed stripes of the bucket, each of them
once and each pointing back at the link before it; no two hashed stripes have the same
sector; and `__find_stripe` returns a stripe exactly when it is hashed for the sector. -/
theorem hashTable_correct (N : ℕ) (τ : Type) (conf : JRaid5Conf) (page : Fin N → ℕ → Page)
    (jraidDisks : UInt32) {c : Cache N τ} (hc : (opSystem N τ conf page jraidDisks).Reachable c) :
    (∃ chain : Fin nrHash → List (Fin N), ∀ b,
      c.table.Path (.bucket b) (chain b) ∧ (chain b).Nodup ∧
        ∀ sh, sh ∈ chain b ↔ c.Hashed sh ∧ stripeHash conf (c.row sh).sector = b) ∧
    (∀ sh sh', c.Hashed sh → c.Hashed sh' → (c.row sh).sector = (c.row sh').sector → sh = sh') ∧
    ∀ sector, ∃ f, findStripe conf c sector = some f ∧
      ∀ sh, f = some sh ↔ c.Hashed sh ∧ (c.row sh).sector = sector := by
  have h : HashInv conf c := hc.invariant (HashInv.growStripes conf page)
    fun _ _ _ _ h hstep => h.apply hstep
  obtain ⟨chain, hwf⟩ := h.wf
  exact ⟨⟨chain, fun b => ⟨hwf.path b, hwf.nodup b, hwf.mem_iff b⟩⟩, h.unique, h.findStripe⟩

/-- A pool of one stripe that is used for sector 0 and then, after its release, for
sector 8. -/
theorem hashTable_correct_reuse :
    let conf : JRaid5Conf := ⟨4096, 5, algorithmLeftSymmetric, 3, 4096, fun _ => ⟨none⟩⟩
    ∃ c : Cache 1 Unit, (opSystem 1 Unit conf (fun _ _ _ => 0) 3).exec
        (opSystem 1 Unit conf (fun _ _ _ => 0) 3).init
        [.getActiveStripe 0 2 false, .releaseStripe 0, .getActiveStripe 8 2 false] = .ok c ∧
      findStripe conf c 8 = some (some 0) ∧
      ∀ sector, ∃ f, findStripe conf c sector = some f ∧
        ∀ sh, f = some sh ↔ c.Hashed sh ∧ (c.row sh).sector = sector := by
  intro conf
  obtain ⟨c, hc, hfind⟩ := FallibleSystem.exists_exec (f := fun c => findStripe conf c 8)
    (v := some (some 0)) (show ((opSystem 1 Unit conf (fun _ _ _ => 0) 3).exec
      (opSystem 1 Unit conf (fun _ _ _ => 0) 3).init [.getActiveStripe 0 2 false,
        .releaseStripe 0, .getActiveStripe 8 2 false]).toOption.map _ = _ by decide +kernel)
  exact ⟨c, hc, hfind, (hashTable_correct 1 Unit conf (fun _ _ _ => 0) 3
    (FallibleSystem.reachable_of_exec hc)).2.2⟩

end Cache

end JRaid
