import JRaid.ForMathlib.Sscanf
import JRaid.Jmd.Reachable

/-!
# The text that is written to `add`

`add_store` takes the name of a device and the two numbers from the text by `sscanf`, whose answer
it does not look at. A name that is longer than the buffer is written over the stack, and a number
that is missing is used as it happens to be. Everything else is read as the grammar of the format
says (`addLine_iff`). A write to `del` leaves the array alone.

The text is another way to make the calls of `addStoreSystem` (`attrSystem_exec`).
-/

namespace JRaid

namespace Jmd

open Sscanf

/-! ### The attributes -/

/-- `MAX_NAME_LEN`. -/
def maxNameLen : ℕ := 56

/-- The format of `add_store`. -/
def storeFormat : List Directive := [.str, .space, .int, .space, .int]

/-- The format of `del_store`. -/
def delFormat : List Directive := [.str]

/-- What can go wrong with a text, or in the call that it stands for. -/
inductive LineFault where
  /-- the file name is written past its buffer -/
  | overflow
  /-- a variable that has not been read is used -/
  | uninitialised
  | fault (f : Fault)
  deriving DecidableEq, Repr

/-- A write to `add`: the bytes, and what the kernel answers. -/
structure StoreLine where
  page : List UInt8
  /-- `blkdev_get_by_path` -/
  paths : List UInt8 → Option (Int32 × Int32)
  /-- the other answers -/
  env : AddStoreEnv

/-- The text of a page. -/
def textOf (page : List UInt8) : List UInt8 := page.takeWhile (· ≠ 0)

namespace StoreLine

/-- The call of `add_store` with what has been read. -/
def call (line : StoreLine) (name : List UInt8) (totalNum jrdevNum : Int32) : AddStoreCall :=
  ⟨totalNum, jrdevNum, Int64.ofNat line.page.length, { line.env with bdev := line.paths name }⟩

/-- The text is in the grammar of the format, with this name and these numbers. -/
def Says (line : StoreLine) (name : List UInt8) (totalNum jrdevNum : Int32) : Prop :=
  Reads storeFormat (textOf line.page) [.str name, .int totalNum, .int jrdevNum]

end StoreLine

/-- `add_store`, with the reading of the text. -/
def Jmddev.addLine (jmddev : Jmddev) (line : StoreLine) : Except LineFault (Int64 × Jmddev) :=
  if !line.env.dtdev then .ok ((-enomem).toInt64, jmddev)
  else
    match sscanf storeFormat (textOf line.page) with
    | .str name :: numbers =>
      if maxNameLen ≤ name.length then .error .overflow
      else if !line.env.arrayInfo then .ok ((-enomem).toInt64, jmddev)
      else
        match numbers with
        | .int totalNum :: numbers =>
          if !line.env.info then .ok ((-enomem).toInt64, jmddev)
          else
            match numbers with
            | [.int jrdevNum] =>
              (jmddev.addStore (line.call name totalNum jrdevNum)).mapError .fault
            | _ =>
              -- the device is looked at before `jrdev_num`
              if (line.paths name).isNone then .error (.fault .badPointer)
              else .error .uninitialised
        | _ => .error .uninitialised
    | _ => .error .uninitialised

/-- `del_store`. `jrdev_get_by_name` never finds anything. -/
def delStore (page : List UInt8) : Except LineFault Int64 :=
  match sscanf delFormat (textOf page) with
  | [.str name] =>
    if maxNameLen ≤ name.length then .error .overflow else .ok (-einval).toInt64
  | _ => .ok (-einval).toInt64

/-- A write to one of the attributes. -/
inductive AttrWrite where
  | add (line : StoreLine)
  | del (page : List UInt8)

/-- The runs of an array that has just been made, as the writes to its attributes. -/
def attrSystem (device : DevT → BlockDev) : FallibleSystem Jmddev AttrWrite LineFault where
  init := Jmddev.fresh device
  step s
    | .add line => (s.addLine line).map Prod.snd
    | .del page => (delStore page).map fun _ => s

/-! ### What is read -/

section Read

variable {line : StoreLine} {name : List UInt8} {totalNum jrdevNum : Int32}

theorem StoreLine.says_iff : line.Says name totalNum jrdevNum ↔
    sscanf storeFormat (textOf line.page) = [.str name, .int totalNum, .int jrdevNum] ∧
      name.length < shrtMax := by
  rw [Says, reads_iff]
  refine and_congr_right fun _ => ?_
  constructor
  · rintro ⟨-, hwidth⟩
    exact hwidth name List.mem_cons_self
  · refine fun hwidth => ⟨rfl, fun s hs => ?_⟩
    obtain rfl : s = name := by simpa using hs
    exact hwidth

/-- A line that is in the grammar makes the call that it says. -/
theorem Jmddev.addLine_of_says (s : Jmddev) (h : line.Says name totalNum jrdevNum)
    (hlen : name.length < maxNameLen) :
    s.addLine line = (s.addStore (line.call name totalNum jrdevNum)).mapError .fault := by
  rw [addLine, (StoreLine.says_iff.mp h).1]
  dsimp only
  rw [if_neg (Nat.not_le.mpr hlen), addStore]
  cases hdtdev : line.env.dtdev with
  | false => simp [StoreLine.call, hdtdev, Except.mapError]
  | true =>
    cases harray : line.env.arrayInfo with
    | false => simp [StoreLine.call, hdtdev, harray, Except.mapError]
    | true =>
      cases hinfo : line.env.info with
      | false => simp [StoreLine.call, hdtdev, harray, hinfo, Except.mapError]
      | true => simp [StoreLine.call, hdtdev, harray, hinfo]

/-- The allocations are granted, and every path leads to a device. -/
structure StoreLine.Granted (line : StoreLine) : Prop where
  env : line.env.granted = true
  paths : ∀ name, (line.paths name).isSome

theorem StoreLine.Granted.allocations (h : line.Granted) :
    line.env.dtdev = true ∧ line.env.arrayInfo = true ∧ line.env.info = true := by
  simpa [AddStoreEnv.granted, and_assoc] using h.env

theorem mapError_fault_ne {α : Type*} (x : Except Fault α) :
    x.mapError LineFault.fault ≠ .error .overflow ∧
      x.mapError LineFault.fault ≠ .error .uninitialised := by
  cases x with
  | error f =>
    exact ⟨fun h => (nomatch Except.error.inj h), fun h => (nomatch Except.error.inj h)⟩
  | ok a => exact ⟨nofun, nofun⟩

/-- A line that says nothing, or a name that is too long, leaves the array as it is. -/
theorem Jmddev.addLine_of_not_says (s : Jmddev)
    (h : ¬ ∃ name totalNum jrdevNum, line.Says name totalNum jrdevNum ∧
      name.length < maxNameLen) :
    (s.addLine line = .error .overflow ∨ s.addLine line = .error .uninitialised) ∨
      ¬ line.Granted ∧ (s.addLine line = .ok ((-enomem).toInt64, s) ∨
        s.addLine line = .error (.fault .badPointer)) := by
  unfold addLine
  split
  · rename_i hdtdev
    exact Or.inr ⟨fun hgranted => by simp [hgranted.allocations] at hdtdev, Or.inl rfl⟩
  split
  · rename_i name numbers hscan
    split
    · exact Or.inl (Or.inl rfl)
    rename_i hshort
    split
    · rename_i harray
      exact Or.inr ⟨fun hgranted => by simp [hgranted.allocations] at harray, Or.inl rfl⟩
    split
    · rename_i totalNum numbers
      split
      · rename_i hinfo
        exact Or.inr ⟨fun hgranted => by simp [hgranted.allocations] at hinfo, Or.inl rfl⟩
      split
      · rename_i jrdevNum
        have hwidth : name.length < shrtMax := (Nat.not_le.mp hshort).trans (by decide)
        exact absurd ⟨name, totalNum, jrdevNum, StoreLine.says_iff.mpr ⟨hscan, hwidth⟩,
          Nat.not_le.mp hshort⟩ h
      split
      · rename_i hnone
        refine Or.inr ⟨fun hgranted => ?_, Or.inr rfl⟩
        exact Option.isSome_iff_ne_none.mp (hgranted.paths name)
          (Option.isNone_iff_eq_none.mp hnone)
      · exact Or.inl (Or.inr rfl)
    · exact Or.inl (Or.inr rfl)
  · exact Or.inl (Or.inr rfl)

/-- **What a line does**: if it says a name that fits into the buffer and two numbers, it makes the
call with these, and otherwise the name is written past its buffer or a number is used that has not
been read. -/
theorem addLine_iff (s : Jmddev) :
    (∀ name totalNum jrdevNum, line.Says name totalNum jrdevNum → name.length < maxNameLen →
      s.addLine line = (s.addStore (line.call name totalNum jrdevNum)).mapError .fault) ∧
    (line.Granted →
      ((s.addLine line = .error .overflow ∨ s.addLine line = .error .uninitialised) ↔
        ¬ ∃ name totalNum jrdevNum, line.Says name totalNum jrdevNum ∧
          name.length < maxNameLen)) := by
  refine ⟨fun name totalNum jrdevNum h hlen => s.addLine_of_says h hlen, fun hgranted => ⟨?_,
    fun h => (s.addLine_of_not_says h).resolve_right fun hno => hno.1 hgranted⟩⟩
  rintro hbad ⟨name, totalNum, jrdevNum, h, hlen⟩
  rw [s.addLine_of_says h hlen] at hbad
  exact hbad.elim (mapError_fault_ne _).1 (mapError_fault_ne _).2

end Read

/-- A line, with all that its call asks for. -/
def grantedLine (page : List UInt8) : StoreLine :=
  ⟨page, fun _ => some (8, 0), (addCall 3 0 0).env⟩

/-- The line for the first of three disks makes its call, and a name alone does not. -/
theorem addLine_iff_three :
    (Jmddev.fresh fun _ => smallDev).addLine (grantedLine [97, 32, 51, 32, 48, 10]) =
      ((Jmddev.fresh fun _ => smallDev).addStore
        ((grantedLine [97, 32, 51, 32, 48, 10]).call [97] 3 0)).mapError .fault ∧
    ((Jmddev.fresh fun _ => smallDev).addLine (grantedLine [97, 10]) = .error .overflow ∨
      (Jmddev.fresh fun _ => smallDev).addLine (grantedLine [97, 10]) =
        .error .uninitialised) := by
  refine ⟨(addLine_iff _).1 [97] 3 0 (StoreLine.says_iff.mpr ⟨?_, by decide⟩) (by decide),
    ((addLine_iff _).2 ⟨rfl, fun _ => rfl⟩).mpr ?_⟩
  · decide +kernel
  · rintro ⟨name, totalNum, jrdevNum, hsays, -⟩
    have hscan : sscanf storeFormat (textOf [97, 10]) = [.str [97]] := by decide +kernel
    cases hscan.symm.trans (StoreLine.says_iff.mp hsays).1

/-- The text that `mngt_show` gives as an example. -/
example : sscanf storeFormat ("/dev/vg0/lv0 4 0\n".toList.map fun c => c.toNat.toUInt8) =
    [.str ("/dev/vg0/lv0".toList.map fun c => c.toNat.toUInt8), .int 4, .int 0] := by
  decide +kernel

/-! ### The calls and the lines -/

/-- The call that a write makes, if it makes one. -/
def AttrWrite.call? : AttrWrite → Option AddStoreCall
  | .add line =>
    match sscanf storeFormat (textOf line.page) with
    | [.str name, .int totalNum, .int jrdevNum] =>
      if name.length < maxNameLen then some (line.call name totalNum jrdevNum) else none
    | _ => none
  | .del _ => none

/-- A name that can be read back. -/
structure Nameable (name : List UInt8) : Prop where
  ne_nil : name ≠ []
  bytes : ∀ c ∈ name, c ≠ 0 ∧ isSpace c = false
  length : name.length < maxNameLen

/-- The line for a call, as `echo` writes it. -/
def AddStoreCall.line (call : AddStoreCall) (name : List UInt8) : StoreLine where
  page := name ++ 32 :: (decimal call.totalNum ++ 32 :: (decimal call.jrdevNum ++ [10]))
  paths _ := call.env.bdev
  env := call.env

/-- What `echo` writes is read back. -/
theorem AddStoreCall.says_line (call : AddStoreCall) {name : List UInt8} (hname : Nameable name) :
    (call.line name).Says name call.totalNum call.jrdevNum := by
  have hbytes : ∀ c ∈ (call.line name).page, c ≠ 0 := by
    intro c hc
    simp only [line, List.mem_append, List.mem_cons, List.not_mem_nil, or_false] at hc
    rcases hc with hc | rfl | hc | rfl | hc | rfl
    · exact (hname.bytes c hc).1
    · decide
    · exact ne_zero_of_mem_decimal hc
    · decide
    · exact ne_zero_of_mem_decimal hc
    · decide
  have htext : textOf (call.line name).page = (call.line name).page :=
    List.takeWhile_eq_self_iff.mpr fun c hc => by simpa using hbytes c hc
  rw [StoreLine.Says, htext]
  have hnumbers := ((Reads.nil [10]).decimal (stops_cons.mpr (by decide)) call.jrdevNum).decimal
    (stops_cons.mpr (by decide)) call.totalNum
  exact Reads.str (w := []) (by simp) (fun c hc => (hname.bytes c hc).2)
    (stops_cons.mpr (by decide)) (fun h => absurd h hname.ne_nil)
    (hname.length.trans (by decide)) hnumbers

/-- A call does not look at the length of what has been written, but to return it. -/
theorem Jmddev.map_addStore_cnt (s : Jmddev) (call : AddStoreCall) (cnt : Int64) :
    (s.addStore { call with cnt := cnt }).map Prod.snd = (s.addStore call).map Prod.snd := by
  have hmember : ∀ bdev, s.addMember { call with cnt := cnt } bdev = s.addMember call bdev :=
    fun _ => rfl
  unfold addStore
  dsimp only
  split_ifs
  · rfl
  · rfl
  · rfl
  cases call.env.bdev with
  | none => rfl
  | some bdev =>
    dsimp only
    rw [hmember]
    cases s.addMember call bdev with
    | error f => rfl
    | ok s₁ =>
      dsimp only
      split_ifs
      · cases (s₁.publish call.totalNum).doJmdRun call.env.run with
        | error f => rfl
        | ok r => rfl
      · rfl

theorem AddStoreCall.step_line (device : DevT → BlockDev) (s : Jmddev) (call : AddStoreCall)
    {name : List UInt8} (hname : Nameable name) :
    (attrSystem device).step s (.add (call.line name)) =
      ((addStoreSystem device).step s call).mapError .fault := by
  have hcall : (call.line name).call name call.totalNum call.jrdevNum =
      { call with cnt := Int64.ofNat (call.line name).page.length } := rfl
  change (s.addLine _).map Prod.snd = ((s.addStore call).map Prod.snd).mapError LineFault.fault
  rw [s.addLine_of_says (call.says_line hname) hname.length, hcall, ← s.map_addStore_cnt]
  cases s.addStore _ with
  | error f => rfl
  | ok r => rfl

/-- A write that goes through does nothing, or makes its call. -/
theorem AttrWrite.step_cases {device : DevT → BlockDev} {s s' : Jmddev} {write : AttrWrite}
    (h : (attrSystem device).step s write = .ok s') :
    (write.call? = none ∧ s' = s) ∨ ∃ call, write.call? = some call ∧
      (addStoreSystem device).step s call = .ok s' := by
  cases write with
  | del page =>
    obtain ⟨_, -, rfl⟩ := Except.exists_of_map_eq_ok h
    exact Or.inl ⟨rfl, rfl⟩
  | add line =>
    obtain ⟨⟨ret, s'⟩, hadd, rfl⟩ := Except.exists_of_map_eq_ok h
    by_cases hsays : ∃ name totalNum jrdevNum, line.Says name totalNum jrdevNum ∧
        name.length < maxNameLen
    · obtain ⟨name, totalNum, jrdevNum, hsays, hlen⟩ := hsays
      refine Or.inr ⟨line.call name totalNum jrdevNum, ?_, ?_⟩
      · rw [call?, (StoreLine.says_iff.mp hsays).1]
        exact if_pos hlen
      · rw [s.addLine_of_says hsays hlen] at hadd
        change (s.addStore _).map Prod.snd = _
        cases hstore : s.addStore (line.call name totalNum jrdevNum) with
        | error f =>
          rw [hstore] at hadd
          cases hadd
        | ok r =>
          rw [hstore] at hadd
          exact congrArg (Except.ok ∘ Prod.snd) (Except.ok.inj hadd)
    · refine Or.inl ⟨?_, ?_⟩
      · rw [call?]
        split
        · rename_i name totalNum jrdevNum hscan
          refine if_neg fun hlen => hsays ⟨name, totalNum, jrdevNum, ?_, hlen⟩
          exact StoreLine.says_iff.mpr ⟨hscan, hlen.trans (by decide)⟩
        · rfl
      · rcases s.addLine_of_not_says hsays with (hbad | hbad) | ⟨-, hbad | hbad⟩
        · cases hbad.symm.trans hadd
        · cases hbad.symm.trans hadd
        · exact (Prod.mk.inj (Except.ok.inj (hbad.symm.trans hadd))).2.symm
        · cases hbad.symm.trans hadd

/-- **The text of the attributes is another way to make calls**: a sequence of writes that goes
through does what the calls of its lines do, and every sequence of calls can be written, each with a
name of its own, with the same effect. -/
theorem attrSystem_exec (device : DevT → BlockDev) :
    (∀ (writes : List AttrWrite) (s : Jmddev),
      (attrSystem device).exec (attrSystem device).init writes = .ok s →
        (addStoreSystem device).exec (addStoreSystem device).init
          (writes.filterMap AttrWrite.call?) = .ok s) ∧
    ∀ calls : List (AddStoreCall × List UInt8), (∀ p ∈ calls, Nameable p.2) →
      (attrSystem device).exec (attrSystem device).init
          (calls.map fun p => .add (p.1.line p.2)) =
        ((addStoreSystem device).exec (addStoreSystem device).init
          (calls.map Prod.fst)).mapError .fault :=
  ⟨fun _ _ h => FallibleSystem.exec_filterMap (fun _ _ _ hstep => AttrWrite.step_cases hstep) h,
    fun _ hname => FallibleSystem.exec_map
      (fun p hp s => p.1.step_line device s (hname p hp)) _⟩

/-- The calls that start an array of three disks, each under the name of its device. -/
def namedCalls : List (AddStoreCall × List UInt8) :=
  [(addCall 3 0 0, [97]), (addCall 3 1 16, [98]), (addCall 3 2 32, [99])]

/-- Three lines do what the three calls do. -/
theorem attrSystem_exec_three :
    (attrSystem fun _ => smallDev).exec (attrSystem fun _ => smallDev).init
        (namedCalls.map fun p => .add (p.1.line p.2)) =
      ((addStoreSystem fun _ => smallDev).exec (addStoreSystem fun _ => smallDev).init
        [addCall 3 0 0, addCall 3 1 16, addCall 3 2 32]).mapError .fault := by
  have hname : ∀ {c : UInt8}, c ≠ 0 → isSpace c = false → Nameable [c] := fun hne hblank =>
    ⟨List.cons_ne_nil _ [], fun d hd => List.mem_singleton.mp hd ▸ ⟨hne, hblank⟩,
      show 1 < maxNameLen by decide⟩
  refine (attrSystem_exec _).2 namedCalls fun p hp => ?_
  simp only [namedCalls, List.mem_cons, List.not_mem_nil, or_false] at hp
  obtain rfl | rfl | rfl := hp
  · exact hname (by decide) (by decide)
  · exact hname (by decide) (by decide)
  · exact hname (by decide) (by decide)

end Jmd

end JRaid
