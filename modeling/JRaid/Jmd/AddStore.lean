import JRaid.ForMathlib.FallibleSystem
import JRaid.Jmd.Run

/-!
# Writing to the `add` file

`add_store` is what an administrator calls: each write to `/sys/.../add` names a device, the
number of disks of the array and the number of this disk. The array superblock is set up
while there is no member, the device is added, and when as many members as disks are bound
the capacity is published and the array started.

The runs of an array are the sequences of these calls (`addStoreSystem`), with whatever the
kernel answers on the way.
-/

namespace JRaid

namespace Jmd

/-! ### `jmddev_size` -/

/-- `jmddev_size`. -/
def Jmddev.jmddevSize (jmddev : Jmddev) (jraidDisks : Int32) : UInt64 :=
  match jmddev.sb with
  | none => 0
  | some sb =>
    let sectors := (sb.size / 2).toUInt64
    let sectors := sectors &&& ~~~(ulong jmddev.chunkSectors - 1)
    sectors * ulong (jraidDisks - 1)

/-! ### `add_store` -/

/-- What the kernel answers during `add_store`. -/
structure AddStoreEnv where
  /-- `kzalloc` of the `define_tmp_device` -/
  dtdev : Bool
  /-- `blkdev_get_by_path`: the major number and the first minor number of the disk -/
  bdev : Option (Int32 × Int32)
  /-- `kzalloc` of the array information -/
  arrayInfo : Bool
  /-- `kzalloc` of the disk information -/
  info : Bool
  set : ArrayInfoEnv
  add : ImportEnv
  run : RunEnv

/-- A write to the `add` file: what `sscanf` reads after the file name, the length, and what the
kernel answers. -/
structure AddStoreCall where
  totalNum : Int32
  jrdevNum : Int32
  cnt : Int64
  env : AddStoreEnv

/-- The disk information that `add_store` fills in for a device. -/
def AddStoreCall.diskInfo (call : AddStoreCall) (bdev : Int32 × Int32) : JmdDiskInfo :=
  ⟨call.jrdevNum, bdev.1, bdev.2, call.jrdevNum, 0⟩

/-- The array information that `add_store` fills in. -/
def AddStoreCall.arrayInfo (call : AddStoreCall) : JmdArrayInfo :=
  { arrayInfoInit with nrDisks := call.totalNum, raidDisks := call.totalNum }

/-- The part of `add_store` that sets up the superblock. The code of `set_array_info` is not
looked at. -/
def Jmddev.prepare (jmddev : Jmddev) (call : AddStoreCall) : Jmddev :=
  if jmddev.nbDev = 0 then (jmddev.setArrayInfo call.env.set call.arrayInfo).2 else jmddev

/-- The part of `add_store` that then adds the device `bdev`. The code of `add_new_disk` is not
looked at. -/
def Jmddev.addMember (jmddev : Jmddev) (call : AddStoreCall) (bdev : Int32 × Int32) :
    Except Fault Jmddev :=
  ((jmddev.prepare call).addNewDisk call.env.add (call.diskInfo bdev)).map Prod.snd

/-- The part of `add_store` that publishes the capacity. -/
def Jmddev.publish (jmddev : Jmddev) (totalNum : Int32) : Jmddev :=
  let sectors := jmddev.jmddevSize (totalNum + 1)
  { jmddev with arraySectors := sectors, capacity := sectors }

/-- `add_store`. -/
def Jmddev.addStore (jmddev : Jmddev) (call : AddStoreCall) : Except Fault (Int64 × Jmddev) :=
  if !call.env.dtdev then .ok ((-enomem).toInt64, jmddev)
  else if !call.env.arrayInfo then .ok ((-enomem).toInt64, jmddev)
  else if !call.env.info then .ok ((-enomem).toInt64, jmddev)
  else
    match call.env.bdev with
    | none => .error .badPointer
    | some bdev =>
      match jmddev.addMember call bdev with
      | .error f => .error f
      | .ok jmddev =>
        if (jmddev.nbDev : ℤ) = call.totalNum.toInt then
          match (jmddev.publish call.totalNum).doJmdRun call.env.run with
          | .error f => .error f
          | .ok (_, jmddev) => .ok (call.cnt, jmddev)
        else .ok (call.cnt, jmddev)

/-- The runs of an array that has just been made, on the block devices `device`. -/
def addStoreSystem (device : DevT → BlockDev) : FallibleSystem Jmddev AddStoreCall Fault where
  init := Jmddev.fresh device
  step s call := (s.addStore call).map Prod.snd

end Jmd

end JRaid
