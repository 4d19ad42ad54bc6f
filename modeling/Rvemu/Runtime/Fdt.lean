import Mathlib.Tactic.Common
import Mathlib.Algebra.Group.Nat.Defs

/-!
# The device tree

`FdtWriter` puts the tokens of a flattened device tree one after another, `StringTable` keeps each
property name once, and `joinBlob` puts the header and the three blocks together.  `buildMachineFdt`
is the tree of the machine.  A `std::string` is the list of its bytes.
-/

set_option autoImplicit false

namespace Rvemu

/-- The bytes of a literal; those of the source are ASCII. -/
def octets (s : String) : List (BitVec 8) := s.toList.map fun c ↦ BitVec.ofNat 8 c.toNat

def fdtMagic : BitVec 32 := 0xD00DFEED#32
def fdtVersion : BitVec 32 := 17#32
def fdtLastCompatibleVersion : BitVec 32 := 16#32
def fdtBeginNode : BitVec 32 := 1#32
def fdtEndNode : BitVec 32 := 2#32
def fdtProp : BitVec 32 := 3#32
def fdtEnd : BitVec 32 := 9#32

/-! ## Bytes -/

def appendBe32 (out : List (BitVec 8)) (value : BitVec 32) : List (BitVec 8) :=
  out ++ [(value >>> 24).setWidth 8, (value >>> 16).setWidth 8, (value >>> 8).setWidth 8,
    value.setWidth 8]

def appendBe64 (out : List (BitVec 8)) (value : BitVec 64) : List (BitVec 8) :=
  appendBe32 (appendBe32 out ((value >>> 32).setWidth 32)) (value.setWidth 32)

/-- The loop of `align4`, which turns at most `n` times. -/
def align4From : ℕ → List (BitVec 8) → List (BitVec 8)
  | 0, out => out
  | n + 1, out => if out.length % 4 ≠ 0 then align4From n (out ++ [0#8]) else out

def align4 (out : List (BitVec 8)) : List (BitVec 8) := align4From 4 out

/-! ## Names -/

/-- The names kept so far, each ended by a zero, and where each of them starts. -/
structure StringTable where
  bytes : List (BitVec 8) := []
  offsets : List (List (BitVec 8) × BitVec 32) := []
  deriving DecidableEq, Repr

namespace StringTable

def find (t : StringTable) (value : List (BitVec 8)) : Option (BitVec 32) := t.offsets.lookup value

def offset (t : StringTable) (value : List (BitVec 8)) : BitVec 32 × StringTable :=
  match t.find value with
  | some found => (found, t)
  | none =>
    let offset := BitVec.ofNat 32 t.bytes.length
    (offset, { bytes := t.bytes ++ value ++ [0#8], offsets := (value, offset) :: t.offsets })

end StringTable

/-! ## Tokens -/

structure FdtWriter where
  strings : StringTable := {}
  structure_ : List (BitVec 8) := []
  deriving DecidableEq, Repr

namespace FdtWriter

def beginNode (w : FdtWriter) (name : List (BitVec 8)) : FdtWriter :=
  { w with structure_ := align4 (appendBe32 w.structure_ fdtBeginNode ++ name ++ [0#8]) }

def endNode (w : FdtWriter) : FdtWriter :=
  { w with structure_ := appendBe32 w.structure_ fdtEndNode }

def propRaw (w : FdtWriter) (name value : List (BitVec 8)) : FdtWriter :=
  let offset := w.strings.offset name
  { strings := offset.2
    structure_ := align4 (appendBe32 (appendBe32 (appendBe32 w.structure_ fdtProp)
      (BitVec.ofNat 32 value.length)) offset.1 ++ value) }

def propEmpty (w : FdtWriter) (name : List (BitVec 8)) : FdtWriter := w.propRaw name []

def propString (w : FdtWriter) (name value : List (BitVec 8)) : FdtWriter :=
  w.propRaw name (value ++ [0#8])

def propStringList (w : FdtWriter) (name : List (BitVec 8)) (values : List (List (BitVec 8))) :
    FdtWriter :=
  w.propRaw name (values.foldl (fun bytes value ↦ bytes ++ value ++ [0#8]) [])

def propU32 (w : FdtWriter) (name : List (BitVec 8)) (value : BitVec 32) : FdtWriter :=
  w.propRaw name (appendBe32 [] value)

def propU64Pair (w : FdtWriter) (name : List (BitVec 8)) (address size : BitVec 64) : FdtWriter :=
  w.propRaw name (appendBe64 (appendBe64 [] address) size)

def propU32List (w : FdtWriter) (name : List (BitVec 8)) (values : List (BitVec 32)) : FdtWriter :=
  w.propRaw name (values.foldl appendBe32 [])

def finish (w : FdtWriter) : List (BitVec 8) := appendBe32 w.structure_ fdtEnd

end FdtWriter

/-- The arguments of the `prop_*` functions other than the name. -/
inductive FdtValue
  | raw (value : List (BitVec 8))
  | empty
  | string (value : List (BitVec 8))
  | stringList (values : List (List (BitVec 8)))
  | u32 (value : BitVec 32)
  | u64Pair (address size : BitVec 64)
  | u32List (values : List (BitVec 32))
  deriving DecidableEq, Repr

/-- A call of the writer. -/
inductive FdtCall
  | beginNode (name : List (BitVec 8))
  | prop (name : List (BitVec 8)) (value : FdtValue)
  | endNode
  deriving DecidableEq, Repr

namespace FdtWriter

def prop (w : FdtWriter) (name : List (BitVec 8)) : FdtValue → FdtWriter
  | .raw value => w.propRaw name value
  | .empty => w.propEmpty name
  | .string value => w.propString name value
  | .stringList values => w.propStringList name values
  | .u32 value => w.propU32 name value
  | .u64Pair address size => w.propU64Pair name address size
  | .u32List values => w.propU32List name values

def call (w : FdtWriter) : FdtCall → FdtWriter
  | .beginNode name => w.beginNode name
  | .prop name value => w.prop name value
  | .endNode => w.endNode

/-- The writer after a sequence of calls. -/
def run (w : FdtWriter) (calls : List FdtCall) : FdtWriter := calls.foldl call w

end FdtWriter

/-! ## The blob -/

def rangeOverflows (base size : BitVec 64) : Bool :=
  size = 0#64 || base > BitVec.allOnes 64 - size

def joinBlob (reserve structure_ strings : List (BitVec 8)) : List (BitVec 8) :=
  let reserveOffset := 40#32
  let structureOffset := reserveOffset + BitVec.ofNat 32 reserve.length
  let stringsOffset := structureOffset + BitVec.ofNat 32 structure_.length
  let totalSize := stringsOffset + BitVec.ofNat 32 strings.length
  let blob := appendBe32 [] fdtMagic
  let blob := appendBe32 blob totalSize
  let blob := appendBe32 blob structureOffset
  let blob := appendBe32 blob stringsOffset
  let blob := appendBe32 blob reserveOffset
  let blob := appendBe32 blob fdtVersion
  let blob := appendBe32 blob fdtLastCompatibleVersion
  let blob := appendBe32 blob 0#32
  let blob := appendBe32 blob (BitVec.ofNat 32 strings.length)
  let blob := appendBe32 blob (BitVec.ofNat 32 structure_.length)
  blob ++ reserve ++ structure_ ++ strings

/-! ## The tree of the machine -/

structure FdtConfig where
  ramBase : BitVec 64 := 0x80000000#64
  ramSize : BitVec 64 := 0x40000000#64
  fdtAddress : BitVec 64 := 0xBFE00000#64
  fdtReservedSize : BitVec 64 := 0x00020000#64
  timebaseFrequency : BitVec 32 := 10000000#32
  bootargs : List (BitVec 8) :=
    octets "console=ttyS0,115200 earlycon rootwait root=/dev/vda rw rootfstype=ext4"
  isa : List (BitVec 8) := octets "rv64imafdcv"
  includeNetwork : Bool := false
  deriving DecidableEq, Repr

structure FdtBuildResult where
  blob : List (BitVec 8) := []
  error : String := ""
  deriving DecidableEq, Repr

def FdtBuildResult.ok (r : FdtBuildResult) : Bool := r.error.isEmpty

def cpuPhandle : BitVec 32 := 1#32
def cpuIntcPhandle : BitVec 32 := 2#32
def plicPhandle : BitVec 32 := 3#32
def uartInterrupt : BitVec 32 := 10#32
def virtioBlockInterrupt : BitVec 32 := 1#32
def virtioNetworkInterrupt : BitVec 32 := 2#32

/-- A device of the address map with an interrupt of the PLIC. -/
def virtioNode (name : String) (base : BitVec 64) (interrupt : BitVec 32) : List FdtCall :=
  [.beginNode (octets name),
    .prop (octets "compatible") (.string (octets "virtio,mmio")),
    .prop (octets "reg") (.u64Pair base 0x1000#64),
    .prop (octets "interrupt-parent") (.u32 plicPhandle),
    .prop (octets "interrupts") (.u32 interrupt),
    .endNode]

/-- The calls that write the part of the tree in front of `soc`. -/
def platformCalls (config : FdtConfig) : List FdtCall :=
  [.prop (octets "compatible") (.string (octets "riscv-virtio")),
    .prop (octets "model") (.string (octets "rvemu,riscv64-gcv-single-hart")),
    .prop (octets "#address-cells") (.u32 2#32),
    .prop (octets "#size-cells") (.u32 2#32),
    .beginNode (octets "aliases"),
    .prop (octets "serial0") (.string (octets "/soc/serial@10000000")),
    .endNode,
    .beginNode (octets "chosen"),
    .prop (octets "stdout-path") (.string (octets "/soc/serial@10000000:115200n8")),
    .prop (octets "bootargs") (.string config.bootargs),
    .endNode,
    .beginNode (octets "memory@80000000"),
    .prop (octets "device_type") (.string (octets "memory")),
    .prop (octets "reg") (.u64Pair config.ramBase config.ramSize),
    .endNode]

def cpuCalls (config : FdtConfig) : List FdtCall :=
  [.beginNode (octets "cpus"),
    .prop (octets "#address-cells") (.u32 1#32),
    .prop (octets "#size-cells") (.u32 0#32),
    .prop (octets "timebase-frequency") (.u32 config.timebaseFrequency),
    .beginNode (octets "cpu@0"),
    .prop (octets "device_type") (.string (octets "cpu")),
    .prop (octets "reg") (.u32 0#32),
    .prop (octets "phandle") (.u32 cpuPhandle),
    .prop (octets "status") (.string (octets "okay")),
    .prop (octets "compatible") (.string (octets "riscv")),
    .prop (octets "riscv,isa") (.string config.isa),
    .prop (octets "riscv,isa-base") (.string (octets "rv64i")),
    .prop (octets "riscv,isa-extensions") (.stringList
      (["i", "m", "a", "f", "d", "c", "v", "zicsr", "zifencei"].map octets)),
    .prop (octets "mmu-type") (.string (octets "riscv,sv39")),
    .beginNode (octets "interrupt-controller"),
    .prop (octets "interrupt-controller") .empty,
    .prop (octets "#interrupt-cells") (.u32 1#32),
    .prop (octets "compatible") (.string (octets "riscv,cpu-intc")),
    .prop (octets "phandle") (.u32 cpuIntcPhandle),
    .endNode,
    .endNode,
    .beginNode (octets "cpu-map"),
    .beginNode (octets "cluster0"),
    .beginNode (octets "core0"),
    .prop (octets "cpu") (.u32 cpuPhandle),
    .endNode,
    .endNode,
    .endNode,
    .endNode]

/-- The devices with fixed contents. -/
def socDevices : List FdtCall :=
  [.beginNode (octets "soc"),
    .prop (octets "#address-cells") (.u32 2#32),
    .prop (octets "#size-cells") (.u32 2#32),
    .prop (octets "ranges") .empty,
    .prop (octets "compatible") (.string (octets "simple-bus")),
    .beginNode (octets "clint@2000000"),
    .prop (octets "compatible") (.stringList (["sifive,clint0", "riscv,clint0"].map octets)),
    .prop (octets "reg") (.u64Pair 0x02000000#64 0xC000#64),
    .prop (octets "interrupts-extended") (.u32List [cpuIntcPhandle, 3#32, cpuIntcPhandle, 7#32]),
    .endNode,
    .beginNode (octets "interrupt-controller@c000000"),
    .prop (octets "compatible") (.stringList (["sifive,plic-1.0.0", "riscv,plic0"].map octets)),
    .prop (octets "interrupt-controller") .empty,
    .prop (octets "#address-cells") (.u32 0#32),
    .prop (octets "#interrupt-cells") (.u32 1#32),
    .prop (octets "reg") (.u64Pair 0x0C000000#64 0x04000000#64),
    .prop (octets "riscv,ndev") (.u32 31#32),
    .prop (octets "phandle") (.u32 plicPhandle),
    .prop (octets "interrupts-extended") (.u32List [cpuIntcPhandle, 11#32, cpuIntcPhandle, 9#32]),
    .endNode,
    .beginNode (octets "serial@10000000"),
    .prop (octets "compatible") (.string (octets "ns16550a")),
    .prop (octets "reg") (.u64Pair 0x10000000#64 0x100#64),
    .prop (octets "clock-frequency") (.u32 3686400#32),
    .prop (octets "current-speed") (.u32 115200#32),
    .prop (octets "interrupt-parent") (.u32 plicPhandle),
    .prop (octets "interrupts") (.u32 uartInterrupt),
    .endNode]

def socCalls (config : FdtConfig) : List FdtCall :=
  socDevices ++ virtioNode "virtio@10001000" 0x10001000#64 virtioBlockInterrupt
    ++ (if config.includeNetwork then
      virtioNode "virtio@10002000" 0x10002000#64 virtioNetworkInterrupt else [])
    ++ [.endNode]

/-- The calls of `build_machine_fdt`, in order. -/
def machineCalls (config : FdtConfig) : List FdtCall :=
  [.beginNode []] ++ platformCalls config ++ cpuCalls config ++ socCalls config ++ [.endNode]

/-- The reservation block: the pairs, and a pair of zeros. -/
def reserveBlock (entries : List (BitVec 64 × BitVec 64)) : List (BitVec 8) :=
  appendBe64 (appendBe64 (entries.foldl (fun out e ↦ appendBe64 (appendBe64 out e.1) e.2) []) 0#64)
    0#64

def buildMachineFdt (config : FdtConfig) : FdtBuildResult :=
  if rangeOverflows config.ramBase config.ramSize ||
      rangeOverflows config.fdtAddress config.fdtReservedSize then
    { error := "RAM 或 FDT 保留区范围无效" }
  else if config.fdtAddress < config.ramBase ||
      config.fdtAddress + config.fdtReservedSize > config.ramBase + config.ramSize then
    { error := "FDT 保留区必须完全位于 RAM 内" }
  else
    let writer := FdtWriter.run {} (machineCalls config)
    { blob := joinBlob (reserveBlock [(config.fdtAddress, config.fdtReservedSize)]) writer.finish
        writer.strings.bytes }

end Rvemu
