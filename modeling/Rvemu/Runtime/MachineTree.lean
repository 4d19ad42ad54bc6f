import Rvemu.Runtime.Build
import Rvemu.Runtime.InterruptDelivery

/-!
# The device tree and the machine

The guest knows the machine by its device tree.  A reader walks the decoded tree as a kernel does:
the cells of an address are counted by the parent, and a node that occupies addresses has a `reg`.
What it finds in the memory of a machine that has been built is the bus of that machine, region by
region, and the lines on which the regions interrupt (`tree_of_built`).
-/

set_option autoImplicit false

open Wire

namespace Rvemu

/-! ## Reading a tree -/

/-- A node that occupies addresses, with the values of the properties that say where it is and how
it interrupts. -/
structure FdtNode where
  name : List (BitVec 8)
  reg : List (BitVec 8)
  phandle : Option (List (BitVec 8)) := none
  interruptParent : Option (List (BitVec 8)) := none
  interrupts : Option (List (BitVec 8)) := none
  interruptsExtended : Option (List (BitVec 8)) := none
  deriving DecidableEq, Repr

namespace FdtItems

/-- The value of a property of a node. -/
def property (name : List (BitVec 8)) : FdtItems → Option (List (BitVec 8))
  | .nil => none
  | .prop name' value rest => if name' = name then some value else rest.property name
  | .node _ _ rest => rest.property name

/-- How many cells the children have for an address or a size. -/
def cells (items : FdtItems) (name : String) (default : ℕ) : ℕ :=
  match (items.property (octets name)).bind read32 with
  | some (n, _) => n.toNat
  | none => default

/-- The node as it describes itself. -/
def node? (name : List (BitVec 8)) (items : FdtItems) : Option FdtNode :=
  (items.property (octets "reg")).map fun reg ↦
    { name, reg
      phandle := items.property (octets "phandle")
      interruptParent := items.property (octets "interrupt-parent")
      interrupts := items.property (octets "interrupts")
      interruptsExtended := items.property (octets "interrupts-extended") }

/-- The nodes that have addresses and sizes of two cells, in order. -/
def regions (address size : ℕ) : FdtItems → List FdtNode
  | .nil => []
  | .prop _ _ rest => rest.regions address size
  | .node name children rest =>
    (if address = 2 ∧ size = 2 then (children.node? name).toList else [])
      ++ children.regions (children.cells "#address-cells" 2) (children.cells "#size-cells" 1)
      ++ rest.regions address size

/-- The handles of the nodes that are compatible with this alone. -/
def handles (compatible : List (BitVec 8)) : FdtItems → List (List (BitVec 8))
  | .nil => []
  | .prop _ _ rest => rest.handles compatible
  | .node _ children rest =>
    (if children.property (octets "compatible") = some compatible then
      (children.property (octets "phandle")).toList else [])
      ++ children.handles compatible ++ rest.handles compatible

end FdtItems

namespace FdtNode

/-- Base and size. -/
def range (n : FdtNode) : Option (BitVec 64 × BitVec 64) :=
  match read64 n.reg with
  | some (base, rest) =>
    match read64 rest with
    | some (size, []) => some (base, size)
    | _ => none
  | none => none

/-- The cells of a value. -/
def words : ℕ → List (BitVec 8) → List (BitVec 32)
  | 0, _ => []
  | fuel + 1, value =>
    match read32 value with
    | some (word, rest) => word :: words fuel rest
    | none => []

def cellsOf (value : Option (List (BitVec 8))) : List (BitVec 32) :=
  (value.map fun bytes ↦ words bytes.length bytes).getD []

end FdtNode

/-! ## What a tree says about a region -/

namespace AddressRegion

/-- The input of the PLIC that a region drives. -/
def interruptSource : AddressRegion → Option (BitVec 32)
  | .uart u => some u.interruptSource
  | .virtio t => some t.config.interruptSource
  | _ => none

/-- The interrupts that a region makes pending in the hart. -/
def causes : AddressRegion → List InterruptCause
  | .clint _ => [.machineSoftware, .machineTimer]
  | .plic _ => (List.finRange 2).map Plic.externalInterrupt
  | _ => []

end AddressRegion

/-- The node has the range of the region and its interrupts: to the PLIC, which goes by the handle
`controller`, or to the hart, whose interrupts go by the handle `hart`. -/
structure FdtNode.Describes (controller hart : BitVec 32) (n : FdtNode) (r : AddressRegion) :
    Prop where
  range : n.range = some (r.range.base, r.range.size)
  interruptParent : cellsOf n.interruptParent = r.interruptSource.toList.map fun _ ↦ controller
  interrupts : cellsOf n.interrupts = r.interruptSource.toList
  interruptsExtended : cellsOf n.interruptsExtended =
    r.causes.flatMap fun cause ↦ [hart, BitVec.ofNat 32 cause.code]
  controller : cellsOf n.phandle = [controller] ↔ r.kind = .plic

theorem FdtNode.range_of_pair {n : FdtNode} {base size : BitVec 64}
    (h : n.reg = (FdtValue.u64Pair base size).bytes) : n.range = some (base, size) := by
  have hbytes : (FdtValue.u64Pair base size).bytes = be64 base ++ (be64 size ++ []) := by
    rw [List.append_nil]
    rfl
  rw [range, h, hbytes, read64_be64]
  dsimp only
  rw [read64_be64]

/-! ## The tree of the machine -/

/-- The tree that a sequence of calls writes. -/
def treeOf (calls : List FdtCall) : FdtItems :=
  match itemsOnto [.nil] (calls.map FdtCall.event) with
  | some (items :: _) => items
  | _ => .nil

theorem eq_treeOf {items : FdtItems} {calls : List FdtCall}
    (h : items.events = calls.map FdtCall.event) : items = treeOf calls := by
  rw [treeOf, ← h, itemsOnto_events, FdtItems.append_nil]

/-- The nodes for RAM, the CLINT, the PLIC, the UART and the block device. -/
def machineNodes (layout : BootLayout) : List FdtNode :=
  [{ name := octets "memory@80000000"
     reg := (FdtValue.u64Pair layout.ramBase layout.ramSize).bytes },
    { name := octets "clint@2000000"
      reg := (FdtValue.u64Pair 0x02000000#64 0xC000#64).bytes
      interruptsExtended := some
        (FdtValue.u32List [cpuIntcPhandle, 3#32, cpuIntcPhandle, 7#32]).bytes },
    { name := octets "interrupt-controller@c000000"
      reg := (FdtValue.u64Pair 0x0C000000#64 0x04000000#64).bytes
      phandle := some (FdtValue.u32 plicPhandle).bytes
      interruptsExtended := some
        (FdtValue.u32List [cpuIntcPhandle, 11#32, cpuIntcPhandle, 9#32]).bytes },
    { name := octets "serial@10000000"
      reg := (FdtValue.u64Pair 0x10000000#64 0x100#64).bytes
      interruptParent := some (FdtValue.u32 plicPhandle).bytes
      interrupts := some (FdtValue.u32 uartInterrupt).bytes },
    { name := octets "virtio@10001000"
      reg := (FdtValue.u64Pair 0x10001000#64 0x1000#64).bytes
      interruptParent := some (FdtValue.u32 plicPhandle).bytes
      interrupts := some (FdtValue.u32 virtioBlockInterrupt).bytes }]

theorem regions_treeOf (layout : BootLayout) :
    (treeOf (machineCalls (effectiveConfig layout MachineConfig.fdtConfig))).regions 2 1 =
      machineNodes layout := (rfl)

theorem handles_treeOf (layout : BootLayout) :
    (treeOf (machineCalls (effectiveConfig layout MachineConfig.fdtConfig))).handles
      (FdtValue.string (octets "riscv,cpu-intc")).bytes = [(FdtValue.u32 cpuIntcPhandle).bytes] :=
  (rfl)

theorem length_machineBlob_lt {layout : BootLayout}
    (hok : (buildMachineFdt (effectiveConfig layout MachineConfig.fdtConfig)).ok = true) :
    (buildMachineFdt (effectiveConfig layout MachineConfig.fdtConfig)).blob.length < 2 ^ 32 := by
  have hle := length_blobOf_le [(layout.fdtAddress, layout.fdtReservedSize)]
    (machineCalls (effectiveConfig layout MachineConfig.fdtConfig))
  have hcost : ((machineCalls (effectiveConfig layout MachineConfig.fdtConfig)).map
      FdtCall.cost).sum = ((machineCalls {}).map FdtCall.cost).sum := rfl
  have hsmall : ((machineCalls {}).map FdtCall.cost).sum ≤ 0x8000 := by decide +kernel
  rw [hcost, List.length_singleton] at hle
  rw [(buildMachineFdt_ok hok).1]
  exact Nat.lt_of_le_of_lt hle (by omega)

/-- Each node describes its region. -/
theorem describes_machineNodes {layout : BootLayout} {ram : PhysicalMemory}
    (hbase : ram.range.base = layout.ramBase) (hsize : ram.range.size = layout.ramSize) :
    List.Forall₂ (FdtNode.Describes plicPhandle cpuIntcPhandle) (machineNodes layout)
      (.ram ram :: deviceRegions) := by
  refine .cons ?_ (.cons ?_ (.cons ?_ (.cons ?_ (.cons ?_ .nil))))
  · exact
      { range := by
          rw [FdtNode.range_of_pair rfl, ← hbase, ← hsize]
          rfl
        interruptParent := rfl
        interrupts := rfl
        interruptsExtended := rfl
        controller := iff_of_false (List.cons_ne_nil _ _).symm RegionKind.noConfusion }
  · exact
      { range := FdtNode.range_of_pair rfl
        interruptParent := rfl
        interrupts := rfl
        interruptsExtended := by decide
        controller := iff_of_false (by decide) (by decide) }
  · exact
      { range := FdtNode.range_of_pair rfl
        interruptParent := rfl
        interrupts := rfl
        interruptsExtended := by decide
        controller := iff_of_true (by decide) rfl }
  · exact
      { range := FdtNode.range_of_pair rfl
        interruptParent := by decide
        interrupts := by decide
        interruptsExtended := rfl
        controller := iff_of_false (by decide) (by decide) }
  · exact
      { range := FdtNode.range_of_pair rfl
        interruptParent := by decide
        interrupts := by decide
        interruptsExtended := rfl
        controller := iff_of_false (by decide) (by decide) }

/-! ## The machine that has been built -/

/-- The bytes of the device tree are in RAM where a1 points to. -/
theorem MachineConfig.Built.ramByte_fdt {config : MachineConfig} {disk : List (BitVec 8)}
    {images : BootImages} {m : BuiltMachine} (h : config.Built disk images m) {i : ℕ}
    (hi : i < images.fdt.length) :
    m.cpu.bus.ramByte ((m.cpu.state.integer 11#5).toNat + i) = some (images.fdt.getD i 0#8) := by
  have haddress : m.cpu.state.integer 11#5 = config.bootLayout.fdtAddress := by
    rw [h.hart]
    rfl
  rw [h.ramByte, haddress, BootLayout.initialByte, if_pos (by omega), Nat.add_sub_cancel_left]

/-- **The device tree describes the machine.**  When the hart starts, a1 points to bytes in RAM that
decode to a tree whose regions are the regions of the bus: RAM, the CLINT, the PLIC, the UART and
the block device, each with its range, its input of the PLIC and its interrupts of the hart; and
only the reservation of the tree itself is announced. -/
theorem tree_of_built {config : MachineConfig} {files : HostFiles} {disk : List (BitVec 8)}
    {images : BootImages} {m : BuiltMachine} (hbuildable : config.Buildable files disk images)
    (h : config.Built disk images m) :
    ∃ (blob : List (BitVec 8)) (items : FdtItems) (regions : List AddressRegion)
      (controller hart : BitVec 32),
      (∀ i < blob.length, m.cpu.bus.ramByte ((m.cpu.state.integer 11#5).toNat + i) =
        some (blob.getD i 0#8)) ∧
      decodeItems blob =
        some ([(m.cpu.state.integer 11#5, config.bootLayout.fdtReservedSize)], items) ∧
      m.cpu.bus.regions.Perm regions ∧
      List.Forall₂ (FdtNode.Describes controller hart) (items.regions 2 1) regions ∧
      (items.handles (FdtValue.string (octets "riscv,cpu-intc")).bytes).map
        (fun value ↦ FdtNode.cellsOf (some value)) = [[hart]] := by
  obtain ⟨ram, hbase, hsize, hregions⟩ := h.regions
  have hok : (buildMachineFdt (effectiveConfig config.bootLayout MachineConfig.fdtConfig)).ok =
      true :=
    (ok_effectiveConfig_iff _ hbuildable.fits.ram).2
      ⟨Nat.lt_of_lt_of_le hbuildable.fits.nonempty.2.2 hbuildable.fits.fdt,
        hbuildable.fits.reservation⟩
  obtain ⟨items, hevents, hdecode⟩ := decodeItems_buildMachineFdt hok (length_machineBlob_lt hok)
  obtain rfl := eq_treeOf hevents
  have hentry : m.cpu.state.integer 11#5 = config.bootLayout.fdtAddress := by
    rw [h.hart]
    rfl
  refine ⟨images.fdt, treeOf (machineCalls (effectiveConfig config.bootLayout
    MachineConfig.fdtConfig)), _,
    plicPhandle, cpuIntcPhandle, fun i hi ↦ h.ramByte_fdt hi, ?_, hregions, ?_, ?_⟩
  · rw [hbuildable.fdt, hdecode, hentry]
    rfl
  · rw [regions_treeOf]
    exact describes_machineNodes hbase hsize
  · rw [handles_treeOf]
    decide

open SmallMachine in
/-- The hart of the small machine finds its whole bus described. -/
theorem tree_of_built_small : ∃ (m : BuiltMachine) (blob : List (BitVec 8)) (items : FdtItems),
    (∀ i < blob.length, m.cpu.bus.ramByte ((m.cpu.state.integer 11#5).toNat + i) =
      some (blob.getD i 0#8)) ∧
    decodeItems blob = some ([(m.cpu.state.integer 11#5, 0x20000#64)], items) ∧
    (items.regions 2 1).length = m.cpu.bus.regions.length := by
  obtain ⟨-, m, disk, images, -, -, hbuildable, hbuilt⟩ := buildable.built
  obtain ⟨blob, items, regions, controller, hart, hbytes, hdecode, hperm, hdescribes, -⟩ :=
    tree_of_built hbuildable hbuilt
  exact ⟨m, blob, items, hbytes, hdecode, hdescribes.length_eq.trans hperm.length_eq.symm⟩

end Rvemu
