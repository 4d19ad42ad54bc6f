import Rvemu.Bus.DeviceHistory
import Rvemu.Bus.Dispatch
import Rvemu.Runtime.Boot
import Rvemu.Runtime.Cli
import Rvemu.Runtime.Runner

/-!
# Building the machine

`buildMachine` puts RAM and the four devices on the bus, opens the disk and loads the boot images.
It succeeds exactly for the configurations that are `Buildable`, whatever the order of the stages,
and what it has built then is known down to the last byte of RAM (`Built`).

A layout whose RAM is no address range, or too long for a vector, is an exception of the constructor
of the RAM, and so is an image that opens and cannot be read (`Throws`); every other failure is a
result without a machine.
-/

set_option autoImplicit false

namespace Rvemu

structure MachineConfig where
  cli : CliOptions
  bootLayout : BootLayout := {}

/-- The files of the host at the paths of the command line. -/
structure HostFiles where
  disk : HostOpen
  bios : Except String HostFile
  kernel : Except String HostFile

structure BuiltMachine where
  cpu : Cpu
  block : VirtioBlockDevice
  bootResult : BootResult

structure MachineBuildResult where
  machine : Option BuiltMachine := none
  exitCode : ExitCode := .success
  error : String := ""

def MachineBuildResult.ok (r : MachineBuildResult) : Bool := r.machine.isSome

def MachineBuildResult.failure (code : ExitCode) (message : String) : MachineBuildResult where
  exitCode := code
  error := message

/-- The constructor of RAM, on a host that has the memory; no vector is longer than the largest
signed size. -/
def PhysicalMemory.create (base size : BitVec 64) (name : String) :
    Except String PhysicalMemory :=
  match AddressRange.create base size with
  | none => .error "RAM 物理地址范围为空或发生 64 位溢出"
  | some range =>
    if 2 ^ 63 ≤ size.toNat then .error "cannot create std::vector larger than max_size()"
    else .ok (zeroed range name)

def blockTransport : VirtioMmioTransport := { config := blockTransportConfig }

/-- The devices as they are constructed, in the order of registration. -/
def deviceRegions : List AddressRegion :=
  [.clint {}, .plic {}, .uart {}, .virtio blockTransport]

/-- Register regions until one is refused. -/
def registerAll (b : Bus) : List AddressRegion → AccessResult × Bus
  | [] => (.success, b)
  | region :: rest =>
    let registered := b.registerRegion region
    if !registered.1.ok then registered else registerAll registered.2 rest

namespace MachineConfig

variable (config : MachineConfig) (files : HostFiles)

def images : BootImageFiles where
  biosPath := config.cli.biosPath
  kernelPath := config.cli.kernelPath
  bios := files.bios
  kernel := files.kernel

def fdtConfig : FdtConfig := { includeNetwork := false }

/-- The stages after the construction of RAM. -/
def buildOn (ram : PhysicalMemory) : Except String MachineBuildResult :=
  let registered := registerAll {} (.ram ram :: deviceRegions)
  if !registered.1.ok then
    .ok (.failure .internal ("整机 MMIO/RAM 区域注册失败：" ++ registered.1.error.detail))
  else
    let disk := DiskBackend.openExisting .readWrite files.disk
    if !disk.1.ok then .ok (.failure .resource ("无法打开真实磁盘镜像：" ++ disk.1.detail))
    else
      let block : VirtioBlockDevice :=
        { disk := disk.2, observedTransportGeneration := blockTransport.generation }
      let booted := loadBootImages { bus := registered.2 } (config.images files) config.bootLayout
        fdtConfig
      match booted.1 with
      | .error what => .error what
      | .ok bootResult =>
        if !bootResult.loaded then .ok (.failure .imageFormat bootResult.error)
        else .ok { machine := some { cpu := booted.2, block, bootResult } }

end MachineConfig

def buildMachine (config : MachineConfig) (files : HostFiles) :
    Except String MachineBuildResult :=
  if config.cli.net ≠ "none" then
    .ok (.failure .resource "当前 macOS 收尾档位只支持 --net none，不创建 TAP 或伪网络后端")
  else
    match PhysicalMemory.create config.bootLayout.ramBase config.bootLayout.ramSize "ram" with
    | .error error => .error error
    | .ok ram => config.buildOn files ram

/-! ## Registration -/

namespace Bus

/-- A bus with these regions added. -/
structure Added (b b' : Bus) (l : List AddressRegion) : Prop where
  regions : b'.regions.Perm (b.regions ++ l)
  ordered : b.Ordered → b'.Ordered
  reservation : b'.reservation = b.reservation
  nextReservationToken : b'.nextReservationToken = b.nextReservationToken

theorem added_registerRegion {b : Bus} {region : AddressRegion}
    (h : (b.registerRegion region).1.ok = true) : b.Added (b.registerRegion region).2 [region] := by
  rcases b.register_cases (some region) with ⟨hno, -⟩ | ⟨r, hr, -, hreservation, htoken, hregions⟩
  · rw [register, h] at hno
    cases hno
  · obtain rfl := Option.some.inj hr
    exact
      { regions := (List.Perm.of_eq hregions).trans (List.mergeSort_perm _ _)
        ordered := fun hord ↦ ordered_registered hord (some region)
        reservation := hreservation
        nextReservationToken := htoken }

theorem Added.trans {b b' b'' : Bus} {l l' : List AddressRegion} (h : b.Added b' l)
    (h' : b'.Added b'' l') : b.Added b'' (l ++ l') where
  regions := by
    rw [← List.append_assoc]
    exact h'.regions.trans (h.regions.append_right l')
  ordered hord := h'.ordered (h.ordered hord)
  reservation := h'.reservation.trans h.reservation
  nextReservationToken := h'.nextReservationToken.trans h.nextReservationToken

/-- Regions are registered exactly if all of them are apart, and then they are what is added. -/
theorem registerAll_spec (l : List AddressRegion) (b : Bus) :
    ((registerAll b l).1.ok = true ↔ (b.regions ++ l).Pairwise AddressRegion.Apart) ∧
      ((registerAll b l).1.ok = true → b.Added (registerAll b l).2 l) := by
  induction l generalizing b with
  | nil =>
    rw [List.append_nil]
    exact ⟨iff_of_true rfl b.apart, fun _ ↦
      { regions := by rw [List.append_nil]; exact List.Perm.refl _
        ordered := id, reservation := rfl, nextReservationToken := rfl }⟩
  | cons region rest ih =>
    rw [registerAll]
    cases hok : (b.registerRegion region).1.ok with
    | false =>
      rw [if_pos (by decide), hok]
      refine ⟨iff_of_false Bool.false_ne_true fun hapart ↦ ?_, fun h ↦ absurd h (by decide)⟩
      refine Bool.false_ne_true (hok.symm.trans ((b.ok_registerRegion_iff region).2 fun r hr ↦ ?_))
      exact (List.pairwise_append.1 hapart).2.2 r hr region List.mem_cons_self
    | true =>
      obtain ⟨hiff, hadded⟩ := ih (b.registerRegion region).2
      have hfirst := added_registerRegion hok
      rw [if_neg (by decide)]
      refine ⟨hiff.trans ?_, fun h ↦ hfirst.trans (hadded h)⟩
      have hperm := hfirst.regions.append_right rest
      rw [List.append_assoc, List.singleton_append] at hperm
      exact hperm.pairwise_iff fun h ↦ h.symm

end Bus

/-! ## What can be built -/

theorem AddressRegion.apart_iff (r s : AddressRegion) : r.Apart s ↔
    BlocksApart r.range.base.toNat r.range.size.toNat s.range.base.toNat s.range.size.toNat := by
  rw [Apart, AddressRange.overlaps, Bool.and_eq_false_iff, decide_eq_false_iff_not,
    decide_eq_false_iff_not, BitVec.lt_def, BitVec.lt_def, AddressRange.toNat_endExclusive,
    AddressRange.toNat_endExclusive, BlocksApart]
  omega

theorem pairwise_deviceRegions : deviceRegions.Pairwise AddressRegion.Apart := by
  show deviceRegions.Pairwise fun r s ↦ r.range.overlaps s.range = false
  decide

/-- The RAM of the layout is an address range, and fits in a vector. -/
def BootLayout.HasRam (layout : BootLayout) : Prop :=
  (0 < layout.ramSize.toNat ∧ layout.ramBase.toNat + layout.ramSize.toNat < 2 ^ 64) ∧
    layout.ramSize.toNat < 2 ^ 63

/-- The RAM of the layout has no address in common with a device. -/
def BootLayout.ClearOfDevices (layout : BootLayout) : Prop :=
  ∀ d ∈ deviceRegions, BlocksApart layout.ramBase.toNat layout.ramSize.toNat
    d.range.base.toNat d.range.size.toNat

/-- A regular file of whole sectors, and not empty. -/
def HostOpen.IsDisk (host : HostOpen) (image : List (BitVec 8)) : Prop :=
  (∃ fits, host = .opened true image fits) ∧ 0 < image.length ∧ image.length % 512 = 0

/-- Everything is as it should be, and these are the images. -/
structure MachineConfig.Buildable (config : MachineConfig) (files : HostFiles)
    (disk : List (BitVec 8)) (images : BootImages) : Prop where
  net : config.cli.net = "none"
  ram : config.bootLayout.HasRam
  clear : config.bootLayout.ClearOfDevices
  disk : files.disk.IsDisk disk
  bios : ∃ fits, files.bios = .ok (.contents images.bios fits)
  kernel : ∃ fits, files.kernel = .ok (.contents images.kernel fits)
  fdt : images.fdt =
    (buildMachineFdt (effectiveConfig config.bootLayout MachineConfig.fdtConfig)).blob
  fits : config.bootLayout.Fits images

/-- Reading an image throws: that of the BIOS, or that of the kernel once the BIOS is there. -/
def HostFiles.Unreadable (files : HostFiles) : Prop :=
  (∃ what, files.bios = .error what) ∨
    (∃ bytes fits, files.bios = .ok (.contents bytes fits) ∧ 0 < bytes.length) ∧
      ∃ what, files.kernel = .error what

/-- Building ends in an exception that nobody catches. -/
inductive MachineConfig.Throws (config : MachineConfig) (files : HostFiles) : Prop
  | ram (hnet : config.cli.net = "none") (h : ¬ config.bootLayout.HasRam)
  | images (hnet : config.cli.net = "none") (hram : config.bootLayout.HasRam)
    (hclear : config.bootLayout.ClearOfDevices) {image : List (BitVec 8)}
    (hdisk : files.disk.IsDisk image) (h : files.Unreadable)

/-- The first stage that goes wrong, by its exit code. -/
inductive MachineConfig.FailsWith (config : MachineConfig) (files : HostFiles) : ExitCode → Prop
  | net (h : config.cli.net ≠ "none") : FailsWith config files .resource
  | regions (hnet : config.cli.net = "none") (hram : config.bootLayout.HasRam)
    (h : ¬ config.bootLayout.ClearOfDevices) : FailsWith config files .internal
  | disk (hnet : config.cli.net = "none") (hram : config.bootLayout.HasRam)
    (hclear : config.bootLayout.ClearOfDevices) (h : ∀ image, ¬ files.disk.IsDisk image) :
    FailsWith config files .resource
  | images (hnet : config.cli.net = "none") (hram : config.bootLayout.HasRam)
    (hclear : config.bootLayout.ClearOfDevices) {image : List (BitVec 8)}
    (hdisk : files.disk.IsDisk image) (hread : ¬ files.Unreadable)
    (h : ∀ images, ¬ config.Buildable files image images) : FailsWith config files .imageFormat

/-! ## What has been built -/

/-- The byte of RAM that a layout and its images put at an address. -/
def BootLayout.initialByte (layout : BootLayout) (images : BootImages) (x : ℕ) :
    Option (BitVec 8) :=
  if layout.fdtAddress.toNat ≤ x ∧ x < layout.fdtAddress.toNat + images.fdt.length then
    some (images.fdt.getD (x - layout.fdtAddress.toNat) 0#8)
  else if layout.kernelLoadAddress.toNat ≤ x ∧
      x < layout.kernelLoadAddress.toNat + images.kernel.length then
    some (images.kernel.getD (x - layout.kernelLoadAddress.toNat) 0#8)
  else if layout.biosLoadAddress.toNat ≤ x ∧
      x < layout.biosLoadAddress.toNat + images.bios.length then
    some (images.bios.getD (x - layout.biosLoadAddress.toNat) 0#8)
  else if layout.ramBase.toNat ≤ x ∧ x < layout.ramBase.toNat + layout.ramSize.toNat then some 0#8
  else none

/-- A hart at the entry of the BIOS, with the address of the device tree in a1. -/
def BootLayout.entry (layout : BootLayout) : CpuState :=
  { CpuState.reset layout.biosLoadAddress with
    integerRegisters := fun i ↦ if i = 11#5 then layout.fdtAddress else 0#64 }

/-- RAM with the images in it, and nothing else, stands beside devices at power-on; the hart, with
an empty TLB, is at the entry of the BIOS; and the disk is the whole image. -/
structure MachineConfig.Built (config : MachineConfig) (disk : List (BitVec 8))
    (images : BootImages) (m : BuiltMachine) : Prop where
  regions : ∃ ram : PhysicalMemory, ram.range.base = config.bootLayout.ramBase ∧
    ram.range.size = config.bootLayout.ramSize ∧
    m.cpu.bus.regions.Perm (.ram ram :: deviceRegions)
  ordered : m.cpu.bus.Ordered
  ramByte : ∀ x, m.cpu.bus.ramByte x = config.bootLayout.initialByte images x
  hart : m.cpu = { bus := m.cpu.bus, state := config.bootLayout.entry }
  image : m.block.disk.image = disk
  capacity : m.block.disk.capacitySectors.toNat * 512 = disk.length
  opened : m.block.disk.isOpen = true ∧ m.block.disk.writable = true
  queue : m.block.queueRuntime = {} ∧ m.block.observedTransportGeneration = 0#64
  bootResult : m.bootResult =
    { loaded := true
      biosSize := BitVec.ofNat 64 images.bios.length
      kernelSize := BitVec.ofNat 64 images.kernel.length
      fdtSize := BitVec.ofNat 64 images.fdt.length }

/-! ## The stages -/

theorem AddressRange.create_cases (base size : BitVec 64) :
    (¬ (0 < size.toNat ∧ base.toNat + size.toNat < 2 ^ 64) ∧ create base size = none) ∨
      ∃ r, create base size = some r ∧ r.base = base ∧ r.size = size := by
  have hcreate : create base size = none ↔ rangeOverflows base size = true := by
    rw [create, rangeOverflows, Bool.or_eq_true, decide_eq_true_iff, decide_eq_true_iff]
    split
    · next hzero => exact iff_of_true rfl (Or.inl hzero)
    · next hzero =>
      split
      · next hover => exact iff_of_true rfl (Or.inr hover)
      · next hover => exact iff_of_false (by simp) (not_or.2 ⟨hzero, hover⟩)
  rw [← rangeOverflows_eq_false_iff, Bool.not_eq_false, ← hcreate]
  cases h : create base size with
  | none => exact Or.inl ⟨rfl, rfl⟩
  | some r =>
    refine Or.inr ⟨r, rfl, ?_⟩
    rw [create] at h
    split at h
    · cases h
    · split at h
      · cases h
      · obtain rfl := Option.some.inj h
        exact ⟨rfl, rfl⟩

/-- RAM of the layout, before anything is loaded. -/
structure BootLayout.FreshRam (layout : BootLayout) (ram : PhysicalMemory) : Prop where
  base : ram.range.base = layout.ramBase
  size : ram.range.size = layout.ramSize
  bytes : ram.bytes = List.replicate layout.ramSize.toNat 0#8

theorem BootLayout.create_cases (layout : BootLayout) :
    (¬ layout.HasRam ∧ ∃ error,
      PhysicalMemory.create layout.ramBase layout.ramSize "ram" = .error error) ∨
    layout.HasRam ∧ ∃ ram, layout.FreshRam ram ∧
      PhysicalMemory.create layout.ramBase layout.ramSize "ram" = .ok ram := by
  rw [PhysicalMemory.create]
  rcases AddressRange.create_cases layout.ramBase layout.ramSize with
    ⟨hno, hcreate⟩ | ⟨r, hcreate, hbase, hsize⟩ <;> rw [hcreate]
  · exact Or.inl ⟨fun h ↦ hno h.1, _, rfl⟩
  dsimp only
  split
  · next hlong => exact Or.inl ⟨fun h ↦ absurd h.2 (Nat.not_lt.2 hlong), _, rfl⟩
  · next hlong =>
    refine Or.inr ⟨⟨?_, Nat.not_le.1 hlong⟩, _, ⟨hbase, hsize, ?_⟩, rfl⟩
    · rw [← hbase, ← hsize]
      exact ⟨r.size_pos, r.fits⟩
    · rw [← hsize]
      rfl

theorem readBinary_ok_iff {file : Except String HostFile} {path label : String}
    {bytes : List (BitVec 8)} : readBinary file path label = .ok bytes ↔
      (∃ fits, file = .ok (.contents bytes fits)) ∧ 0 < bytes.length := by
  constructor
  · intro h
    refine ⟨?_, (readBinary_ok h).1⟩
    match file with
    | .error what => cases h
    | .ok .cannotOpen => cases h
    | .ok (.contents bytes' fits) =>
      rw [readBinary] at h
      split at h
      · cases h
      · obtain rfl := Except.ok.inj h
        exact ⟨fits, rfl⟩
  · rintro ⟨⟨fits, rfl⟩, hpos⟩
    rw [readBinary, if_neg]
    rw [List.isEmpty_iff]
    exact List.ne_nil_of_length_pos hpos

theorem readBinary_thrown_iff {file : Except String HostFile} {path label what : String} :
    readBinary file path label = .error (.thrown what) ↔ file = .error what := by
  match file with
  | .error what' => simp [readBinary]
  | .ok .cannotOpen => simp [readBinary]
  | .ok (.contents bytes fits) =>
    rw [readBinary]
    split <;> simp

/-- The placement of images throws nothing. -/
theorem checkPlacement_ne_thrown {layout : BootLayout} {ram : Range} {bios kernel : List (BitVec 8)}
    {fdt : FdtBuildResult} {what : String} :
    checkPlacement layout ram bios kernel fdt ≠ .error (.thrown what) := by
  rw [checkPlacement]
  repeat' split
  all_goals simp

/-- The checks throw what reading an image throws. -/
theorem checkImages_thrown_iff {files : BootImageFiles} {layout : BootLayout}
    {fdtConfig : FdtConfig} {ram : Range}
    (hram : makeRange layout.ramBase layout.ramSize = some ram) :
    (∃ what, checkImages files layout fdtConfig = .error (.thrown what)) ↔
      (∃ what, files.bios = .error what) ∨
        (∃ bytes fits, files.bios = .ok (.contents bytes fits) ∧ 0 < bytes.length) ∧
          ∃ what, files.kernel = .error what := by
  have hno {bios kernel : List (BitVec 8)} {what : String} :=
    @checkPlacement_ne_thrown layout ram bios kernel
      (buildMachineFdt (effectiveConfig layout fdtConfig)) what
  have hbiosThrown (what : String) := @readBinary_thrown_iff files.bios files.biosPath "BIOS" what
  have hbiosOk (bytes : List (BitVec 8)) :=
    @readBinary_ok_iff files.bios files.biosPath "BIOS" bytes
  have hkernelThrown (what : String) :=
    @readBinary_thrown_iff files.kernel files.kernelPath "kernel" what
  rw [checkImages, hram]
  cases hbios : readBinary files.bios files.biosPath "BIOS" with
  | error error =>
    rw [hbios] at hbiosThrown hbiosOk
    have hnone : ¬ ∃ bytes fits, files.bios = .ok (.contents bytes fits) ∧ 0 < bytes.length := by
      rintro ⟨bytes, fits, heq, hpos⟩
      cases (hbiosOk bytes).2 ⟨⟨fits, heq⟩, hpos⟩
    rw [or_iff_left fun h ↦ hnone h.1]
    refine exists_congr fun what ↦ Iff.trans ⟨fun h ↦ ?_, fun h ↦ ?_⟩ (hbiosThrown what)
    · exact congrArg _ (Except.error.inj h)
    · rw [Except.error.inj h]
      rfl
  | ok bios =>
    rw [hbios] at hbiosThrown hbiosOk
    obtain ⟨⟨fits, heq⟩, hpos⟩ := (hbiosOk bios).1 rfl
    have hthere : ∃ bytes fits, files.bios = .ok (.contents bytes fits) ∧ 0 < bytes.length :=
      ⟨bios, fits, heq, hpos⟩
    rw [or_iff_right (by rintro ⟨what, h⟩; cases (hbiosThrown what).2 h), and_iff_right hthere]
    cases hkernel : readBinary files.kernel files.kernelPath "kernel" with
    | error error =>
      rw [hkernel] at hkernelThrown
      refine exists_congr fun what ↦ Iff.trans ⟨fun h ↦ ?_, fun h ↦ ?_⟩ (hkernelThrown what)
      · exact congrArg _ (Except.error.inj h)
      · rw [Except.error.inj h]
        rfl
    | ok kernel =>
      rw [hkernel] at hkernelThrown
      refine iff_of_false (fun h ↦ ?_) (fun h ↦ ?_)
      · obtain ⟨what, h⟩ := h
        exact hno h
      · obtain ⟨what, h⟩ := h
        cases (hkernelThrown what).2 h

/-- A disk is opened whole, or not at all. -/
theorem DiskBackend.openExisting_cases (host : HostOpen) :
    ((openExisting .readWrite host).1.ok = false ∧ ∀ image, ¬ host.IsDisk image) ∨
      ∃ image, host.IsDisk image ∧ (openExisting .readWrite host).1.ok = true ∧
        (openExisting .readWrite host).2.image = image ∧
        (openExisting .readWrite host).2.capacitySectors.toNat * 512 = image.length ∧
        (openExisting .readWrite host).2.isOpen = true ∧
        (openExisting .readWrite host).2.writable = true := by
  cases host with
  | openFailed errno => exact Or.inl ⟨rfl, fun image h ↦ by obtain ⟨⟨_, hno⟩, -⟩ := h; cases hno⟩
  | statFailed errno => exact Or.inl ⟨rfl, fun image h ↦ by obtain ⟨⟨_, hno⟩, -⟩ := h; cases hno⟩
  | opened regular image fits =>
    rw [openExisting]
    split
    · next hregular =>
      refine Or.inl ⟨rfl, fun image' h ↦ ?_⟩
      obtain ⟨⟨_, heq⟩, -⟩ := h
      cases heq
      cases hregular
    · next hregular =>
      rw [Bool.not_eq_false] at hregular
      subst hregular
      split
      · next hsize =>
        refine Or.inl ⟨rfl, fun image' h ↦ ?_⟩
        obtain ⟨⟨_, heq⟩, hpos, hmod⟩ := h
        cases heq
        omega
      · next hsize =>
        refine Or.inr ⟨image, ⟨⟨fits, rfl⟩, by omega, by omega⟩, rfl, rfl, ?_, rfl, rfl⟩
        show (BitVec.ofNat 64 (image.length / 512)).toNat * 512 = image.length
        rw [BitVec.toNat_ofNat, Nat.mod_eq_of_lt (by omega)]
        omega

namespace Bus

/-- On a bus that differs only in the contents of RAM there is one RAM where there was one. -/
theorem regions_perm_of_same {b b' : Bus} {ram : PhysicalMemory} {l : List AddressRegion}
    (hl : ∀ r ∈ l, deviceOf r = some r) (hregions : b.regions.Perm (.ram ram :: l))
    (hmap : b'.memoryMap = b.memoryMap) (hdevices : b'.devices = b.devices) :
    ∃ ram' : PhysicalMemory, ram'.range = ram.range ∧ b'.regions.Perm (.ram ram' :: l) := by
  obtain ⟨front, back, hsplit⟩ := List.append_of_mem (hregions.mem_iff.2 List.mem_cons_self)
  have hrest : (front ++ back).Perm l := by
    rw [hsplit] at hregions
    exact List.Perm.cons_inv (List.perm_middle.symm.trans hregions)
  -- devices stay as they are
  have hkept {k k' : List AddressRegion} (hk : ∀ r ∈ k, deviceOf r = some r)
      (hsame : k'.map deviceOf = k.map deviceOf) : k' = k := by
    rw [List.map_congr_left hk] at hsame
    have hback : k'.map deviceOf = k'.map some := by
      refine List.map_congr_left fun r hr ↦ ?_
      cases hr' : r with
      | ram m =>
        have hmem : deviceOf r ∈ k.map some := hsame ▸ List.mem_map_of_mem hr
        rw [hr'] at hmem
        simp [deviceOf] at hmem
      | _ => rfl
    exact List.map_injective_iff.2 (Option.some_injective _) (hback.symm.trans hsame)
  rw [devices, devices, hsplit, List.map_append, List.map_cons] at hdevices
  obtain ⟨front', rest', hsplit', hfront, hback⟩ := List.map_eq_append_iff.1 hdevices
  obtain ⟨r, back', rfl, hr, hback⟩ := List.map_eq_cons_iff.1 hback
  obtain rfl := hkept (fun r hr ↦ hl r (hrest.mem_iff.1 (List.mem_append_left back hr))) hfront
  obtain rfl := hkept (fun r hr ↦ hl r (hrest.mem_iff.1 (List.mem_append_right front' hr))) hback
  rw [memoryMap, memoryMap, hsplit, hsplit', List.map_append, List.map_append, List.map_cons,
    List.map_cons] at hmap
  have hidentity := (List.cons.inj (List.append_cancel_left hmap)).1
  cases r with
  | ram ram' =>
    refine ⟨ram', congrArg (·.2.1) hidentity, ?_⟩
    rw [hsplit']
    exact List.perm_middle.trans (hrest.cons _)
  | _ => cases hr

/-- A device that is there once is the device of its kind. -/
theorem component_of_perm {α : Type} {c : Component α} {b : Bus} {l : List AddressRegion} {d : α}
    (hregions : b.regions.Perm l) (hmem : c.set d ∈ l)
    (hone : ∀ r ∈ l, ∀ d', c.get r = some d' → d' = d) : b.component c = some d := by
  cases hfind : b.component c with
  | none =>
    have hno := List.findSome?_eq_none_iff.1 hfind _ (hregions.mem_iff.2 hmem)
    rw [c.get_set] at hno
    cases hno
  | some d' =>
    obtain ⟨r, hr, hget⟩ := List.exists_of_findSome?_eq_some hfind
    rw [hone r (hregions.mem_iff.1 hr) d' hget]

theorem ramByte_of_fresh {b : Bus} {layout : BootLayout} {ram : PhysicalMemory}
    (h : layout.FreshRam ram) (hregions : b.regions.Perm (.ram ram :: deviceRegions)) (x : ℕ) :
    b.ramByte x =
      if layout.ramBase.toNat ≤ x ∧ x < layout.ramBase.toNat + layout.ramSize.toNat then some 0#8
      else none := by
  split
  · next hx =>
    rw [ramByte_of_mem (hregions.mem_iff.2 List.mem_cons_self) (by rw [h.base]; exact hx.1)
      (by rw [h.base, h.size]; exact hx.2), h.bytes, h.base, List.getD_eq_getElem?_getD,
      List.getElem?_replicate, if_pos (by omega), Option.getD_some]
  · next hx =>
    refine List.findSome?_eq_none_iff.2 fun r hr ↦ ?_
    rcases List.mem_cons.1 (hregions.mem_iff.1 hr) with rfl | hdevice
    · rw [regionByte, h.base, h.size, if_neg hx]
    · simp only [deviceRegions, List.mem_cons, List.not_mem_nil, or_false] at hdevice
      rcases hdevice with rfl | rfl | rfl | rfl <;> rfl

end Bus

/-! ## Loading -/

section Loading

variable {cpu : Cpu} (files : BootImageFiles) {layout : BootLayout} (fdtConfig : FdtConfig)

/-- Images are loaded one after the other, or nothing happens. -/
theorem loadBootImages_cases (hbacked : BackedBy layout cpu.bus) :
    (∃ error, checkImages files layout fdtConfig = .error error ∧
      loadBootImages cpu files layout fdtConfig = (error.outcome, cpu)) ∨
    ∃ images, checkImages files layout fdtConfig = .ok images ∧
      ∃ bus₁ bus₂ bus₃, Bus.Loaded cpu.bus bus₁ layout.biosLoadAddress.toNat images.bios ∧
        Bus.Loaded bus₁ bus₂ layout.kernelLoadAddress.toNat images.kernel ∧
        Bus.Loaded bus₂ bus₃ layout.fdtAddress.toNat images.fdt ∧
        loadBootImages cpu files layout fdtConfig =
          (.ok
            { loaded := true
              biosSize := BitVec.ofNat 64 images.bios.length
              kernelSize := BitVec.ofNat 64 images.kernel.length
              fdtSize := BitVec.ofNat 64 images.fdt.length },
            { cpu with bus := bus₃, state := layout.entry }) := by
  cases hcheck : checkImages files layout fdtConfig with
  | error error =>
    refine Or.inl ⟨error, rfl, ?_⟩
    rw [loadBootImages, hcheck]
  | ok images =>
    obtain ⟨-, -, -, hfits⟩ := checkImages_ok_iff.1 hcheck
    have hram := hbacked _ (makeRange_eq_some_iff.2 ⟨hfits.ram.1, hfits.ram.2, rfl⟩)
    have hfdt : layout.Holds layout.fdtAddress images.fdt.length :=
      ⟨hfits.reservation.1, Nat.le_trans (Nat.add_le_add_left hfits.fdt _) hfits.reservation.2⟩
    obtain ⟨bus₁, hbios, hl₁⟩ := writeBytes_loaded "BIOS" images.bios
      (hram.sub hfits.bios.1 hfits.bios.2)
    obtain ⟨bus₂, hkernel, hl₂⟩ := writeBytes_loaded "kernel" images.kernel
      (hl₁.inRam (hram.sub hfits.kernel.1 hfits.kernel.2))
    obtain ⟨bus₃, hfdtbytes, hl₃⟩ := writeBytes_loaded "FDT" images.fdt
      (hl₂.inRam (hl₁.inRam (hram.sub hfdt.1 hfdt.2)))
    refine Or.inr ⟨images, rfl, bus₁, bus₂, bus₃, hl₁, hl₂, hl₃, ?_⟩
    simp only [loadBootImages, hcheck, hbios, hkernel, hfdtbytes, entryState_eq, BootLayout.entry]

end Loading

namespace MachineConfig

variable {config : MachineConfig} {files : HostFiles} {ram : PhysicalMemory}

theorem checkImages_ok_iff_buildable {disk : List (BitVec 8)} {images : BootImages}
    (hnet : config.cli.net = "none") (hram : config.bootLayout.HasRam)
    (hclear : config.bootLayout.ClearOfDevices) (hdisk : files.disk.IsDisk disk) :
    checkImages (config.images files) config.bootLayout fdtConfig = .ok images ↔
      config.Buildable files disk images := by
  rw [checkImages_ok_iff, readBinary_ok_iff, readBinary_ok_iff]
  constructor
  · rintro ⟨⟨hbios, -⟩, ⟨hkernel, -⟩, hfdt, hfits⟩
    exact ⟨hnet, hram, hclear, hdisk, hbios, hkernel, hfdt, hfits⟩
  · intro h
    exact ⟨⟨h.bios, h.fits.nonempty.1⟩, ⟨h.kernel, h.fits.nonempty.2.1⟩, h.fdt, h.fits⟩

theorem ok_registerAll_iff (h : config.bootLayout.FreshRam ram) :
    (registerAll {} (.ram ram :: deviceRegions)).1.ok = true ↔
      config.bootLayout.ClearOfDevices := by
  rw [(Bus.registerAll_spec _ _).1]
  show (AddressRegion.ram ram :: deviceRegions).Pairwise AddressRegion.Apart ↔ _
  rw [List.pairwise_cons, and_iff_left pairwise_deviceRegions, BootLayout.ClearOfDevices]
  refine forall₂_congr fun d _ ↦ ?_
  rw [AddressRegion.apart_iff, show (AddressRegion.ram ram).range = ram.range from rfl, h.base,
    h.size]

theorem FailsWith.not_buildable {code : ExitCode} (h : config.FailsWith files code)
    {disk : List (BitVec 8)} {images : BootImages} : ¬ config.Buildable files disk images := by
  intro hbuildable
  cases h with
  | net h => exact h hbuildable.net
  | regions hnet hram h => exact h hbuildable.clear
  | disk hnet hram hclear h => exact h disk hbuildable.disk
  | images hnet hram hclear hdisk hread h =>
    exact h images { hbuildable with disk := hdisk }

/-- RAM of the layout beside the devices, after the three loads. -/
theorem built_of_loaded (h : config.bootLayout.FreshRam ram) {b b₁ b₂ b₃ : Bus}
    (hadded : Bus.Added {} b (.ram ram :: deviceRegions)) {images : BootImages}
    (hbios : Bus.Loaded b b₁ config.bootLayout.biosLoadAddress.toNat images.bios)
    (hkernel : Bus.Loaded b₁ b₂ config.bootLayout.kernelLoadAddress.toNat images.kernel)
    (hfdt : Bus.Loaded b₂ b₃ config.bootLayout.fdtAddress.toNat images.fdt) :
    (∃ ram : PhysicalMemory, ram.range.base = config.bootLayout.ramBase ∧
      ram.range.size = config.bootLayout.ramSize ∧ b₃.regions.Perm (.ram ram :: deviceRegions)) ∧
    b₃.Ordered ∧ ∀ x, b₃.ramByte x = config.bootLayout.initialByte images x := by
  have hdevices (r : AddressRegion) (hr : r ∈ deviceRegions) : Bus.deviceOf r = some r := by
    simp only [deviceRegions, List.mem_cons, List.not_mem_nil, or_false] at hr
    rcases hr with rfl | rfl | rfl | rfl <;> rfl
  have hmap := hfdt.memoryMap_eq.trans (hkernel.memoryMap_eq.trans hbios.memoryMap_eq)
  obtain ⟨ram', hrange, hregions⟩ := Bus.regions_perm_of_same hdevices hadded.regions hmap
    (hfdt.devices_eq.trans (hkernel.devices_eq.trans hbios.devices_eq))
  refine ⟨⟨ram', by rw [hrange, h.base], by rw [hrange, h.size], hregions⟩, ?_, fun x ↦ ?_⟩
  · -- the order is one of bases
    have hbases {b b' : Bus} (hmap : b'.memoryMap = b.memoryMap) (hord : b.Ordered) :
        b'.Ordered := by
      have hpair (b : Bus) :
          b.Ordered ↔ b.memoryMap.Pairwise fun r s ↦ r.2.1.base ≤ s.2.1.base := by
        rw [Bus.memoryMap, List.pairwise_map]
        rfl
      rw [hpair, hmap, ← hpair]
      exact hord
    exact hbases hmap (hadded.ordered List.Pairwise.nil)
  · rw [hfdt.ramByte_eq, hkernel.ramByte_eq, hbios.ramByte_eq,
      Bus.ramByte_of_fresh h hadded.regions]
    rfl

/-- What a result says: a stage has failed, or the machine is built. -/
def Answers (config : MachineConfig) (files : HostFiles) (r : MachineBuildResult) : Prop :=
  (r.machine = none ∧ config.FailsWith files r.exitCode) ∨
    r.exitCode = .success ∧ ∃ m disk images, r.machine = some m ∧
      config.Buildable files disk images ∧ config.Built disk images m

/-- How building ends once there is RAM. -/
theorem buildOn_cases (hnet : config.cli.net = "none") (hram : config.bootLayout.HasRam)
    (h : config.bootLayout.FreshRam ram) :
    (config.Throws files ∧ ∃ what, config.buildOn files ram = .error what) ∨
      ∃ r, config.buildOn files ram = .ok r ∧ ¬ config.Throws files ∧ config.Answers files r := by
  have hthrows : config.Throws files ↔ config.bootLayout.ClearOfDevices ∧
      (∃ image, files.disk.IsDisk image) ∧ files.Unreadable := by
    constructor
    · rintro (⟨-, hno⟩ | ⟨-, -, hclear, hdisk, hread⟩)
      · exact absurd hram hno
      · exact ⟨hclear, ⟨_, hdisk⟩, hread⟩
    · rintro ⟨hclear, ⟨image, hdisk⟩, hread⟩
      exact .images hnet hram hclear hdisk hread
  have hregistered := ok_registerAll_iff h
  rw [buildOn]
  by_cases hclear : config.bootLayout.ClearOfDevices
  swap
  · have hno := Bool.not_eq_true _ ▸ mt hregistered.1 hclear
    rw [if_pos (by rw [hno]; rfl)]
    exact Or.inr ⟨_, rfl, fun ht ↦ hclear (hthrows.1 ht).1, Or.inl ⟨rfl, .regions hnet hram hclear⟩⟩
  have hok := hregistered.2 hclear
  have hadded := (Bus.registerAll_spec (.ram ram :: deviceRegions) {}).2 hok
  rw [if_neg (by rw [hok]; decide)]
  generalize registerAll {} (.ram ram :: deviceRegions) = registered at hadded
  dsimp only
  rcases DiskBackend.openExisting_cases files.disk with
    ⟨hdisk, hnone⟩ | ⟨disk, hdisk, hopened, himage, hcapacity, hopen, hwritable⟩
  · rw [hdisk, if_pos (by decide)]
    refine Or.inr ⟨_, rfl, fun ht ↦ ?_, Or.inl ⟨rfl, .disk hnet hram hclear hnone⟩⟩
    obtain ⟨-, ⟨image, himage⟩, -⟩ := hthrows.1 ht
    exact hnone image himage
  rw [hopened, if_neg (by decide)]
  have hbacked : BackedBy config.bootLayout ({ bus := registered.2 } : Cpu).bus := fun _ _ ↦
    ⟨ram, hadded.regions.mem_iff.2 List.mem_cons_self, by rw [h.base], by rw [h.base, h.size]⟩
  have hread : (∃ what, checkImages (config.images files) config.bootLayout fdtConfig =
      .error (.thrown what)) ↔ files.Unreadable :=
    checkImages_thrown_iff (makeRange_eq_some_iff.2 ⟨hram.1.1, hram.1.2, rfl⟩)
  have hbuildable {images : BootImages} :=
    @checkImages_ok_iff_buildable config files disk images hnet hram hclear hdisk
  rcases loadBootImages_cases (config.images files) fdtConfig hbacked with
    ⟨error, hcheck, hload⟩ | ⟨images, hcheck, b₁, b₂, b₃, hbios, hkernel, hfdt, hload⟩
  · rw [hcheck] at hread
    rw [hload]
    cases error with
    | thrown what =>
      exact Or.inl ⟨hthrows.2 ⟨hclear, ⟨disk, hdisk⟩, hread.1 ⟨what, rfl⟩⟩, what, rfl⟩
    | refused message =>
      have hreadable : ¬ files.Unreadable := fun hno ↦ by
        obtain ⟨what, hwhat⟩ := hread.2 hno
        cases hwhat
      refine Or.inr ⟨_, rfl, fun ht ↦ hreadable (hthrows.1 ht).2.2, Or.inl ⟨rfl, ?_⟩⟩
      refine .images hnet hram hclear hdisk hreadable fun images hno ↦ ?_
      cases hcheck.symm.trans (hbuildable.2 hno)
  · have hreadable : ¬ files.Unreadable := fun hno ↦ by
      obtain ⟨what, hwhat⟩ := hread.2 hno
      cases hcheck.symm.trans hwhat
    rw [hload]
    obtain ⟨hregions, hordered, hbyte⟩ := built_of_loaded h hadded hbios hkernel hfdt
    refine Or.inr ⟨_, rfl, fun ht ↦ hreadable (hthrows.1 ht).2.2, Or.inr ⟨rfl, _, disk, images, rfl,
      hbuildable.1 hcheck, ?_⟩⟩
    exact
      { regions := hregions
        ordered := hordered
        ramByte := hbyte
        hart := rfl
        image := himage
        capacity := hcapacity
        opened := ⟨hopen, hwritable⟩
        queue := ⟨rfl, rfl⟩
        bootResult := rfl }

/-- Building throws, or there is an answer. -/
theorem buildMachine_cases (config : MachineConfig) (files : HostFiles) :
    (config.Throws files ∧ ∃ what, buildMachine config files = .error what) ∨
    ∃ r, buildMachine config files = .ok r ∧ ¬ config.Throws files ∧ config.Answers files r := by
  rw [buildMachine]
  by_cases hnet : config.cli.net = "none"
  swap
  · rw [if_pos hnet]
    refine Or.inr ⟨_, rfl, fun h ↦ ?_, Or.inl ⟨rfl, .net hnet⟩⟩
    cases h with
    | ram hnet' _ => exact hnet hnet'
    | images hnet' _ _ _ _ => exact hnet hnet'
  rw [if_neg (not_not.2 hnet)]
  rcases config.bootLayout.create_cases with ⟨hno, error, herror⟩ | ⟨hhas, ram, hfresh, hram⟩
  · rw [herror]
    exact Or.inl ⟨.ram hnet hno, error, rfl⟩
  · rw [hram]
    exact buildOn_cases hnet hhas hfresh

/-- A configuration that is buildable does not throw. -/
theorem Throws.not_buildable (h : config.Throws files) {disk : List (BitVec 8)}
    {images : BootImages} : ¬ config.Buildable files disk images := by
  intro hbuildable
  cases h with
  | ram _ hno => exact hno hbuildable.ram
  | images _ _ _ _ hread =>
    obtain ⟨_, hbios⟩ := hbuildable.bios
    obtain ⟨_, hkernel⟩ := hbuildable.kernel
    rcases hread with ⟨what, hno⟩ | ⟨-, what, hno⟩
    · cases hbios.symm.trans hno
    · cases hkernel.symm.trans hno

/-- A configuration that is buildable is built. -/
theorem Buildable.built {config : MachineConfig} {files : HostFiles} {disk : List (BitVec 8)}
    {images : BootImages} (h : config.Buildable files disk images) :
    ∃ r m disk images, buildMachine config files = .ok r ∧ r.machine = some m ∧
      config.Buildable files disk images ∧ config.Built disk images m := by
  rcases config.buildMachine_cases files with ⟨hthrows, -⟩ | ⟨r, hr, -, hanswers⟩
  · exact absurd h hthrows.not_buildable
  · rcases hanswers with ⟨-, hfails⟩ | ⟨-, m, disk, images, hm, hbuildable, hbuilt⟩
    · exact absurd h hfails.not_buildable
    · exact ⟨r, m, disk, images, hr, hm, hbuildable, hbuilt⟩

end MachineConfig

/-- **Building the machine.**  Building throws exactly for RAM that is no address range or too long
for a vector, and for an image that cannot be read, once the stages before have gone well; otherwise
the machine is built exactly if the configuration is buildable, and a result without a machine has
the exit code of the first stage that goes wrong.  What is built is RAM that holds the images and is
zero elsewhere, the four devices at power-on, the whole disk, and a hart at the entry of the
BIOS. -/
theorem buildMachine_spec (config : MachineConfig) (files : HostFiles) :
    ((∃ what, buildMachine config files = .error what) ↔ config.Throws files) ∧
    ∀ r, buildMachine config files = .ok r →
      (r.ok = true ↔ ∃ disk images, config.Buildable files disk images) ∧
      (r.ok = false → config.FailsWith files r.exitCode) ∧
      ∀ m, r.machine = some m → r.exitCode = .success ∧
        ∃ disk images, config.Buildable files disk images ∧ config.Built disk images m := by
  rcases config.buildMachine_cases files with
    ⟨hthrows, what, hwhat⟩ | ⟨r, hr, hthrows, hanswers⟩
  · rw [hwhat]
    exact ⟨iff_of_true ⟨what, rfl⟩ hthrows, fun r h ↦ (by cases h)⟩
  · rw [hr]
    refine ⟨iff_of_false (by rintro ⟨_, h⟩; cases h) hthrows, fun r' h ↦ ?_⟩
    obtain rfl := Except.ok.inj h
    rcases hanswers with ⟨hnone, hfails⟩ | ⟨hcode, m, disk, images, hm, hbuildable, hbuilt⟩
    · refine ⟨iff_of_false ?_ ?_, fun _ ↦ hfails, fun m hm ↦ ?_⟩
      · rw [MachineBuildResult.ok, hnone]
        exact Bool.false_ne_true
      · rintro ⟨disk, images, hbuildable⟩
        exact hfails.not_buildable hbuildable
      · rw [hnone] at hm
        cases hm
    · rw [MachineBuildResult.ok, hm]
      refine ⟨iff_of_true rfl ⟨disk, images, hbuildable⟩, fun h ↦ (by cases h), fun m' hm' ↦ ?_⟩
      obtain rfl := Option.some.inj hm'
      exact ⟨hcode, disk, images, hbuildable, hbuilt⟩

namespace SmallMachine

def smallLayout : BootLayout := bootLayout 0x80008000#64

/-- RAM of 256 KiB, two small images and a disk of one sector. -/
def buildConfig : MachineConfig where
  cli := { biosPath := "opensbi.raw", kernelPath := "Image.raw", diskPath := "rootfs.ext4" }
  bootLayout := smallLayout

theorem blankSector_fits : (List.replicate 512 0#8).length < 2 ^ 63 := by
  rw [List.length_replicate]
  omega

def hostFiles : HostFiles where
  disk := .opened true (List.replicate 512 0#8) blankSector_fits
  bios := bootFiles.bios
  kernel := bootFiles.kernel

theorem buildable : buildConfig.Buildable hostFiles (List.replicate 512 0#8) bootImages := by
  have hram : buildConfig.bootLayout.HasRam := ⟨⟨by decide, by decide⟩, by decide⟩
  refine (MachineConfig.checkImages_ok_iff_buildable rfl hram ?_ ⟨⟨_, rfl⟩, ?_, ?_⟩).1
    (checkImages_boot (Or.inl (by decide)))
  · simp only [BootLayout.ClearOfDevices, deviceRegions, List.mem_cons, List.not_mem_nil, or_false,
      forall_eq_or_imp, forall_eq, BlocksApart]
    decide
  · rw [List.length_replicate]
    omega
  · rw [List.length_replicate]

end SmallMachine

open SmallMachine in
/-- The small machine is built. -/
theorem buildMachine_small : ∃ r m disk images,
    buildMachine buildConfig hostFiles = .ok r ∧ r.machine = some m ∧
      buildConfig.Buildable hostFiles disk images ∧ buildConfig.Built disk images m ∧
      m.cpu.state.programCounter = 0x80000000#64 := by
  obtain ⟨hthrows, hresult⟩ := buildMachine_spec buildConfig hostFiles
  cases hbuild : buildMachine buildConfig hostFiles with
  | error error => exact absurd buildable (hthrows.1 ⟨error, hbuild⟩).not_buildable
  | ok r =>
    obtain ⟨hiff, -, hall⟩ := hresult r hbuild
    obtain ⟨m, hm⟩ := Option.isSome_iff_exists.1 (hiff.2 ⟨_, _, buildable⟩)
    obtain ⟨-, disk, images, hbuildable, hbuilt⟩ := hall m hm
    refine ⟨r, m, disk, images, rfl, hm, hbuildable, hbuilt, ?_⟩
    rw [hbuilt.hart]
    rfl

end Rvemu
