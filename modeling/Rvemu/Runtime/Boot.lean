import Rvemu.Bus.Loading
import Rvemu.Core.GuestAccess
import Rvemu.Runtime.FdtRoundTrip

/-!
# Loading the boot images

`loadBootImages` puts the BIOS, the kernel and the device tree into RAM and the CPU at its entry.
All checks come before the first write, so they are a function of their own, `checkImages`; what
they accept is a matter of numbers (`Fits`), and then the three loads cannot fail.

The device tree is checked with two sizes: that of the blob against the other images, and that of
its reservation against RAM.
-/

set_option autoImplicit false

namespace Rvemu

open Wire

/-! ## The images -/

/-- What is wrong with the images: a message, or an exception that nobody catches. -/
inductive ImageError
  | refused (message : String)
  | thrown (what : String)
  deriving DecidableEq, Repr

/-- What is at a path may open and yet not be readable, such as a directory.  The iterator over it
throws then, and the check of the stream behind it is never reached. -/
def readBinary (file : Except String HostFile) (path label : String) :
    Except ImageError (List (BitVec 8)) :=
  match file with
  | .error what => .error (.thrown what)
  | .ok .cannotOpen => .error (.refused ("无法打开 " ++ label ++ " 文件：" ++ path))
  | .ok (.contents bytes _) =>
    if bytes.isEmpty then .error (.refused (label ++ " 文件为空")) else .ok bytes

structure BootLayout where
  ramBase : BitVec 64 := 0x80000000#64
  ramSize : BitVec 64 := 0x40000000#64
  biosLoadAddress : BitVec 64 := 0x80000000#64
  kernelLoadAddress : BitVec 64 := 0x80200000#64
  fdtAddress : BitVec 64 := 0xBFE00000#64
  fdtReservedSize : BitVec 64 := 0x00020000#64
  deriving DecidableEq, Repr

/-- The files at the paths of the images. -/
structure BootImageFiles where
  biosPath : String
  kernelPath : String
  bios : Except String HostFile
  kernel : Except String HostFile

structure BootResult where
  loaded : Bool := false
  biosSize : BitVec 64 := 0#64
  kernelSize : BitVec 64 := 0#64
  fdtSize : BitVec 64 := 0#64
  error : String := ""
  deriving DecidableEq, Repr

/-- What the caller sees of an error. -/
def ImageError.outcome : ImageError → Except String BootResult
  | refused error => .ok { error }
  | thrown what => .error what

structure BootImages where
  bios : List (BitVec 8)
  kernel : List (BitVec 8)
  fdt : List (BitVec 8)
  deriving DecidableEq, Repr

/-! ## Ranges -/

structure Range where
  first : BitVec 64 := 0#64
  last : BitVec 64 := 0#64
  deriving DecidableEq, Repr

def makeRange (first size : BitVec 64) : Option Range :=
  if size = 0#64 || first > BitVec.allOnes 64 - size then none
  else some { first, last := first + size }

def Range.contains (outer inner : Range) : Bool :=
  outer.first ≤ inner.first && inner.last ≤ outer.last

def Range.overlaps (lhs rhs : Range) : Bool :=
  lhs.first < rhs.last && rhs.first < lhs.last

/-! ## Loading -/

def effectiveConfig (layout : BootLayout) (fdtConfig : FdtConfig) : FdtConfig :=
  { fdtConfig with
    ramBase := layout.ramBase
    ramSize := layout.ramSize
    fdtAddress := layout.fdtAddress
    fdtReservedSize := layout.fdtReservedSize }

/-- The checks of `load_boot_images` once the images are there.  A blob has as many bytes as it has:
`blob.size()` is not cut to 64 bits here. -/
def checkPlacement (layout : BootLayout) (ram : Range) (bios kernel : List (BitVec 8))
    (fdt : FdtBuildResult) : Except ImageError BootImages :=
  if !fdt.ok then .error (.refused fdt.error)
  else if layout.fdtReservedSize.toNat < fdt.blob.length then
    .error (.refused "生成的 FDT 超过保留区")
  else
    match makeRange layout.biosLoadAddress (BitVec.ofNat 64 bios.length),
      makeRange layout.kernelLoadAddress (BitVec.ofNat 64 kernel.length),
      makeRange layout.fdtAddress (BitVec.ofNat 64 fdt.blob.length) with
    | some biosRange, some kernelRange, some fdtRange =>
      if !ram.contains biosRange || !ram.contains kernelRange || !ram.contains fdtRange then
        .error (.refused "BIOS、kernel 或 FDT 不完全位于 RAM 内")
      else if biosRange.overlaps kernelRange || biosRange.overlaps fdtRange ||
          kernelRange.overlaps fdtRange then
        .error (.refused "BIOS、kernel 和 FDT 装载范围发生重叠")
      else .ok { bios, kernel, fdt := fdt.blob }
    | _, _, _ => .error (.refused "镜像地址加长度发生溢出")

/-- All checks of `load_boot_images`, in order. -/
def checkImages (files : BootImageFiles) (layout : BootLayout) (fdtConfig : FdtConfig) :
    Except ImageError BootImages :=
  match makeRange layout.ramBase layout.ramSize with
  | none => .error (.refused "RAM 范围无效")
  | some ram => do
    let bios ← readBinary files.bios files.biosPath "BIOS"
    let kernel ← readBinary files.kernel files.kernelPath "kernel"
    checkPlacement layout ram bios kernel (buildMachineFdt (effectiveConfig layout fdtConfig))

/-- The loop of `write_bytes` from `offset` on. -/
def writeBytesFrom (address : BitVec 64) (label : String) :
    ℕ → List (BitVec 8) → Bus → Option String × Bus
  | _, [], bus => (none, bus)
  | offset, byte :: bytes, bus =>
    let written := bus.write (address + BitVec.ofNat 64 offset) .byte (byte.setWidth 64)
      .initialization
    if !written.1.ok then
      (some (label ++ " 写入来宾内存失败：" ++ written.1.error.detail), written.2)
    else writeBytesFrom address label (offset + 1) bytes written.2

def writeBytes (bus : Bus) (address : BitVec 64) (bytes : List (BitVec 8)) (label : String) :
    Option String × Bus :=
  writeBytesFrom address label 0 bytes bus

def loadBootImages (cpu : Cpu) (files : BootImageFiles) (layout : BootLayout)
    (fdtConfig : FdtConfig) : Except String BootResult × Cpu :=
  match checkImages files layout fdtConfig with
  | .error error => (error.outcome, cpu)
  | .ok images =>
    let bios := writeBytes cpu.bus layout.biosLoadAddress images.bios "BIOS"
    match bios.1 with
    | some error => (.ok { error }, { cpu with bus := bios.2 })
    | none =>
      let kernel := writeBytes bios.2 layout.kernelLoadAddress images.kernel "kernel"
      match kernel.1 with
      | some error => (.ok { error }, { cpu with bus := kernel.2 })
      | none =>
        let fdt := writeBytes kernel.2 layout.fdtAddress images.fdt "FDT"
        match fdt.1 with
        | some error => (.ok { error }, { cpu with bus := fdt.2 })
        | none =>
          (.ok
            { loaded := true
              biosSize := BitVec.ofNat 64 images.bios.length
              kernelSize := BitVec.ofNat 64 images.kernel.length
              fdtSize := BitVec.ofNat 64 images.fdt.length },
            { cpu with
              bus := fdt.2
              state := ((CpuState.reset layout.biosLoadAddress).setInteger 10#5
                0#64).setInteger 11#5
                layout.fdtAddress })

/-! ## The checks as numbers -/

theorem rangeOverflows_eq_false_iff {base size : BitVec 64} : rangeOverflows base size = false ↔
    0 < size.toNat ∧ base.toNat + size.toNat < 2 ^ 64 := by
  have hzero : size = 0#64 ↔ size.toNat = 0 :=
    ⟨fun h ↦ by rw [h]; rfl, fun h ↦ BitVec.eq_of_toNat_eq h⟩
  have hsize := size.isLt
  have hover : base > BitVec.allOnes 64 - size ↔ 2 ^ 64 ≤ base.toNat + size.toNat := by
    rw [gt_iff_lt, BitVec.lt_def, BitVec.toNat_sub, BitVec.toNat_allOnes]
    omega
  rw [rangeOverflows, Bool.or_eq_false_iff, decide_eq_false_iff_not, decide_eq_false_iff_not, hzero,
    hover]
  omega

theorem makeRange_eq_some_iff {first size : BitVec 64} {r : Range} :
    makeRange first size = some r ↔
      0 < size.toNat ∧ first.toNat + size.toNat < 2 ^ 64 ∧ r = { first, last := first + size } := by
  have hmake : makeRange first size =
      if rangeOverflows first size then none else some { first, last := first + size } := rfl
  rw [hmake, ← and_assoc, ← rangeOverflows_eq_false_iff]
  cases rangeOverflows first size <;> simp [eq_comm]

/-- Two blocks of memory have no byte in common. -/
def BlocksApart (a n a' n' : ℕ) : Prop := a + n ≤ a' ∨ a' + n' ≤ a

section Ranges

variable {first size first' size' : BitVec 64} {r r' : Range}
  (h : makeRange first size = some r) (h' : makeRange first' size' = some r')

include h h'

theorem contains_iff : r.contains r' = true ↔
    first.toNat ≤ first'.toNat ∧ first'.toNat + size'.toNat ≤ first.toNat + size.toNat := by
  obtain ⟨-, hfits, rfl⟩ := makeRange_eq_some_iff.1 h
  obtain ⟨-, hfits', rfl⟩ := makeRange_eq_some_iff.1 h'
  simp only [Range.contains, Bool.and_eq_true, decide_eq_true_eq, BitVec.le_def, BitVec.toNat_add,
    Nat.mod_eq_of_lt hfits, Nat.mod_eq_of_lt hfits']

theorem overlaps_eq_false_iff : r.overlaps r' = false ↔
    BlocksApart first.toNat size.toNat first'.toNat size'.toNat := by
  obtain ⟨-, hfits, rfl⟩ := makeRange_eq_some_iff.1 h
  obtain ⟨-, hfits', rfl⟩ := makeRange_eq_some_iff.1 h'
  simp only [Range.overlaps, Bool.and_eq_false_iff, decide_eq_false_iff_not, BitVec.lt_def,
    BitVec.toNat_add, Nat.mod_eq_of_lt hfits, Nat.mod_eq_of_lt hfits', BlocksApart]
  omega

end Ranges

/-- A block of RAM as the layout has it. -/
def BootLayout.Holds (layout : BootLayout) (address : BitVec 64) (n : ℕ) : Prop :=
  layout.ramBase.toNat ≤ address.toNat ∧
    address.toNat + n ≤ layout.ramBase.toNat + layout.ramSize.toNat

theorem ok_buildMachineFdt_iff (config : FdtConfig) : (buildMachineFdt config).ok = true ↔
    (0 < config.ramSize.toNat ∧ config.ramBase.toNat + config.ramSize.toNat < 2 ^ 64) ∧
    (0 < config.fdtReservedSize.toNat ∧
      config.fdtAddress.toNat + config.fdtReservedSize.toNat < 2 ^ 64) ∧
    config.ramBase.toNat ≤ config.fdtAddress.toNat ∧
    config.fdtAddress.toNat + config.fdtReservedSize.toNat ≤
      config.ramBase.toNat + config.ramSize.toNat := by
  rw [buildMachineFdt, ← rangeOverflows_eq_false_iff, ← rangeOverflows_eq_false_iff]
  cases hram : rangeOverflows config.ramBase config.ramSize with
  | true => simp [FdtBuildResult.ok]
  | false =>
    cases hfdt : rangeOverflows config.fdtAddress config.fdtReservedSize with
    | true => simp [FdtBuildResult.ok]
    | false =>
      obtain ⟨-, hram'⟩ := rangeOverflows_eq_false_iff.1 hram
      obtain ⟨-, hfdt'⟩ := rangeOverflows_eq_false_iff.1 hfdt
      rw [if_neg (by simp)]
      simp only [Bool.or_eq_true, decide_eq_true_eq, BitVec.lt_def, gt_iff_lt, BitVec.toNat_add,
        Nat.mod_eq_of_lt hram', Nat.mod_eq_of_lt hfdt', true_and]
      split
      · next hbad =>
        simp only [FdtBuildResult.ok]
        refine iff_of_false (by decide) ?_
        omega
      · next hgood => exact iff_of_true rfl (by omega)

theorem ok_effectiveConfig_iff {layout : BootLayout} (fdtConfig : FdtConfig)
    (hram : 0 < layout.ramSize.toNat ∧ layout.ramBase.toNat + layout.ramSize.toNat < 2 ^ 64) :
    (buildMachineFdt (effectiveConfig layout fdtConfig)).ok = true ↔
      0 < layout.fdtReservedSize.toNat ∧
        layout.Holds layout.fdtAddress layout.fdtReservedSize.toNat := by
  have hsize := layout.fdtReservedSize.isLt
  rw [ok_buildMachineFdt_iff, BootLayout.Holds]
  simp only [effectiveConfig]
  omega

/-- The images are not empty, they and the reservation of the device tree lie in RAM, and the images
have no byte in common. -/
structure BootLayout.Fits (layout : BootLayout) (images : BootImages) : Prop where
  ram : 0 < layout.ramSize.toNat ∧ layout.ramBase.toNat + layout.ramSize.toNat < 2 ^ 64
  nonempty : 0 < images.bios.length ∧ 0 < images.kernel.length ∧ 0 < images.fdt.length
  bios : layout.Holds layout.biosLoadAddress images.bios.length
  kernel : layout.Holds layout.kernelLoadAddress images.kernel.length
  reservation : layout.Holds layout.fdtAddress layout.fdtReservedSize.toNat
  fdt : images.fdt.length ≤ layout.fdtReservedSize.toNat
  biosKernel : BlocksApart layout.biosLoadAddress.toNat images.bios.length
    layout.kernelLoadAddress.toNat images.kernel.length
  biosFdt : BlocksApart layout.biosLoadAddress.toNat images.bios.length layout.fdtAddress.toNat
    images.fdt.length
  kernelFdt : BlocksApart layout.kernelLoadAddress.toNat images.kernel.length
    layout.fdtAddress.toNat images.fdt.length

theorem readBinary_ok {file : Except String HostFile} {path label : String}
    {bytes : List (BitVec 8)} (h : readBinary file path label = .ok bytes) :
    0 < bytes.length ∧ bytes.length < 2 ^ 64 := by
  match file with
  | .error what => cases h
  | .ok .cannotOpen => cases h
  | .ok (.contents bytes' fits) =>
    rw [readBinary] at h
    split at h
    · cases h
    · next hne =>
      obtain rfl := Except.ok.inj h
      refine ⟨?_, fits⟩
      cases bytes' with
      | nil => exact absurd rfl hne
      | cons => exact Nat.succ_pos _

theorem length_blob_pos {config : FdtConfig} (h : (buildMachineFdt config).ok = true) :
    0 < (buildMachineFdt config).blob.length := by
  rw [(buildMachineFdt_ok h).1, blobOf, length_joinBlob]
  omega

section Checks

variable {layout : BootLayout} {fdtConfig : FdtConfig} {images : BootImages}

/-- Images in memory are placed as the layout says or not at all. -/
theorem checkPlacement_ok_iff {ram : Range}
    (hram : makeRange layout.ramBase layout.ramSize = some ram)
    (hbios : 0 < images.bios.length ∧ images.bios.length < 2 ^ 64)
    (hkernel : 0 < images.kernel.length ∧ images.kernel.length < 2 ^ 64)
    (hfdt : images.fdt = (buildMachineFdt (effectiveConfig layout fdtConfig)).blob) :
    checkPlacement layout ram images.bios images.kernel
        (buildMachineFdt (effectiveConfig layout fdtConfig)) = .ok images ↔
      layout.Fits images := by
  obtain ⟨hram₁, hram₂, -⟩ := makeRange_eq_some_iff.1 hram
  have hfdtok := ok_effectiveConfig_iff fdtConfig ⟨hram₁, hram₂⟩
  have hpos := @length_blob_pos (effectiveConfig layout fdtConfig)
  rw [checkPlacement]
  rw [← hfdt] at hpos ⊢
  cases hok : (buildMachineFdt (effectiveConfig layout fdtConfig)).ok with
  | false =>
    refine iff_of_false (by simp) fun hfits ↦ ?_
    rw [hfdtok.2 ⟨Nat.lt_of_lt_of_le hfits.nonempty.2.2 hfits.fdt, hfits.reservation⟩] at hok
    cases hok
  | true =>
  obtain ⟨hreserved, hholds⟩ := hfdtok.1 hok
  rw [if_neg (by simp)]
  by_cases hroom : layout.fdtReservedSize.toNat < images.fdt.length
  · rw [if_pos hroom]
    exact iff_of_false (by simp) fun hfits ↦ absurd hfits.fdt (Nat.not_le.2 hroom)
  rw [if_neg hroom]
  have hfdtlt : images.fdt.length < 2 ^ 64 := by omega
  have htoNat (n : ℕ) (h : n < 2 ^ 64) : (BitVec.ofNat 64 n).toNat = n := by
    rw [BitVec.toNat_ofNat, Nat.mod_eq_of_lt h]
  have hrange (address : BitVec 64) (n : ℕ) (hn : 0 < n) (hlt : n < 2 ^ 64)
      (h : makeRange address (BitVec.ofNat 64 n) = none) : ¬ layout.Holds address n := by
    rintro ⟨-, hlast⟩
    rw [makeRange_eq_some_iff.2 ⟨by rwa [htoNat n hlt], by rw [htoNat n hlt]; omega, rfl⟩] at h
    cases h
  cases hb : makeRange layout.biosLoadAddress (BitVec.ofNat 64 images.bios.length) with
  | none =>
    exact iff_of_false (by simp) fun hfits ↦ hrange _ _ hbios.1 hbios.2 hb hfits.bios
  | some biosRange =>
  cases hk : makeRange layout.kernelLoadAddress (BitVec.ofNat 64 images.kernel.length) with
  | none =>
    exact iff_of_false (by simp) fun hfits ↦ hrange _ _ hkernel.1 hkernel.2 hk hfits.kernel
  | some kernelRange =>
  cases hf : makeRange layout.fdtAddress (BitVec.ofNat 64 images.fdt.length) with
  | none =>
    refine iff_of_false (by simp) fun hfits ↦ hrange _ _ (hpos hok) hfdtlt hf ?_
    exact ⟨hholds.1, Nat.le_trans (Nat.add_le_add_left hfits.fdt _) hholds.2⟩
  | some fdtRange =>
  have hcb := contains_iff hram hb
  have hck := contains_iff hram hk
  have hcf := contains_iff hram hf
  have hobk := overlaps_eq_false_iff hb hk
  have hobf := overlaps_eq_false_iff hb hf
  have hokf := overlaps_eq_false_iff hk hf
  rw [htoNat _ hbios.2] at hcb hobk hobf
  rw [htoNat _ hkernel.2] at hck hobk hokf
  rw [htoNat _ hfdtlt] at hcf hobf hokf
  dsimp only
  constructor
  · intro h
    split at h
    · cases h
    · next hcontains =>
      split at h
      · cases h
      · next hoverlap =>
        simp only [Bool.or_eq_true, Bool.not_eq_true', not_or, Bool.not_eq_false,
          Bool.not_eq_true] at hcontains hoverlap
        exact
          { ram := ⟨hram₁, hram₂⟩
            nonempty := ⟨hbios.1, hkernel.1, hpos hok⟩
            bios := hcb.1 hcontains.1.1
            kernel := hck.1 hcontains.1.2
            reservation := hholds
            fdt := Nat.not_lt.1 hroom
            biosKernel := hobk.1 hoverlap.1.1
            biosFdt := hobf.1 hoverlap.1.2
            kernelFdt := hokf.1 hoverlap.2 }
  · intro hfits
    have hfdtholds : layout.Holds layout.fdtAddress images.fdt.length :=
      ⟨hholds.1, Nat.le_trans (Nat.add_le_add_left hfits.fdt _) hholds.2⟩
    rw [hcb.2 hfits.bios, hck.2 hfits.kernel, hcf.2 hfdtholds, hobk.2 hfits.biosKernel,
      hobf.2 hfits.biosFdt, hokf.2 hfits.kernelFdt]
    rfl

theorem images_of_checkPlacement {ram : Range} {bios kernel : List (BitVec 8)}
    {fdt : FdtBuildResult} (h : checkPlacement layout ram bios kernel fdt = .ok images) :
    images = { bios, kernel, fdt := fdt.blob } := by
  rw [checkPlacement] at h
  repeat' split at h
  all_goals cases h
  rfl

/-- What the checks accept. -/
theorem checkImages_ok_iff {files : BootImageFiles} :
    checkImages files layout fdtConfig = .ok images ↔
      readBinary files.bios files.biosPath "BIOS" = .ok images.bios ∧
      readBinary files.kernel files.kernelPath "kernel" = .ok images.kernel ∧
      images.fdt = (buildMachineFdt (effectiveConfig layout fdtConfig)).blob ∧
      layout.Fits images := by
  constructor
  · intro h
    rw [checkImages] at h
    split at h
    · cases h
    · next ram hram =>
      cases hbios : readBinary files.bios files.biosPath "BIOS" with
      | error e =>
        rw [hbios] at h
        cases h
      | ok bios =>
        cases hkernel : readBinary files.kernel files.kernelPath "kernel" with
        | error e =>
          rw [hbios, hkernel] at h
          cases h
        | ok kernel =>
          rw [hbios, hkernel] at h
          replace h : checkPlacement layout ram bios kernel
            (buildMachineFdt (effectiveConfig layout fdtConfig)) = .ok images := h
          obtain rfl := images_of_checkPlacement h
          exact ⟨rfl, rfl, rfl, (checkPlacement_ok_iff hram (readBinary_ok hbios)
            (readBinary_ok hkernel) rfl).1 h⟩
  · rintro ⟨hbios, hkernel, hfdt, hfits⟩
    have hram := makeRange_eq_some_iff.2 ⟨hfits.ram.1, hfits.ram.2, rfl⟩
    rw [checkImages, hram, hbios, hkernel]
    exact (checkPlacement_ok_iff hram (readBinary_ok hbios) (readBinary_ok hkernel) hfdt).2 hfits

end Checks

/-! ## The writes -/

theorem writeBytesFrom_loaded {address : BitVec 64} (label : String) (bytes : List (BitVec 8))
    (offset : ℕ) {bus : Bus} (h : bus.InRam (address.toNat + offset) bytes.length) :
    (writeBytesFrom address label offset bytes bus).1 = none ∧
      Bus.Loaded bus (writeBytesFrom address label offset bytes bus).2 (address.toNat + offset)
        bytes := by
  induction bytes generalizing offset bus with
  | nil => exact ⟨rfl, .nil _ _⟩
  | cons byte bytes ih =>
    have hlt := h.lt
    rw [List.length_cons] at h hlt
    have haddress : (address + BitVec.ofNat 64 offset).toNat = address.toNat + offset := by
      rw [BitVec.toNat_add, BitVec.toNat_ofNat, Nat.mod_eq_of_lt (a := offset) (by omega),
        Nat.mod_eq_of_lt (by omega)]
    have hin : bus.InRam (address + BitVec.ofNat 64 offset).toNat (widthInBytes .byte) := by
      rw [haddress]
      exact h.sub (Nat.le_refl _) (by rw [widthInBytes]; omega)
    obtain ⟨hok, hloaded⟩ := hin.loaded (byte.setWidth 64) .initialization
    have hbyte : (List.range (widthInBytes .byte)).map (Bytes.splitByte (byte.setWidth 64)) =
        [byte] := by
      simp [widthInBytes, Bytes.splitByte]
    rw [hbyte, haddress] at hloaded
    have hnext : bus.InRam (address.toNat + (offset + 1)) bytes.length :=
      h.sub (by omega) (by omega)
    obtain ⟨hnone, hrest⟩ := ih (offset + 1) (hloaded.inRam hnext)
    rw [writeBytesFrom, hok, if_neg (by simp)]
    exact ⟨hnone, hloaded.append hrest⟩

theorem writeBytes_loaded {address : BitVec 64} (label : String) (bytes : List (BitVec 8))
    {bus : Bus} (h : bus.InRam address.toNat bytes.length) :
    ∃ bus', writeBytes bus address bytes label = (none, bus') ∧
      Bus.Loaded bus bus' address.toNat bytes := by
  obtain ⟨hnone, hloaded⟩ := writeBytesFrom_loaded label bytes 0 h
  exact ⟨_, Prod.ext hnone rfl, hloaded⟩

/-! ## The state after loading -/

/-- The three images lie in RAM, they and the reservation have no byte in common, memory holds them
and is otherwise unchanged, the blob announces the reservation, and the CPU is at its entry. -/
structure Booted (cpu : Cpu) (layout : BootLayout) (images : BootImages) (cpu' : Cpu) : Prop where
  inside : layout.Holds layout.biosLoadAddress images.bios.length ∧
    layout.Holds layout.kernelLoadAddress images.kernel.length ∧
    layout.Holds layout.fdtAddress layout.fdtReservedSize.toNat
  fdt : images.fdt.length ≤ layout.fdtReservedSize.toNat
  announced : ∃ header, FdtHeader.read images.fdt = some header ∧
    readReserve images.fdt.length (images.fdt.drop header.reserveOffset.toNat) =
      some [(layout.fdtAddress, layout.fdtReservedSize)]
  biosKernel : BlocksApart layout.biosLoadAddress.toNat images.bios.length
    layout.kernelLoadAddress.toNat images.kernel.length
  biosReservation : BlocksApart layout.biosLoadAddress.toNat images.bios.length
    layout.fdtAddress.toNat layout.fdtReservedSize.toNat
  kernelReservation : BlocksApart layout.kernelLoadAddress.toNat images.kernel.length
    layout.fdtAddress.toNat layout.fdtReservedSize.toNat
  biosBytes : ∀ i, i < images.bios.length →
    cpu'.bus.ramByte (layout.biosLoadAddress.toNat + i) = some (images.bios.getD i 0#8)
  kernelBytes : ∀ i, i < images.kernel.length →
    cpu'.bus.ramByte (layout.kernelLoadAddress.toNat + i) = some (images.kernel.getD i 0#8)
  fdtBytes : ∀ i, i < images.fdt.length →
    cpu'.bus.ramByte (layout.fdtAddress.toNat + i) = some (images.fdt.getD i 0#8)
  others : ∀ x,
    (x < layout.biosLoadAddress.toNat ∨
      layout.biosLoadAddress.toNat + images.bios.length ≤ x) →
    (x < layout.kernelLoadAddress.toNat ∨
      layout.kernelLoadAddress.toNat + images.kernel.length ≤ x) →
    (x < layout.fdtAddress.toNat ∨ layout.fdtAddress.toNat + images.fdt.length ≤ x) →
    cpu'.bus.ramByte x = cpu.bus.ramByte x
  state : cpu'.state =
    { CpuState.reset layout.biosLoadAddress with
      integerRegisters := fun i ↦ if i = 11#5 then layout.fdtAddress else 0#64 }

theorem entryState_eq (resetPc fdtAddress : BitVec 64) :
    ((CpuState.reset resetPc).setInteger 10#5 0#64).setInteger 11#5 fdtAddress =
      { CpuState.reset resetPc with
        integerRegisters := fun i ↦ if i = 11#5 then fdtAddress else 0#64 } := by
  have hregisters : Function.update
      (Function.update (CpuState.reset resetPc).integerRegisters 10#5 0#64) 11#5 fdtAddress =
        fun i ↦ if i = 11#5 then fdtAddress else 0#64 := by
    funext i
    rw [Function.update_apply, Function.update_apply]
    split
    · rfl
    · exact ite_self _
  rw [CpuState.setInteger, if_neg (by decide), CpuState.setInteger, if_neg (by decide)]
  exact congrArg
    (fun integerRegisters ↦ { CpuState.reset resetPc with integerRegisters := integerRegisters })
    hregisters

/-- The RAM of the layout is RAM of the machine. -/
def BackedBy (layout : BootLayout) (bus : Bus) : Prop :=
  ∀ ram, makeRange layout.ramBase layout.ramSize = some ram →
    bus.InRam layout.ramBase.toNat layout.ramSize.toNat

/-- Neither the BIOS nor the kernel reaches into the reservation of the device tree. -/
def ReservationClear (layout : BootLayout) (images : BootImages) : Prop :=
  BlocksApart layout.biosLoadAddress.toNat images.bios.length layout.fdtAddress.toNat
      layout.fdtReservedSize.toNat ∧
    BlocksApart layout.kernelLoadAddress.toNat images.kernel.length layout.fdtAddress.toNat
      layout.fdtReservedSize.toNat

section Loading

variable {cpu : Cpu} {files : BootImageFiles} {layout : BootLayout} {fdtConfig : FdtConfig}
  {images : BootImages}

/-- Images that pass the checks are loaded, and all is in order if the reservation is clear. -/
theorem loadBootImages_of_ok (hbacked : BackedBy layout cpu.bus)
    (hok : checkImages files layout fdtConfig = .ok images) :
    (∃ result, (loadBootImages cpu files layout fdtConfig).1 = .ok result ∧
      result.loaded = true) ∧
      (ReservationClear layout images →
        Booted cpu layout images (loadBootImages cpu files layout fdtConfig).2) := by
  obtain ⟨-, -, hblob, hfits⟩ := checkImages_ok_iff.1 hok
  have hram := hbacked _ (makeRange_eq_some_iff.2 ⟨hfits.ram.1, hfits.ram.2, rfl⟩)
  have hfdt : layout.Holds layout.fdtAddress images.fdt.length :=
    ⟨hfits.reservation.1, Nat.le_trans (Nat.add_le_add_left hfits.fdt _) hfits.reservation.2⟩
  obtain ⟨bus₁, hbios, hl₁⟩ := writeBytes_loaded "BIOS" images.bios
    (hram.sub hfits.bios.1 hfits.bios.2)
  obtain ⟨bus₂, hkernel, hl₂⟩ := writeBytes_loaded "kernel" images.kernel
    (hl₁.inRam (hram.sub hfits.kernel.1 hfits.kernel.2))
  obtain ⟨bus₃, hfdtbytes, hl₃⟩ := writeBytes_loaded "FDT" images.fdt
    (hl₂.inRam (hl₁.inRam (hram.sub hfdt.1 hfdt.2)))
  have hload : loadBootImages cpu files layout fdtConfig =
      (.ok
        { loaded := true
          biosSize := BitVec.ofNat 64 images.bios.length
          kernelSize := BitVec.ofNat 64 images.kernel.length
          fdtSize := BitVec.ofNat 64 images.fdt.length },
        { cpu with
          bus := bus₃
          state := ((CpuState.reset layout.biosLoadAddress).setInteger 10#5 0#64).setInteger 11#5
            layout.fdtAddress }) := by
    simp only [loadBootImages, hok, hbios, hkernel, hfdtbytes]
  have hfdtok : (buildMachineFdt (effectiveConfig layout fdtConfig)).ok = true :=
    (ok_effectiveConfig_iff fdtConfig hfits.ram).2
      ⟨Nat.lt_of_lt_of_le hfits.nonempty.2.2 hfits.fdt, hfits.reservation⟩
  have hbk := hfits.biosKernel
  have hbf := hfits.biosFdt
  have hkf := hfits.kernelFdt
  rw [BlocksApart] at hbk hbf hkf
  rw [hload]
  refine ⟨⟨_, rfl, rfl⟩, fun hclear ↦ ?_⟩
  exact
    { inside := ⟨hfits.bios, hfits.kernel, hfits.reservation⟩
      fdt := hfits.fdt
      announced := by
        rw [hblob]
        exact readReserve_buildMachineFdt hfdtok
      biosKernel := hfits.biosKernel
      biosReservation := hclear.1
      kernelReservation := hclear.2
      biosBytes := fun i hi ↦ by
        rw [hl₃.ramByte_of_outside (by omega), hl₂.ramByte_of_outside (by omega),
          hl₁.ramByte_of_lt hi]
      kernelBytes := fun i hi ↦ by
        rw [hl₃.ramByte_of_outside (by omega), hl₂.ramByte_of_lt hi]
      fdtBytes := fun i hi ↦ hl₃.ramByte_of_lt hi
      others := fun x hb hk hf ↦ by
        rw [hl₃.ramByte_of_outside hf, hl₂.ramByte_of_outside hk, hl₁.ramByte_of_outside hb]
      state := entryState_eq _ _ }

/-- Loading that fails a check, or throws, changes nothing; loading that succeeds has put the images
of the files in order. -/
def BootsProperly (cpu : Cpu) (files : BootImageFiles) (layout : BootLayout)
    (fdtConfig : FdtConfig) : Prop :=
  let done := loadBootImages cpu files layout fdtConfig
  (∀ error, checkImages files layout fdtConfig = .error error → done = (error.outcome, cpu)) ∧
    (∀ result, done.1 = .ok result → result.loaded = true → ∃ images : BootImages,
      readBinary files.bios files.biosPath "BIOS" = .ok images.bios ∧
        readBinary files.kernel files.kernelPath "kernel" = .ok images.kernel ∧
        images.fdt = (buildMachineFdt (effectiveConfig layout fdtConfig)).blob ∧
        Booted cpu layout images done.2)

/-- When the images pass the checks, loading is proper just if the reservation is clear. -/
theorem bootsProperly_of_ok (hbacked : BackedBy layout cpu.bus)
    (hok : checkImages files layout fdtConfig = .ok images) :
    BootsProperly cpu files layout fdtConfig ↔ ReservationClear layout images := by
  obtain ⟨⟨result, hresult, hloaded⟩, hbooted⟩ := loadBootImages_of_ok hbacked hok
  obtain ⟨hbios, hkernel, hfdt, -⟩ := checkImages_ok_iff.1 hok
  constructor
  · rintro ⟨-, hproper⟩
    obtain ⟨images', hbios', hkernel', hfdt', hbooted'⟩ := hproper result hresult hloaded
    rw [hbios] at hbios'
    rw [hkernel] at hkernel'
    rw [ReservationClear, Except.ok.inj hbios', Except.ok.inj hkernel']
    exact ⟨hbooted'.biosReservation, hbooted'.kernelReservation⟩
  · intro hclear
    refine ⟨fun error herror ↦ ?_, fun _ _ _ ↦ ⟨images, hbios, hkernel, hfdt, hbooted hclear⟩⟩
    rw [hok] at herror
    cases herror

end Loading

/-- **Boot image placement.** On a machine with the RAM of the layout, loading is proper exactly if
images that pass the checks leave the reservation of the device tree clear. -/
theorem bootsProperly_iff (cpu : Cpu) (files : BootImageFiles) (layout : BootLayout)
    (fdtConfig : FdtConfig) (hbacked : BackedBy layout cpu.bus) :
    BootsProperly cpu files layout fdtConfig ↔
      ∀ images, checkImages files layout fdtConfig = .ok images →
      ReservationClear layout images := by
  cases hcheck : checkImages files layout fdtConfig with
  | error error =>
    refine iff_of_true ⟨fun error' h ↦ ?_, fun result h hloaded ↦ ?_⟩ fun images h ↦ by cases h
    · obtain rfl := Except.error.inj (hcheck.symm.trans h)
      rw [loadBootImages, hcheck]
    · rw [loadBootImages, hcheck] at h
      cases error with
      | refused message =>
        obtain rfl := Except.ok.inj h
        cases hloaded
      | thrown what => cases h
  | ok images =>
    rw [bootsProperly_of_ok hbacked hcheck]
    constructor
    · rintro hclear images' h
      rwa [← Except.ok.inj h]
    · exact fun h ↦ h images rfl

/-! ## A small machine

RAM of 256 KiB, an image of four bytes for the BIOS and for the kernel, and the device tree from
0x80010000 on with the reservation of the source. -/

def bootBus : Bus where
  regions := [.ram
    { range := ⟨0x80000000#64, 0x40000#64, by decide, by decide⟩
      bytes := List.replicate 0x40000 0#8
      size_eq := List.length_replicate }]
  apart := List.pairwise_singleton _ _

def bootCpu : Cpu := { bus := bootBus }

def bootImage : List (BitVec 8) := [0x13#8, 0#8, 0#8, 0#8]

def bootFiles : BootImageFiles where
  biosPath := "opensbi.raw"
  kernelPath := "Image.raw"
  bios := .ok (.contents bootImage (by decide))
  kernel := .ok (.contents bootImage (by decide))

def bootLayout (kernelLoadAddress : BitVec 64) : BootLayout where
  ramSize := 0x40000#64
  kernelLoadAddress
  fdtAddress := 0x80010000#64

theorem backedBy_bootBus (kernelLoadAddress : BitVec 64) :
    BackedBy (bootLayout kernelLoadAddress) bootBus :=
  fun _ _ ↦ ⟨_, List.mem_singleton.2 rfl, Nat.le_refl _, Nat.le_refl _⟩

/-- The device tree does not say where the kernel is. -/
def bootConfig : FdtConfig := effectiveConfig (bootLayout 0x80200000#64) {}

def bootImages : BootImages where
  bios := bootImage
  kernel := bootImage
  fdt := (buildMachineFdt bootConfig).blob

theorem length_bootBlob : 0 < bootImages.fdt.length ∧ bootImages.fdt.length ≤ 0x8000 := by
  have hok : (buildMachineFdt bootConfig).ok = true :=
    (ok_buildMachineFdt_iff bootConfig).2 (by decide)
  refine ⟨length_blob_pos hok, ?_⟩
  have hle := length_blobOf_le [(bootConfig.fdtAddress, bootConfig.fdtReservedSize)]
    (machineCalls bootConfig)
  rw [← (buildMachineFdt_ok hok).1] at hle
  refine Nat.le_trans hle ?_
  decide +kernel

/-- The kernel is accepted behind the BIOS and in front of the device tree, and also behind it. -/
theorem checkImages_boot {kernelLoadAddress : BitVec 64}
    (h : (0x80000004 ≤ kernelLoadAddress.toNat ∧ kernelLoadAddress.toNat + 4 ≤ 0x80010000) ∨
      (0x80018000 ≤ kernelLoadAddress.toNat ∧ kernelLoadAddress.toNat + 4 ≤ 0x80040000)) :
    checkImages bootFiles (bootLayout kernelLoadAddress) {} = .ok bootImages := by
  obtain ⟨hpos, hle⟩ := length_bootBlob
  have hconfig : bootConfig = effectiveConfig (bootLayout kernelLoadAddress) {} := rfl
  refine checkImages_ok_iff.2 ⟨rfl, rfl, hconfig ▸ rfl, ?_⟩
  have hlast : (0x80000000#64).toNat + (0x40000#64).toNat = 0x80040000 := by decide
  have hkernel : (bootLayout kernelLoadAddress).Holds kernelLoadAddress 4 := by
    simp only [BootLayout.Holds, bootLayout, hlast]
    simp only [show (0x80000000#64).toNat = 0x80000000 by decide]
    omega
  have hbiosKernel : BlocksApart 0x80000000 4 kernelLoadAddress.toNat 4 := by
    rw [BlocksApart]
    omega
  have hkernelFdt : BlocksApart kernelLoadAddress.toNat 4 0x80010000 bootImages.fdt.length := by
    rw [BlocksApart]
    omega
  exact
    { ram := ⟨show 0 < 0x40000 by decide, show 0x80000000 + 0x40000 < 2 ^ 64 by decide⟩
      nonempty := ⟨by decide, by decide, hpos⟩
      bios := ⟨Nat.le_refl _, show 0x80000000 + 4 ≤ 0x80000000 + 0x40000 by decide⟩
      kernel := hkernel
      reservation := ⟨show 0x80000000 ≤ 0x80010000 by decide,
        show 0x80010000 + 0x20000 ≤ 0x80000000 + 0x40000 by decide⟩
      fdt := Nat.le_trans hle (show 0x8000 ≤ 0x20000 by decide)
      biosKernel := hbiosKernel
      biosFdt := Or.inl (show 0x80000000 + 4 ≤ 0x80010000 by decide)
      kernelFdt := hkernelFdt }

theorem bootsProperly_boot :
    BootsProperly bootCpu bootFiles (bootLayout 0x80008000#64) {} := by
  refine (bootsProperly_iff bootCpu bootFiles (bootLayout 0x80008000#64) {}
    (backedBy_bootBus _)).2 fun images h ↦ ?_
  rw [checkImages_boot (Or.inl (by decide))] at h
  obtain rfl := Except.ok.inj h
  exact ⟨Or.inl (by decide), Or.inl (by decide)⟩

/-- A kernel in the reservation, behind the blob, is loaded. -/
theorem kernel_in_reservation :
    ¬ BootsProperly bootCpu bootFiles (bootLayout 0x80028000#64) {} := by
  rw [bootsProperly_of_ok (backedBy_bootBus _) (checkImages_boot (Or.inr (by decide)))]
  rintro ⟨-, hkernel⟩
  revert hkernel
  show ¬ (0x80028000 + 4 ≤ 0x80010000 ∨ 0x80010000 + 0x20000 ≤ 0x80028000)
  decide

end Rvemu
