import Rvemu.Devices.BlockIntegrity
import Rvemu.Devices.DescriptorChains
import Rvemu.Platform.DiskCalls

/-!
# Where the block device reads and writes the disk

A request is checked twice: by the device, in sectors rounded up, and by the disk image, in bytes.
The two checks agree (`sectorRangeValid_eq`), and the numbers they are made of are those of the
request (`Exact`): a chain has too few bytes for the rounding to wrap around (`totalBytes_chain`).
So all calls to the host lie in the image, whatever the host moves in each of them.
-/

set_option autoImplicit false

namespace Rvemu

namespace VirtioBlockDevice

open DiskBackend

/-! ## The two range checks -/

/-- The sectors a request of `n` bytes takes. -/
def sectorCount (n : ℕ) : ℕ := (n + 511) / 512

theorem toNat_sectorCount {byteCount : BitVec 64} (h : byteCount.toNat + 511 < 2 ^ 64) :
    ((byteCount + sectorSize - 1#64) / sectorSize).toNat = sectorCount byteCount.toNat := by
  have hadd : byteCount + sectorSize - 1#64 = byteCount + 511#64 := by
    rw [sectorSize]
    grind
  rw [hadd, BitVec.toNat_udiv, BitVec.toNat_add, show (511#64).toNat = 511 from rfl,
    Nat.mod_eq_of_lt h]
  rfl

theorem sectorRangeValid_iff {sector byteCount capacity : BitVec 64}
    (h : byteCount.toNat + 511 < 2 ^ 64) :
    sectorRangeValid sector byteCount capacity = true ↔
      sector.toNat + sectorCount byteCount.toNat ≤ capacity.toNat := by
  have hcapacity := capacity.isLt
  have hcount := toNat_sectorCount h
  rw [sectorRangeValid, Bool.and_eq_true, Bool.not_eq_true', addOverflows_eq_false_iff,
    decide_eq_true_iff,
    BitVec.le_def, BitVec.toNat_add, hcount]
  constructor
  · rintro ⟨hsum, hle⟩
    rwa [Nat.mod_eq_of_lt hsum] at hle
  · intro hle
    have hsum : sector.toNat + sectorCount byteCount.toNat < 2 ^ 64 := by omega
    exact ⟨hsum, by rwa [Nat.mod_eq_of_lt hsum]⟩

/-- Both checks accept the same requests, unless the rounding of the first wraps around. -/
theorem sectorRangeValid_eq {d : DiskBackend} (hopen : d.isOpen = true)
    {sector byteCount : BitVec 64} (hne : byteCount ≠ 0#64) (h : byteCount.toNat + 511 < 2 ^ 64) :
    sectorRangeValid sector byteCount d.capacitySectors = (d.checkRange sector byteCount).ok := by
  have hpos : byteCount.toNat ≠ 0 := fun hz ↦ hne (BitVec.eq_of_toNat_eq hz)
  rw [Bool.eq_iff_iff, sectorRangeValid_iff h, ok_checkRange_iff, d.size_eq hopen, sectorCount]
  constructor
  · exact fun hle ↦ ⟨hopen, Or.inr (by omega)⟩
  · rintro ⟨-, hz | hle⟩
    · exact absurd hz hne
    · omega

/-- The sums and products of both checks are those of the numbers they stand for, and an `off_t`
holds the end of the range. -/
structure Exact (sector capacity : BitVec 64) (n : ℕ) : Prop where
  size : (BitVec.ofNat 64 n).toNat = n
  rounded : (BitVec.ofNat 64 n + sectorSize).toNat = n + 512
  sectors : (sector + (BitVec.ofNat 64 n + sectorSize - 1#64) / sectorSize).toNat =
    sector.toNat + sectorCount n
  offset : (sector * sectorSize).toNat = sector.toNat * 512
  capacityBytes : (capacity * sectorSize).toNat = capacity.toNat * 512
  offT : sector.toNat * 512 + n ≤ offTMax.toNat

theorem exact_of_fits {d : DiskBackend} (hopen : d.isOpen = true) {sector : BitVec 64} {n : ℕ}
    (hfit : sector.toNat * 512 + n ≤ d.image.length) : Exact sector d.capacitySectors n := by
  have hfits := d.fits
  have hlength := d.size_eq hopen
  have hsize : (BitVec.ofNat 64 n).toNat = n := by
    rw [BitVec.toNat_ofNat]
    omega
  have hsector : (sectorSize).toNat = 512 := rfl
  refine ⟨hsize, ?_, ?_, toNat_offset hfit, ?_, ?_⟩
  · rw [BitVec.toNat_add, hsize, hsector]
    omega
  · rw [BitVec.toNat_add, toNat_sectorCount (by omega), hsize, sectorCount]
    omega
  · rw [BitVec.toNat_mul, hsector]
    omega
  · rw [show offTMax.toNat = 2 ^ 63 - 1 from rfl]
    omega

/-! ## The bytes of a chain -/

theorem totalBytes_of_chainAt {expected : List VirtqueueDescriptorDirection} {table : BitVec 64}
    {size head : BitVec 16} {b : Bus} {chain : List (BitVec 16 × RawDescriptor)}
    (h : ChainAt expected table size b head chain) :
    totalBytes (chainSegments chain) < 2 ^ 48 := by
  have hlength := length_le_of_nodup h.distinct h.links.inside
  have htotal := totalBytes_le (chainSegments chain)
  have hsize := size.isLt
  rw [chainSegments, List.length_map] at htotal
  rw [chainIndices, List.length_map] at hlength
  rw [chainSegments]
  omega

/-- A chain that is accepted has fewer than `2 ^ 16` segments, so its bytes are far from `2 ^
64`. -/
theorem totalBytes_chain (layout : VirtqueueLayout) (head : BitVec 16) (b : Bus)
    (h : ((parseDescriptorChain layout head).run Bus.dma b).1.ok = true) :
    totalBytes ((parseDescriptorChain layout head).run Bus.dma b).1.segments < 2 ^ 48 := by
  obtain ⟨hready, chain, haccepted⟩ := acceptable_of_parseDescriptorChain h
  rw [parseDescriptorChain_of_acceptable hready haccepted]
  cases haccepted with
  | direct found => exact totalBytes_of_chainAt found
  | indirect _ _ _ _ found => exact totalBytes_of_chainAt found

/-- A type that is not served takes no part in the check of directions. -/
theorem run_gather_unknown {type : BitVec 32} (hin : type ≠ requestIn) (hout : type ≠ requestOut)
    (segments : List VirtqueueSegment) (data : List (BitVec 8)) (b : Bus) :
    ((gather type segments data).run Bus.dma b).1 =
      data ++ List.replicate (totalBytes segments) 0#8 := by
  induction segments generalizing data with
  | nil => simp [gather, totalBytes]
  | cons segment rest ih =>
    rw [gather, if_neg (by simp [hin, hout]), if_neg (by simpa using hout), ih, totalBytes_cons,
      ← List.replicate_append_replicate, List.append_assoc]

/-- The buffer of a request is empty, or has as many bytes as its segments. -/
theorem length_gather (type : BitVec 32) (segments : List VirtqueueSegment) (b : Bus) :
    ((gather type segments []).run Bus.dma b).1.length ≤ totalBytes segments := by
  by_cases hin : type = requestIn
  · rw [hin, run_gather_in]
    split <;> simp
  · by_cases hout : type = requestOut
    · obtain ⟨hgood, hbad⟩ := run_gather_out segments [] b
      rw [hout]
      by_cases hread : segments.all (!·.deviceWrites) = true ∧
          allOk ((readAll (chainAddresses segments)).run Bus.dma b).1 = true
      · rw [hgood hread, List.nil_append, List.length_map, length_run_readAll]
        exact Nat.le_of_eq (length_chainAddresses segments)
      · rw [hbad hread]
        exact Nat.zero_le _
    · refine Nat.le_of_eq ?_
      rw [run_gather_unknown hin hout, List.nil_append, List.length_replicate]

/-! ## Requests -/

/-- The calls of `transfer`. -/
def transferCalls (disk : DiskBackend) (host : HostDisk) (header : RequestHeader)
    (data : List (BitVec 8)) : List DiskCall :=
  if !sectorRangeValid header.sector (BitVec.ofNat 64 data.length) disk.capacitySectors then []
  else if header.type == requestOut then disk.writeCalls host.pwrite header.sector data.length
  else disk.readCalls host.pread header.sector data.length

/-- The buffer of a request as it is assembled. -/
def requestData (header : RequestHeader) (segments : List VirtqueueSegment) (b : Bus) :
    List (BitVec 8) :=
  ((gather header.type (middle segments) []).run Bus.dma b).1

/-- The calls of `serve`. -/
def serveCalls (disk : DiskBackend) (host : HostDisk) (header : RequestHeader)
    (segments : List VirtqueueSegment) (b : Bus) : List DiskCall :=
  if header.type != requestIn && header.type != requestOut then []
  else
    let data := requestData header segments b
    if !data.isEmpty || segments.length == 3 then transferCalls disk host header data else []

/-- The calls of `processOne`. -/
def diskCalls (start : VirtioBlockDevice) (host : HostDisk) (bus : Bus) : List DiskCall :=
  match serving? start bus with
  | none => []
  | some s => serveCalls start.disk host s.header s.segments s.b

/-- The bytes from `offset` on are those of `data`, and all others are as they were. -/
structure Replaced (before after : List (BitVec 8)) (offset : ℕ) (data : List (BitVec 8)) :
    Prop where
  inside : offset + data.length ≤ before.length
  length : after.length = before.length
  bytes : ∀ i, i < before.length → after.getD i 0#8 =
    if offset ≤ i ∧ i < offset + data.length then data.getD (i - offset) 0#8 else before.getD i 0#8

/-- What a request does to the disk, when it calls the host so and has this outcome. -/
structure KeepsRange (disk : DiskBackend) (header : RequestHeader) (data : List (BitVec 8))
    (calls : List DiskCall) (out : RequestOutcome) : Prop where
  checks : disk.isOpen = true → data.length ≠ 0 →
    sectorRangeValid header.sector (BitVec.ofNat 64 data.length) disk.capacitySectors =
      (disk.checkRange header.sector (BitVec.ofNat 64 data.length)).ok
  exact : calls ≠ [] → Exact header.sector disk.capacitySectors data.length
  inside : calls ≠ [] →
    header.sector.toNat * 512 + data.length ≤ disk.capacitySectors.toNat * 512
  successive : Successive (header.sector.toNat * 512 + data.length)
    (header.sector.toNat * 512) calls
  complete : out.status = statusOk → moved calls = data.length
  written : header.type = requestOut → out.status = statusOk →
    Replaced disk.image out.disk.image (header.sector.toNat * 512) data
  refused : header.type ≠ requestOut ∨ disk.writable = false ∨
    sectorRangeValid header.sector (BitVec.ofNat 64 data.length) disk.capacitySectors = false ∨
    (disk.checkRange header.sector (BitVec.ofNat 64 data.length)).ok = false → out.disk = disk

section Serve

variable {disk : DiskBackend} {host : HostDisk} {header : RequestHeader} {data : List (BitVec 8)}

theorem checks_eq (hlen : data.length < 2 ^ 48) (hopen : disk.isOpen = true)
    (hne : data.length ≠ 0) :
    sectorRangeValid header.sector (BitVec.ofNat 64 data.length) disk.capacitySectors =
      (disk.checkRange header.sector (BitVec.ofNat 64 data.length)).ok := by
  have hsize : (BitVec.ofNat 64 data.length).toNat = data.length := by
    rw [BitVec.toNat_ofNat]
    omega
  refine sectorRangeValid_eq hopen (fun h ↦ hne ?_) (by omega)
  rw [← hsize, h]
  rfl

/-- A request that makes no calls and does not end well. -/
theorem keepsRange_refused (hlen : data.length < 2 ^ 48) {status : BitVec 8}
    (h : status ≠ statusOk) :
    KeepsRange disk header data [] { status, disk } where
  checks := checks_eq hlen
  exact hne := absurd rfl hne
  inside hne := absurd rfl hne
  successive := trivial
  complete hok := absurd hok h
  written _ hok := absurd hok h
  refused _ := rfl

theorem keepsRange_read (hlen : data.length < 2 ^ 48) (htype : header.type ≠ requestOut)
    {out : RequestOutcome} (hdisk : out.disk = disk)
    (hok : out.status = statusOk → (disk.read host.pread header.sector data).1.ok = true) :
    KeepsRange disk header data (disk.readCalls host.pread header.sector data.length) out where
  checks := checks_eq hlen
  exact hne := by
    obtain ⟨hopen, hfit⟩ := fits_of_readCalls (by omega) hne
    exact exact_of_fits hopen hfit
  inside hne := by
    obtain ⟨hopen, hfit⟩ := fits_of_readCalls (by omega) hne
    rwa [disk.size_eq hopen] at hfit
  successive := successive_readCalls (by omega)
  complete h := ((read_moved (by omega)).1 (hok h)).2
  written hout := absurd hout htype
  refused _ := hdisk

theorem keepsRange_write (hlen : data.length < 2 ^ 48) (htype : header.type = requestOut)
    (hvalid : sectorRangeValid header.sector (BitVec.ofNat 64 data.length)
      disk.capacitySectors = true) :
    let written := disk.write host.pwrite header.sector data
    KeepsRange disk header data (disk.writeCalls host.pwrite header.sector data.length)
      { status := if written.1.ok then statusOk else statusIoError, disk := written.2 } := by
  intro written
  obtain ⟨hdisk, hok⟩ := @write_moved disk host.pwrite header.sector data (by omega)
  have hstatus : (if written.1.ok then statusOk else statusIoError) = statusOk →
      written.1.ok = true := by
    cases written.1.ok <;> simp [statusOk, statusIoError]
  have hcalls : disk.writeCalls host.pwrite header.sector data.length ≠ [] →
      disk.isOpen = true ∧ header.sector.toNat * 512 + data.length ≤ disk.image.length := by
    intro hne
    rcases disk.writeCalls_eq host.pwrite header.sector data.length with heq | heq
    · exact absurd heq hne
    · exact fits_of_readCalls (by omega) (heq ▸ hne)
  refine
    { checks := checks_eq hlen
      exact := fun hne ↦ exact_of_fits (hcalls hne).1 (hcalls hne).2
      inside := fun hne ↦ ?_
      successive := ?_
      complete := fun h ↦ (hok.1 (hstatus h)).2.2
      written := fun _ h ↦ ?_
      refused := fun h ↦ ?_ }
  · have hfit := (hcalls hne).2
    rwa [disk.size_eq (hcalls hne).1] at hfit
  · rcases disk.writeCalls_eq host.pwrite header.sector data.length with heq | heq
    · rw [heq]
      trivial
    · rw [heq]
      exact successive_readCalls (by omega)
  · obtain ⟨-, hrange, hmoved⟩ := hok.1 (hstatus h)
    have hopen := ((disk.ok_checkRange_iff _ _).1 hrange).1
    have hinside : header.sector.toNat * 512 + data.length ≤ disk.image.length := by
      rw [sectorRangeValid_iff (by rw [BitVec.toNat_ofNat]; omega), BitVec.toNat_ofNat,
        Nat.mod_eq_of_lt (by omega), sectorCount] at hvalid
      rw [disk.size_eq hopen]
      omega
    have himage : written.2.image =
        overwrite disk.image (header.sector.toNat * 512) data := by
      rw [show written.2 = _ from hdisk, hmoved, List.take_length]
      rfl
    refine ⟨hinside, ?_, fun i hi ↦ ?_⟩
    · exact (congrArg List.length himage).trans (length_overwrite _ _ _)
    · exact (congrArg (·.getD i 0#8) himage).trans (getD_overwrite _ _ _ hi)
  · have hnil : disk.writeCalls host.pwrite header.sector data.length = [] := by
      rcases h with h | h | h | h
      · exact absurd htype h
      · rw [writeCalls, if_pos h]
      · rw [hvalid] at h
        cases h
      · simp [writeCalls, readCalls, h]
    rw [show written.2 = _ from hdisk, hnil, moved_nil, List.take_zero, withBytes_nil]

theorem keepsRange_transfer (hlen : data.length < 2 ^ 48) (segments : List VirtqueueSegment)
    (b : Bus) :
    KeepsRange disk header data (transferCalls disk host header data)
      ((transfer disk host header segments data).run Bus.dma b).1 := by
  rw [transfer, transferCalls]
  cases hvalid : sectorRangeValid header.sector (BitVec.ofNat 64 data.length)
    disk.capacitySectors with
  | false => exact keepsRange_refused hlen (by decide)
  | true =>
    simp only [Bool.not_true, Bool.false_eq_true, if_false]
    by_cases htype : header.type = requestOut
    · rw [if_pos (by simpa using htype), if_pos (by simpa using htype)]
      exact keepsRange_write hlen htype hvalid
    · rw [if_neg (by simpa using htype), if_neg (by simpa using htype)]
      split
      · next hfail =>
        exact keepsRange_read hlen htype rfl fun h ↦
          absurd (show statusIoError = statusOk from h) (by decide)
      · next hread =>
        rw [Bool.not_eq_true', Bool.not_eq_false] at hread
        simp only [Dialogue.run_bind, Dialogue.run_pure]
        exact keepsRange_read hlen htype (disk_handedOut _ _ _) fun _ ↦ hread

/-- A request keeps to its range, whatever the host answers. -/
theorem keepsRange_serve {segments : List VirtqueueSegment}
    (htotal : totalBytes (middle segments) < 2 ^ 48) (b : Bus) :
    KeepsRange disk header (requestData header segments b)
      (serveCalls disk host header segments b)
      ((serve disk host header segments).run Bus.dma b).1 := by
  have hlen : (requestData header segments b).length < 2 ^ 48 :=
    Nat.lt_of_le_of_lt (length_gather _ (middle segments) b) htotal
  rw [serveCalls, serve]
  split
  · exact keepsRange_refused hlen (by decide)
  · rw [Dialogue.run_bind]
    dsimp only
    rw [← requestData]
    split
    · exact keepsRange_transfer hlen _ _
    · exact keepsRange_refused hlen (by decide)

end Serve

/-! ## Calls of the device -/

section Device

variable {start : VirtioBlockDevice} {bus : Bus}

theorem Serving.totalBytes_lt (s : Serving start bus) : totalBytes s.segments < 2 ^ 48 := by
  have hchain := totalBytes_chain s.layout s.head s.consumedBus
  rw [show (parseDescriptorChain s.layout s.head).run Bus.dma s.consumedBus =
    (s.parsed, s.parsedBus) from s.parsed_eq] at hchain
  exact hchain s.parsed_ok.1

theorem Serving.length_requestData (s : Serving start bus) :
    (requestData s.header s.segments s.b).length ≤ totalBytes s.segments :=
  Nat.le_trans (length_gather _ _ _) (totalBytes_middle_le _)

theorem keepsRange_processOne {s : Serving start bus} (hs : serving? start bus = some s)
    (host : HostDisk) :
    KeepsRange start.disk s.header (requestData s.header s.segments s.b)
      (start.diskCalls host bus)
      ((serve start.disk host s.header s.segments).run Bus.dma s.b).1 := by
  rw [diskCalls, hs]
  exact keepsRange_serve (Nat.lt_of_le_of_lt (totalBytes_middle_le _) s.totalBytes_lt) s.b

end Device

/-- **Disk range safety.** The two checks accept the same requests of an open image, as long as the
rounding of the first does not wrap around; and in every call of the device, whatever the guest has
written and the host answers, all calls to the host lie in the image, and the request keeps to its
range. -/
theorem disk_range :
    (∀ (d : DiskBackend) (sector byteCount : BitVec 64), d.isOpen = true → byteCount ≠ 0#64 →
      byteCount.toNat + 511 < 2 ^ 64 →
      sectorRangeValid sector byteCount d.capacitySectors = (d.checkRange sector byteCount).ok) ∧
    ∀ (start : VirtioBlockDevice) (host : HostDisk) (bus : Bus),
      (∀ call ∈ start.diskCalls host bus, 0 ≤ call.position.toInt ∧
        call.position.toInt + call.size.toNat ≤ start.disk.capacitySectors.toNat * 512) ∧
      (serving? start bus = none →
        start.diskCalls host bus = [] ∧ (start.processOne host bus).2.1.disk = start.disk) ∧
      ∀ s, serving? start bus = some s →
        let out := ((serve start.disk host s.header s.segments).run Bus.dma s.b).1
        (start.processOne host bus).2.1.disk = out.disk ∧
        (out.slicesInBounds = true →
          DmaRequest.write s.statusSegment.address .byte (out.status.setWidth 64) ∈
            ((start.synchronizeQueueGeneration s.transport.generation).request host s.layout).calls
              Bus.dma bus.dropNotification) ∧
        ((start.processOne host bus).1 = none ↔ out.slicesInBounds = false) ∧
        (requestData s.header s.segments s.b).length ≤ totalBytes s.segments ∧
        totalBytes s.segments < 2 ^ 48 ∧
        KeepsRange start.disk s.header (requestData s.header s.segments s.b)
          (start.diskCalls host bus) out := by
  refine ⟨fun d sector byteCount hopen hne h ↦ sectorRangeValid_eq hopen hne h,
    fun start host bus ↦ ⟨fun call hcall ↦ ?_, fun hnone ↦ ⟨?_, ?_⟩, fun s hs ↦ ?_⟩⟩
  · cases hs : serving? start bus with
    | none =>
      rw [diskCalls, hs] at hcall
      cases hcall
    | some s =>
      have hkeeps := keepsRange_processOne hs host
      have hwithin := hkeeps.successive.within call hcall
      have hinside := hkeeps.inside (List.ne_nil_of_mem hcall)
      omega
  · rw [diskCalls, hnone]
  · cases hpop : bus.transport.bind VirtioMmioTransport.popNotification with
    | none => rw [processOne, hpop]
    | some popped => exact (processOne_of_not_serving hpop (not_serving_of_eq_none hnone) host).2
  · exact ⟨s.disk_processOne host, s.writes_status_request host, s.processOne_eq_none_iff host,
      s.length_requestData, s.totalBytes_lt, keepsRange_processOne hs host⟩

end VirtioBlockDevice

end Rvemu
