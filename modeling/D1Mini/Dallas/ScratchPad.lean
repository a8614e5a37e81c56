import D1Mini.OneWire.Select

/-!
# Scratchpads in `DallasTemperature.cpp`

What the library learns from a sensor comes from the nine bytes of its scratchpad. Every dialogue
begins and ends with a reset, so that it leaves the bus as `reset` does.
-/

namespace D1Mini.DallasTemperature
open OneWire

/-- `readScratchPad`, `none` when it returns false. -/
def readScratchPad (deviceAddress : List UInt8) (bus : Bus) : Option (List UInt8) × Bus :=
  let (presence, bus) := bus.reset
  if !presence then (none, bus)
  else
    let bus := (bus.select deviceAddress).write 0xBE
    let (scratchPad, bus) := bus.readBytes 9
    let (presence, bus) := bus.reset
    (if presence then some scratchPad else none, bus)

def isAllZeros (scratchPad : List UInt8) : Bool := scratchPad.all (· == 0)

/-- `isConnected` with the scratchpad that it has read. -/
def isConnected (deviceAddress : List UInt8) (bus : Bus) : Option (List UInt8) × Bus :=
  let (read, bus) := readScratchPad deviceAddress bus
  (read.filter fun scratchPad =>
    !isAllZeros scratchPad && crc8 (scratchPad.take 8) == scratchPad.getD 8 0, bus)

/-- `getResolution` of a device, 0 if it is not found. -/
def getResolution (deviceAddress : List UInt8) (bus : Bus) : Nat × Bus :=
  if deviceAddress.getD 0 0 = Chip.ds18s20Model then (12, bus)
  else
    let (scratchPad, bus) := isConnected deviceAddress bus
    (match scratchPad with
      | some scratchPad =>
        let configuration := scratchPad.getD 4 0
        if configuration = 0x7F then 12
        else if configuration = 0x5F then 11
        else if configuration = 0x3F then 10
        else if configuration = 0x1F then 9
        else 0
      | none => 0, bus)

/-- `readPowerSupply` of a device. -/
def readPowerSupply (deviceAddress : List UInt8) (bus : Bus) : Bool × Bus :=
  let bus := (bus.reset.2.select deviceAddress).write 0xB4
  let (bit, bus) := bus.readBit
  (!bit, bus.reset.2)

/-! ### The device that is meant -/

variable {bus : Bus} {c : Chip} {deviceAddress : List UInt8}

/-- No two devices have the same address. -/
def Distinct (bus : Bus) : Prop := (bus.chips.map (·.rom)).Nodup

instance : Decidable (Distinct bus) := inferInstanceAs (Decidable (List.Nodup _))

/-- The device with an address. -/
def deviceAt (bus : Bus) (deviceAddress : List UInt8) : Option Chip :=
  bus.chips.find? (·.meant deviceAddress)

theorem chip_eq_of_meant (D : Distinct bus) (hc : deviceAt bus deviceAddress = some c) {s : Slave}
    (hs : s ∈ bus) (hmeant : s.chip.meant deviceAddress) : s.chip = c := by
  have hfind : bus.chips.find? (·.meant deviceAddress) = some c := hc
  have hcmeant : c.meant deviceAddress := List.find?_some hfind
  have hrom : s.chip.rom = c.rom :=
    Vector.toList_inj.mp ((of_decide_eq_true hmeant).trans (of_decide_eq_true hcmeant).symm)
  exact List.inj_on_of_nodup_map D (List.mem_map_of_mem hs) (List.mem_of_find?_eq_some hc) hrom

theorem any_meant : bus.any (·.chip.meant deviceAddress) = (deviceAt bus deviceAddress).isSome := by
  rw [Bool.eq_iff_iff, deviceAt, List.find?_isSome, List.any_eq_true, Bus.chips]
  simp only [List.mem_map, exists_exists_and_eq_and]

theorem not_meant (hc : deviceAt bus deviceAddress = none) {s : Slave} (hs : s ∈ bus) :
    ¬s.chip.meant deviceAddress :=
  List.find?_eq_none.mp hc _ (List.mem_map_of_mem hs)

theorem reset_of_ne_nil (hbus : bus ≠ []) : bus.reset = (true, bus.reset.2) := by
  cases bus with
  | nil => exact absurd rfl hbus
  | cons s bus => rfl

theorem ne_nil_of_deviceAt (hc : deviceAt bus deviceAddress = some c) : bus ≠ [] := by
  rintro rfl
  cases hc

theorem reset_idle :
    (bus.addressed deviceAddress (Slave.toMode .idle)).reset = bus.reset := by
  rw [Bus.reset_addressed (f := Slave.toMode .idle) (g := fun c => c) fun s => rfl, Bus.update_id]

/-- Nine bytes of a device, or of the line where nobody sends. -/
theorem readScratchPad_eq {bytes : List UInt8} (hlen : deviceAddress.length = 8) (hbus : bus ≠ [])
    (hbytes : bytes.length = 9)
    (hsends : ∀ s ∈ bus, s.chip.meant deviceAddress → s.chip.registers = bytes) :
    readScratchPad deviceAddress bus =
      (some (bytes.map fun v => if (deviceAt bus deviceAddress).isSome then v else 0xFF),
        bus.reset.2) := by
  have hdialogue : (bus.reset.2.select deviceAddress).write 0xBE =
      bus.addressed deviceAddress (Slave.toMode (Bus.sending (bytesBits bytes))) := by
    rw [Bus.select_eq hlen, Bus.write_function]
    apply Bus.addressed_congr
    intro s hs hmeant
    have hbits : bytesBits bytes ≠ [] := by
      apply List.ne_nil_of_length_pos
      rw [length_bytesBits, hbytes]
      decide
    rw [Bus.sending_of_ne_nil hbits, ← hsends s hs hmeant]
    rfl
  rw [readScratchPad, reset_of_ne_nil hbus]
  dsimp only
  rw [hdialogue, ← hbytes, Bus.readBytes_sending]
  dsimp only
  rw [reset_idle, reset_of_ne_nil hbus, any_meant]
  rfl

theorem readScratchPad_some (D : Distinct bus) (hlen : deviceAddress.length = 8)
    (hc : deviceAt bus deviceAddress = some c) :
    readScratchPad deviceAddress bus = (some c.registers, bus.reset.2) := by
  have hregisters : c.registers.length = 9 := by
    rw [Chip.registers, List.length_append, Vector.length_toList, List.length_singleton]
  rw [readScratchPad_eq hlen (ne_nil_of_deviceAt hc) hregisters
    fun s hs hmeant => congrArg Chip.registers (chip_eq_of_meant D hc hs hmeant), hc]
  exact congrArg (some · , bus.reset.2) (List.map_id' _)

theorem readScratchPad_none (hlen : deviceAddress.length = 8) (hbus : bus ≠ [])
    (hc : deviceAt bus deviceAddress = none) :
    readScratchPad deviceAddress bus = (some (List.replicate 9 0xFF), bus.reset.2) := by
  rw [readScratchPad_eq hlen hbus (List.length_replicate (a := 0xFF))
    fun s hs hmeant => absurd hmeant (not_meant hc hs), List.map_replicate, ite_self]

/-! ### `isConnected` -/

/-- A device whose scratchpad is all zeros passes for an absent one. -/
def blank (c : Chip) : Bool := isAllZeros c.scratchpad.toList

theorem registers_blank (hblank : blank c) : c.registers = List.replicate 9 0 := by
  have hzeros : c.scratchpad.toList = List.replicate 8 0 := by
    rw [List.eq_replicate_iff]
    refine ⟨Vector.length_toList, fun v hv => ?_⟩
    exact beq_iff_eq.mp (List.all_eq_true.mp hblank v hv)
  rw [Chip.registers, hzeros]
  rfl

theorem isConnected_some (D : Distinct bus) (hlen : deviceAddress.length = 8)
    (hc : deviceAt bus deviceAddress = some c) (hblank : blank c = false) :
    isConnected deviceAddress bus = (some c.registers, bus.reset.2) := by
  have hzeros : isAllZeros c.registers = false := by
    rw [isAllZeros, Chip.registers, List.all_append, Bool.and_eq_false_iff]
    exact .inl hblank
  have hcrc : crc8 (c.registers.take 8) = c.registers.getD 8 0 := by
    rw [Chip.registers, List.take_left' Vector.length_toList]
    simp
  rw [isConnected, readScratchPad_some D hlen hc]
  dsimp only
  rw [Option.filter_some, hzeros, hcrc, beq_self_eq_true]
  rfl

theorem isConnected_blank (D : Distinct bus) (hlen : deviceAddress.length = 8)
    (hc : deviceAt bus deviceAddress = some c) (hblank : blank c) :
    isConnected deviceAddress bus = (none, bus.reset.2) := by
  rw [isConnected, readScratchPad_some D hlen hc, registers_blank hblank]
  rfl

/-- Where no device answers, the nine high bytes do not pass. -/
theorem isConnected_none (hlen : deviceAddress.length = 8)
    (hc : deviceAt bus deviceAddress = none) :
    isConnected deviceAddress bus = (none, bus.reset.2) := by
  rcases eq_or_ne bus [] with rfl | hbus
  · rfl
  · rw [isConnected, readScratchPad_none hlen hbus hc]
    rfl

end D1Mini.DallasTemperature
