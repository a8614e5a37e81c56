import D1Mini.OneWire.Crc8
import D1Mini.Lib.BitTree

/-!
# The slaves on a 1-Wire bus

The line is high where nobody pulls it down, and in each slot every slave sees the same level. So
the sensors answer together, and a slave drops out of the dialogue where its address is not meant.
-/

namespace D1Mini.OneWire
open Lfsr BitTree

/-- What a sensor keeps. The bytes 2 to 4 of the scratchpad have copies in the EEPROM. -/
structure Chip where
  rom : Vector UInt8 8
  scratchpad : Vector UInt8 8
  eeprom : Vector UInt8 3
  alarm : Bool
  parasite : Bool
deriving DecidableEq, Repr

/-- Where a slave is in the dialogue, with the bits that it has or has left. -/
inductive Mode
  | idle
  | romCommand (got : List Bool)
  | searchBit (rest : List Bool)
  | searchComplement (rest : List Bool)
  | searchDirection (rest : List Bool)
  | matchRom (rest : List Bool)
  | function (got : List Bool)
  | send (rest : List Bool)
  | receive (i : Nat) (got : List Bool)
deriving DecidableEq, Repr

structure Slave where
  chip : Chip
  mode : Mode
deriving DecidableEq, Repr

namespace Chip

/-- `DS18S20MODEL`, which has no configuration register. -/
def ds18s20Model : UInt8 := 0x10

def address (c : Chip) : List Bool := bytesBits c.rom.toList

/-- The family code. -/
def family (c : Chip) : UInt8 := c.rom[0]

/-! The bytes of the scratchpad, under the names of their positions in the library. -/

def tempLsb (c : Chip) : UInt8 := c.scratchpad[0]

def tempMsb (c : Chip) : UInt8 := c.scratchpad[1]

def highAlarmTemp (c : Chip) : UInt8 := c.scratchpad[2]

def lowAlarmTemp (c : Chip) : UInt8 := c.scratchpad[3]

def configuration (c : Chip) : UInt8 := c.scratchpad[4]

def countRemain (c : Chip) : UInt8 := c.scratchpad[6]

def countPerC (c : Chip) : UInt8 := c.scratchpad[7]

/-- The nine bytes that a sensor sends for its scratchpad. -/
def registers (c : Chip) : List UInt8 := c.scratchpad.toList ++ [crc8 c.scratchpad.toList]

/-- Behind the last byte that the sensor takes for its scratchpad. -/
def receiveEnd (c : Chip) : Nat := if c.family = ds18s20Model then 4 else 5

def receive (c : Chip) (i : Nat) (v : UInt8) : Chip :=
  { c with scratchpad := c.scratchpad.setIfInBounds i v }

def copyScratch (c : Chip) : Chip :=
  { c with eeprom := #v[c.highAlarmTemp, c.lowAlarmTemp, c.configuration] }

def recallScratch (c : Chip) : Chip :=
  { c with scratchpad :=
      ((c.scratchpad.set 2 c.eeprom[0]).set 3 c.eeprom[1]).set 4 c.eeprom[2] }

/-- A DS18B20 as it is after power-up. -/
def ds18b20 (serial : UInt8) : Chip where
  rom := #v[0x28, serial, 0, 0, 0, 0, 0, crc8 [0x28, serial, 0, 0, 0, 0, 0]]
  scratchpad := #v[0x50, 0x05, 0x4B, 0x46, 0x7F, 0xFF, 0x0C, 0x10]
  eeprom := #v[0x4B, 0x46, 0x7F]
  alarm := false
  parasite := false

end Chip

/-- The byte of eight bits. -/
def byteOf (bits : List Bool) : UInt8 := ⟨ofBits 8 bits⟩

namespace Slave

def toMode (mode : Mode) (s : Slave) : Slave := { s with mode }

def onRomCommand (s : Slave) (v : UInt8) : Slave :=
  if v = 0xF0 then s.toMode (.searchBit s.chip.address)
  else if v = 0xEC then s.toMode (if s.chip.alarm then .searchBit s.chip.address else .idle)
  else if v = 0x55 then s.toMode (.matchRom s.chip.address)
  else if v = 0xCC then s.toMode (.function [])
  else s.toMode .idle

def onFunction (s : Slave) (v : UInt8) : Slave :=
  if v = 0xBE then s.toMode (.send (bytesBits s.chip.registers))
  else if v = 0x4E then s.toMode (.receive 2 [])
  else if v = 0x48 then { chip := s.chip.copyScratch, mode := .idle }
  else if v = 0xB8 then { chip := s.chip.recallScratch, mode := .idle }
  else if v = 0xB4 then s.toMode (.send [!s.chip.parasite])
  else s.toMode .idle

/-- The bits of a ROM command, up to the last one. -/
def hearRomCommand (got : List Bool) (s : Slave) : Slave :=
  if got.length < 8 then s.toMode (.romCommand got) else s.onRomCommand (byteOf got)

def hearFunction (got : List Bool) (s : Slave) : Slave :=
  if got.length < 8 then s.toMode (.function got) else s.onFunction (byteOf got)

def hearByte (i : Nat) (got : List Bool) (s : Slave) : Slave :=
  if got.length < 8 then s.toMode (.receive i got)
  else
    { chip := s.chip.receive i (byteOf got)
      mode := if i + 1 < s.chip.receiveEnd then .receive (i + 1) [] else .idle }

/-- In the search with the bits that are left, or out of it. -/
def within (mode : List Bool → Mode) : Option (List Bool) → Slave → Slave
  | some (b :: rest) => toMode (mode (b :: rest))
  | _ => toMode .idle

def matchRom : Option (List Bool) → Slave → Slave
  | none => toMode .idle
  | some [] => toMode (.function [])
  | some rest => toMode (.matchRom rest)

/-- The level a slave leaves on the line in a slot. -/
def sends (s : Slave) : Bool :=
  match s.mode with
  | .searchBit (b :: _) => b
  | .searchComplement (b :: _) => !b
  | .send (b :: _) => b
  | _ => true

def slot (level : Bool) (s : Slave) : Slave :=
  match s.mode with
  | .idle => s
  | .romCommand got => s.hearRomCommand (got ++ [level])
  | .searchBit rest => s.toMode (.searchComplement rest)
  | .searchComplement rest => s.toMode (.searchDirection rest)
  | .searchDirection rest => s.within .searchBit (strip level rest)
  | .matchRom rest => s.matchRom (strip level rest)
  | .function got => s.hearFunction (got ++ [level])
  | .send rest => s.toMode (if rest.tail = [] then .idle else .send rest.tail)
  | .receive i got => s.hearByte i (got ++ [level])

end Slave

/-! ### The master's side -/

abbrev Bus := List Slave

namespace Bus

/-- The level of the line in a slot in which the master leaves `v`. -/
def level (v : Bool) (bus : Bus) : Bool := v && bus.all Slave.sends

def writeBit (v : Bool) (bus : Bus) : Bus := bus.map (Slave.slot (bus.level v))

def readBit (bus : Bus) : Bool × Bus := (bus.level true, bus.writeBit true)

/-- Whether a device asserted a presence pulse. -/
def reset (bus : Bus) : Bool × Bus :=
  (!bus.isEmpty, bus.map (Slave.toMode (.romCommand [])))

def writeBits (bits : List Bool) (bus : Bus) : Bus := bits.foldl (fun bus b => bus.writeBit b) bus

def write (v : UInt8) (bus : Bus) : Bus := bus.writeBits (byteBits v)

def readBits : Nat → Bus → List Bool × Bus
  | 0, bus => ([], bus)
  | n + 1, bus =>
    let (b, bus) := bus.readBit
    let (bits, bus) := readBits n bus
    (b :: bits, bus)

def read (bus : Bus) : UInt8 × Bus :=
  let (bits, bus) := bus.readBits 8
  (byteOf bits, bus)

def readBytes : Nat → Bus → List UInt8 × Bus
  | 0, bus => ([], bus)
  | n + 1, bus =>
    let (v, bus) := bus.read
    let (bytes, bus) := readBytes n bus
    (v :: bytes, bus)

def select (rom : List UInt8) (bus : Bus) : Bus :=
  rom.foldl (fun bus v => bus.write v) (bus.write 0x55)

def skip (bus : Bus) : Bus := bus.write 0xCC

def chips (bus : Bus) : List Chip := bus.map (·.chip)

end Bus

variable {bus : Bus} {bits pre rest : List Bool} {rom : List UInt8} {v : UInt8} {n : Nat}
  {f : List Bool → Slave → Slave} {p : Slave → Bool}

theorem byteOf_byteBits : byteOf (byteBits v) = v := by
  rw [byteOf, ofBits_byteBits]

theorem length_bytesBits : (bytesBits rom).length = 8 * rom.length := by
  induction rom with
  | nil => rfl
  | cons v rom ih =>
    have hbits : bytesBits (v :: rom) = byteBits v ++ bytesBits rom := rfl
    rw [hbits, List.length_append, length_byteBits, ih, List.length_cons]
    omega

theorem bytesBits_injective : ∀ {vs us : List UInt8}, vs.length = us.length →
    bytesBits vs = bytesBits us → vs = us
  | [], [], _, _ => rfl
  | v :: vs, u :: us, hlen, h => by
    have hbits : byteBits v ++ bytesBits vs = byteBits u ++ bytesBits us := h
    obtain ⟨hv, hvs⟩ := List.append_inj hbits (by rw [length_byteBits, length_byteBits])
    rw [byteBits_injective hv, bytesBits_injective (Nat.succ.inj hlen) hvs]

theorem Chip.length_address {c : Chip} : c.address.length = 64 := by
  rw [address, length_bytesBits, Vector.length_toList]

theorem Chip.address_ne_nil {c : Chip} : c.address ≠ [] := by
  apply List.ne_nil_of_length_pos
  rw [length_address]
  decide

theorem Chip.registers_eq {c : Chip} : c.registers =
    [c.tempLsb, c.tempMsb, c.highAlarmTemp, c.lowAlarmTemp, c.configuration, c.scratchpad[5],
      c.countRemain, c.countPerC, crc8 c.scratchpad.toList] := by
  have hbytes : c.scratchpad.toList = [c.tempLsb, c.tempMsb, c.highAlarmTemp, c.lowAlarmTemp,
      c.configuration, c.scratchpad[5], c.countRemain, c.countPerC] := by
    apply List.ext_getElem
    · rw [Vector.length_toList]
      rfl
    · intro i h h'
      rw [Vector.getElem_toList]
      match i, h' with
      | 0, _ | 1, _ | 2, _ | 3, _ | 4, _ | 5, _ | 6, _ | 7, _ => rfl
  rw [registers]
  exact congrArg (· ++ [crc8 c.scratchpad.toList]) hbytes

theorem Chip.rom_eq_cons {c : Chip} : c.rom.toList = c.family :: c.rom.toList.tail := by
  have hfirst : c.rom.toList.getD 0 0 = c.family := by simp [family]
  rw [← hfirst]
  have hlen := c.rom.length_toList
  cases hvs : c.rom.toList with
  | nil => rw [hvs] at hlen; cases hlen
  | cons v vs => rfl

theorem Slave.matchRom_some {s : Slave} (h : rest ≠ []) :
    s.matchRom (some rest) = s.toMode (.matchRom rest) := by
  cases rest with
  | nil => exact absurd rfl h
  | cons b rest => rfl

theorem Slave.toMode_matchRom {s : Slave} {mode : Mode} {o : Option (List Bool)} :
    (s.toMode mode).matchRom o = s.matchRom o := by
  rcases o with _ | _ | _ <;> rfl

namespace Bus

/-- Bits that no slave answers: each slave goes its own way. -/
theorem writeBits_map (hlen : pre.length + bits.length ≤ n)
    (hsends : ∀ pre s, pre.length < n → (f pre s).sends = true)
    (hslot : ∀ pre b s, pre.length < n → (f pre s).slot b = f (pre ++ [b]) s) :
    writeBits bits (bus.map (f pre)) = bus.map (f (pre ++ bits)) := by
  induction bits generalizing pre with
  | nil => rw [List.append_nil]; rfl
  | cons b bits ih =>
    rw [List.length_cons] at hlen
    have hpre : pre.length < n := by omega
    have hlevel : level b (bus.map (f pre)) = b := by
      have hall : (bus.map (f pre)).all Slave.sends = true := by
        rw [List.all_map, List.all_eq_true]
        exact fun s _ => hsends pre s hpre
      rw [level, hall, Bool.and_true]
    have hbit : writeBit b (bus.map (f pre)) = bus.map (f (pre ++ [b])) := by
      rw [writeBit, hlevel, List.map_map]
      apply List.map_congr_left
      intro s hs
      exact hslot pre b s hpre
    have hrest := @ih (pre ++ [b]) (by rw [List.length_append, List.length_singleton]; omega)
    rw [← hbit, List.append_assoc] at hrest
    exact hrest

theorem write_map (hsends : ∀ pre s, pre.length < 8 → (f pre s).sends = true)
    (hslot : ∀ pre b s, pre.length < 8 → (f pre s).slot b = f (pre ++ [b]) s) :
    write v (bus.map (f [])) = bus.map (f (byteBits v)) := by
  apply writeBits_map _ hsends hslot
  rw [length_byteBits]
  rfl

/-- A ROM command reaches every slave. -/
theorem write_romCommand : write v bus.reset.2 = bus.map (·.onRomCommand v) := by
  have hhear (got : List Bool) (s : Slave) (hgot : got.length < 8) :
      s.hearRomCommand got = s.toMode (.romCommand got) := if_pos hgot
  have hlast (s : Slave) : s.hearRomCommand (byteBits v) = s.onRomCommand v := by
    rw [Slave.hearRomCommand, if_neg (Nat.not_lt_of_le length_byteBits.ge), byteOf_byteBits]
  have hrun : write v (bus.map (Slave.hearRomCommand [])) =
      bus.map (Slave.hearRomCommand (byteBits v)) := by
    apply write_map
    · intro got s hgot
      rw [hhear got s hgot]
      rfl
    · intro got b s hgot
      rw [hhear got s hgot]
      rfl
  rw [funext hlast] at hrun
  exact hrun

theorem foldl_write : rom.foldl (fun bus v => write v bus) bus = writeBits (bytesBits rom) bus := by
  induction rom generalizing bus with
  | nil => rfl
  | cons v rom ih =>
    have hbits : bytesBits (v :: rom) = byteBits v ++ bytesBits rom := rfl
    rw [List.foldl_cons, ih, hbits, writeBits, writeBits, List.foldl_append]
    rfl

theorem chips_reset : bus.reset.2.chips = bus.chips := by
  rw [chips, reset, List.map_map]
  rfl

end Bus

end D1Mini.OneWire
