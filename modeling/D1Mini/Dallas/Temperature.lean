import D1Mini.Dallas.ScratchPad

/-!
# Temperatures in `DallasTemperature.cpp`

A DS18B20 has its temperature in sixteenths of a degree, a DS18S20 in halves, with a counter for
what is below. The library has both in 1/128 degrees.
-/

namespace D1Mini.DallasTemperature
open OneWire

/-- `DEVICE_DISCONNECTED_RAW`. -/
def deviceDisconnectedRaw : Int16 := -7040

/-- `DEVICE_DISCONNECTED_C`. -/
def deviceDisconnectedC : Int := -127

/-- `calculateTemperature`, in 1/128 degrees. -/
def calculateTemperature (deviceAddress scratchPad : List UInt8) : Int16 :=
  let byte (i : Nat) : Nat := (scratchPad.getD i 0).toNat
  let fpTemperature := Int16.ofNat (byte 1 <<< 11 ||| byte 0 <<< 3)
  if deviceAddress.getD 0 0 = Chip.ds18s20Model ∧ byte 7 ≠ 0 then
    let high : Int := (fpTemperature.toUInt16 &&& 0xFFF0).toNat <<< 3
    .ofInt (high - 32 + Int.tdiv ((byte 7 - byte 6 : Int) <<< (7 : Nat)) (byte 7))
  else fpTemperature

def getTemp (deviceAddress : List UInt8) (bus : Bus) : Int16 × Bus :=
  let (scratchPad, bus) := isConnected deviceAddress bus
  match scratchPad with
  | some scratchPad => (calculateTemperature deviceAddress scratchPad, bus)
  | none => (deviceDisconnectedRaw, bus)

/-- `rawToCelsius`, whose `float` is exact, as the number of its 1/128 degrees. -/
def rawToCelsius (raw : Int16) : Int :=
  if raw ≤ deviceDisconnectedRaw then 128 * deviceDisconnectedC else raw.toInt

def getTempC (deviceAddress : List UInt8) (bus : Bus) : Int × Bus :=
  let (raw, bus) := getTemp deviceAddress bus
  (rawToCelsius raw, bus)

/-! ### What a device measures -/

variable {bus : Bus} {c : Chip} {deviceAddress : List UInt8}

/-- The register of the temperature, in two's complement. -/
def temperature (c : Chip) : Int :=
  Int.bmod (256 * c.tempMsb.toNat + c.tempLsb.toNat) 65536

theorem fixed_eq {high low : Nat} (h : low < 256) :
    high <<< 11 ||| low <<< 3 = 8 * (256 * high + low) := by
  have hlow : low <<< 3 < 2 ^ 11 := by rw [Nat.shiftLeft_eq]; omega
  rw [← Nat.shiftLeft_add_eq_or_of_lt hlow, Nat.shiftLeft_eq, Nat.shiftLeft_eq]
  omega

/-- What the scratchpad of a device gives. -/
theorem calculateTemperature_registers : calculateTemperature deviceAddress c.registers =
    let fpTemperature := Int16.ofNat (8 * (256 * c.tempMsb.toNat + c.tempLsb.toNat))
    if deviceAddress.getD 0 0 = Chip.ds18s20Model ∧ c.countPerC.toNat ≠ 0 then
      let high : Int := (fpTemperature.toUInt16 &&& 0xFFF0).toNat <<< 3
      .ofInt (high - 32 +
        Int.tdiv ((c.countPerC.toNat - c.countRemain.toNat : Int) <<< (7 : Nat)) c.countPerC.toNat)
    else fpTemperature := by
  rw [← fixed_eq c.tempLsb.toNat_lt, Chip.registers_eq]
  rfl

theorem bmod_fixed {x : Int} (hlow : -4096 ≤ x.bmod 65536) (hhigh : x.bmod 65536 < 4096) :
    (8 * x).bmod 65536 = 8 * x.bmod 65536 := by
  rw [← Int.mul_bmod_bmod]
  exact Int.bmod_eq_of_le (by omega) (by omega)

theorem calculateTemperature_fixed (hfamily : deviceAddress.getD 0 0 ≠ Chip.ds18s20Model)
    (hlow : -4096 ≤ temperature c) (hhigh : temperature c < 4096) :
    (calculateTemperature deviceAddress c.registers).toInt = 8 * temperature c := by
  have hcast : ((8 * (256 * c.tempMsb.toNat + c.tempLsb.toNat) : Nat) : Int) =
      8 * (256 * c.tempMsb.toNat + c.tempLsb.toNat) := by
    omega
  rw [calculateTemperature_registers]
  dsimp only
  rw [if_neg fun h => hfamily h.1, Int16.toInt_ofNat', hcast]
  exact bmod_fixed hlow hhigh

theorem bmod_cases (x : Int) : x.bmod 65536 = x % 65536 ∨ x.bmod 65536 = x % 65536 - 65536 := by
  rw [Int.bmod_def]
  split
  · exact .inl rfl
  · exact .inr rfl

theorem bmod_counted {x q : Int} (hlow : -500 ≤ x.bmod 65536) (hhigh : x.bmod 65536 < 500)
    (hq : 0 ≤ q ∧ q ≤ 128) :
    (8 * x % 65536 / 16 * 16 * 8 - 32 + q).bmod 65536 = 128 * (x.bmod 65536 / 2) - 32 + q := by
  have hcases := bmod_cases x
  generalize x.bmod 65536 = t at *
  obtain ⟨k, hk⟩ : (65536 : Int) ∣
      (8 * x % 65536 / 16 * 16 * 8 - 32 + q) - (128 * (t / 2) - 32 + q) := by
    apply Int.dvd_of_emod_eq_zero
    omega
  have hsplit : 8 * x % 65536 / 16 * 16 * 8 - 32 + q = 128 * (t / 2) - 32 + q + 65536 * k := by
    omega
  have hsame := Int.add_mul_bmod_self_left (128 * (t / 2) - 32 + q) 65536 k
  rw [hsplit]
  exact hsame.trans (Int.bmod_eq_of_le (by omega) (by omega))

/-- The four lowest bits are masked out. -/
theorem toNat_and_fff0 (x : UInt16) : (x &&& 0xFFF0).toNat = x.toNat / 16 * 16 := by
  have hlt := x.toNat_lt
  have hmask : x.toNat &&& (2 ^ 12 - 1) <<< 4 = (x.toNat >>> 4 &&& 2 ^ 12 - 1) <<< 4 := by
    apply Nat.eq_of_testBit_eq
    intro i
    rw [Nat.testBit_and, Nat.testBit_shiftLeft, Nat.testBit_shiftLeft, Nat.testBit_and,
      Nat.testBit_shiftRight]
    rcases Nat.lt_or_ge i 4 with h | h
    · simp [Nat.not_le_of_lt h]
    · rw [Nat.add_sub_cancel' h, decide_eq_true h, Bool.true_and, Bool.true_and]
  have hand : (x &&& 0xFFF0).toNat = x.toNat &&& (2 ^ 12 - 1) <<< 4 := rfl
  rw [hand, hmask, Nat.and_two_pow_sub_one_eq_mod, Nat.shiftLeft_eq, Nat.shiftRight_eq_div_pow]
  omega

/-- The counter gives at most one degree. -/
theorem count_le {remain perC : Nat} (hcount : remain ≤ perC) (hpos : perC ≠ 0) :
    0 ≤ 128 * (perC - remain : Int) / perC ∧ 128 * (perC - remain : Int) / perC ≤ 128 := by
  constructor
  · exact Int.ediv_nonneg (by omega) (by omega)
  · exact Int.ediv_le_of_le_mul (by omega) (by omega)

theorem calculateTemperature_counted (hfamily : deviceAddress.getD 0 0 = Chip.ds18s20Model)
    (hcount : c.countRemain.toNat ≤ c.countPerC.toNat) (hpos : c.countPerC.toNat ≠ 0)
    (hlow : -500 ≤ temperature c) (hhigh : temperature c < 500) :
    (calculateTemperature deviceAddress c.registers).toInt =
      128 * (temperature c / 2) - 32 +
        128 * (c.countPerC.toNat - c.countRemain.toNat) / c.countPerC.toNat := by
  have hquot : Int.tdiv ((c.countPerC.toNat - c.countRemain.toNat : Int) <<< (7 : Nat))
        c.countPerC.toNat =
      128 * (c.countPerC.toNat - c.countRemain.toNat) / c.countPerC.toNat := by
    have hshift : (c.countPerC.toNat - c.countRemain.toNat : Int) <<< (7 : Nat) =
        128 * (c.countPerC.toNat - c.countRemain.toNat) := by
      rw [Int.shiftLeft_eq, Int.mul_comm]
      rfl
    rw [hshift, Int.tdiv_eq_ediv_of_nonneg (by omega)]
  have hhigh' : ((8 * (256 * c.tempMsb.toNat + c.tempLsb.toNat) % 2 ^ 16 / 16 * 16 * 2 ^ 3 :
      Nat) : Int) = 8 * (256 * c.tempMsb.toNat + c.tempLsb.toNat) % 65536 / 16 * 16 * 8 := by
    omega
  rw [calculateTemperature_registers]
  dsimp only
  rw [if_pos ⟨hfamily, hpos⟩, Int16.toUInt16_ofNat', toNat_and_fff0, Int16.toInt_ofInt, hquot,
    UInt16.toNat_ofNat', Nat.shiftLeft_eq, hhigh']
  exact bmod_counted hlow hhigh (count_le hcount hpos)

/-! ### Reading a device -/

theorem meant_deviceAt (hc : deviceAt bus deviceAddress = some c) :
    deviceAddress.getD 0 0 = c.family := by
  have hfind : bus.chips.find? (·.meant deviceAddress) = some c := hc
  have hmeant : c.meant deviceAddress := List.find?_some hfind
  rw [← of_decide_eq_true hmeant, Chip.rom_eq_cons]
  rfl

theorem getTemp_some (D : Distinct bus) (hlen : deviceAddress.length = 8)
    (hc : deviceAt bus deviceAddress = some c) (hblank : blank c = false) :
    getTemp deviceAddress bus = (calculateTemperature deviceAddress c.registers, bus.reset.2) := by
  rw [getTemp, isConnected_some D hlen hc hblank]

theorem rawToCelsius_eq {raw : Int16} {t : Int} (h : raw.toInt = 8 * t) :
    rawToCelsius raw = if t ≤ -880 then 128 * deviceDisconnectedC else 8 * t := by
  have hraw : raw ≤ deviceDisconnectedRaw ↔ t ≤ -880 := by
    have hdisconnected : deviceDisconnectedRaw.toInt = -7040 := rfl
    rw [Int16.le_iff_toInt_le, h, hdisconnected]
    omega
  rw [rawToCelsius, h, ite_congr (propext hraw) (fun _ => rfl) fun _ => rfl]

/-- The temperature that a DS18B20 is read with, in 1/128 degrees. -/
def reported : Option Chip → Int
  | some c => if temperature c ≤ -880 then 128 * deviceDisconnectedC else 8 * temperature c
  | none => 128 * deviceDisconnectedC

/-- The temperature of a DS18B20 is read as it is, down to -55 degrees, where the device already
passes for an absent one. -/
theorem getTempC_eq (D : Distinct bus) (hlen : deviceAddress.length = 8)
    (hfamily : deviceAddress.getD 0 0 ≠ Chip.ds18s20Model)
    (hrange : ∀ c ∈ bus.chips, -4096 ≤ temperature c ∧ temperature c < 4096) :
    getTempC deviceAddress bus =
      (reported ((deviceAt bus deviceAddress).filter (!blank ·)), bus.reset.2) := by
  cases hc : deviceAt bus deviceAddress with
  | none =>
    rw [getTempC, getTemp, isConnected_none hlen hc]
    rfl
  | some c =>
    cases hblank : blank c with
    | true =>
      rw [getTempC, getTemp, isConnected_blank D hlen hc hblank, Option.filter_some, hblank]
      rfl
    | false =>
      obtain ⟨hlow, hhigh⟩ := hrange c (List.mem_of_find?_eq_some hc)
      rw [getTempC, getTemp_some D hlen hc hblank, Option.filter_some, hblank]
      dsimp only
      rw [rawToCelsius_eq (calculateTemperature_fixed hfamily hlow hhigh)]
      rfl

/-- The temperature of a DS18S20 is read with the fraction of its counter. -/
theorem getTemp_counted (D : Distinct bus) (hlen : deviceAddress.length = 8)
    (hc : deviceAt bus deviceAddress = some c) (hblank : blank c = false)
    (hfamily : c.family = Chip.ds18s20Model) (hcount : c.countRemain.toNat ≤ c.countPerC.toNat)
    (hpos : c.countPerC.toNat ≠ 0) (hlow : -500 ≤ temperature c) (hhigh : temperature c < 500) :
    (getTemp deviceAddress bus).1.toInt =
      128 * (temperature c / 2) - 32 +
        128 * (c.countPerC.toNat - c.countRemain.toNat) / c.countPerC.toNat := by
  rw [getTemp_some D hlen hc hblank]
  exact calculateTemperature_counted ((meant_deviceAt hc).trans hfamily) hcount hpos hlow hhigh

theorem getTemp_counted_ds18s20 :
    let c : Chip := { Chip.ds18b20 7 with
      rom := #v[0x10, 7, 0, 0, 0, 0, 0, 0]
      scratchpad := #v[0x32, 0, 0x4B, 0x46, 0xFF, 0xFF, 4, 16] }
    (getTemp c.rom.toList [⟨c, .idle⟩]).1.toInt =
      128 * (temperature c / 2) - 32 +
        128 * (c.countPerC.toNat - c.countRemain.toNat) / c.countPerC.toNat :=
  getTemp_counted (List.nodup_singleton _) rfl rfl rfl rfl (by decide) (by decide) (by decide)
    (by decide)

end D1Mini.DallasTemperature
