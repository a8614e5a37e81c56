import D1Mini.Lib.Lfsr

/-!
# `crc8` of `OneWire.cpp`

The library has the check byte twice: with a table of two halves, which is compiled in, and bit by
bit.
-/

namespace D1Mini.OneWire
open Lfsr

def dscrc2x16Table : List UInt8 :=
  [0x00, 0x5E, 0xBC, 0xE2, 0x61, 0x3F, 0xDD, 0x83,
    0xC2, 0x9C, 0x7E, 0x20, 0xA3, 0xFD, 0x1F, 0x41,
    0x00, 0x9D, 0x23, 0xBE, 0x46, 0xDB, 0x65, 0xF8,
    0x8C, 0x11, 0xAF, 0x32, 0xCA, 0x57, 0xE9, 0x74]

/-- `pgm_read_byte(dscrc2x16_table + i)`. -/
def tableByte (i : UInt8) : UInt8 := dscrc2x16Table.getD i.toNat 0

def crc8Byte (crc inbyte : UInt8) : UInt8 :=
  let crc := inbyte ^^^ crc
  tableByte (crc &&& 0x0f) ^^^ tableByte ((16 : UInt8) + ((crc >>> 4) &&& 0x0f))

def crc8 (addr : List UInt8) : UInt8 := addr.foldl crc8Byte 0

/-! ### Bit by bit -/

/-- The inner loop, from the remaining bits of `inbyte` on. -/
def crc8Bits : Nat → UInt8 → UInt8 → UInt8
  | 0, crc, _ => crc
  | i + 1, crc, inbyte =>
    let mix := (crc ^^^ inbyte) &&& 0x01
    let crc := crc >>> 1
    let crc := if mix ≠ 0 then crc ^^^ 0x8C else crc
    crc8Bits i crc (inbyte >>> 1)

/-- `crc8` without `ONEWIRE_CRC8_TABLE`. -/
def crc8Direct (addr : List UInt8) : UInt8 := addr.foldl (crc8Bits 8) 0

/-- The bits of a byte as they are on the wire, the lowest first. -/
def byteBits (b : UInt8) : List Bool := (List.range 8).map b.toBitVec.getLsbD

def bytesBits (bytes : List UInt8) : List Bool := bytes.flatMap byteBits

variable {crc b c : UInt8} {addr addr' : List UInt8} {n i : Nat} {bs cs pre post : List Bool}

theorem length_byteBits : (byteBits b).length = 8 := by
  rw [byteBits, List.length_map, List.length_range]

theorem ofBits_byteBits : ofBits 8 (byteBits b) = b.toBitVec := by
  apply BitVec.eq_of_getLsbD_eq
  intro i hi
  rw [getLsbD_ofBits]
  simp [byteBits, hi]

theorem byteBits_injective (h : byteBits b = byteBits c) : b = c := by
  rw [← UInt8.toBitVec_inj, ← ofBits_byteBits, h, ofBits_byteBits]

/-! ### The two versions -/

theorem mix_ne_zero : (b ^^^ c) &&& 0x01 ≠ 0 ↔ b.toBitVec.getLsbD 0 != c.toBitVec.getLsbD 0 := by
  have hmix : ((b ^^^ c) &&& 0x01).toBitVec = (b ^^^ c).toBitVec &&& BitVec.twoPow 8 0 := rfl
  rw [Ne, ← UInt8.toBitVec_inj, hmix, BitVec.and_twoPow, UInt8.toBitVec_xor, BitVec.getLsbD_xor]
  cases b.toBitVec.getLsbD 0 <;> cases c.toBitVec.getLsbD 0 <;> decide

theorem crc8Bits_eq : (crc8Bits n crc b).toBitVec =
    run 0x8C crc.toBitVec ((List.range n).map b.toBitVec.getLsbD) := by
  induction n generalizing crc b with
  | zero => rfl
  | succ n ih =>
    have hrest : (List.range n).map (b >>> 1).toBitVec.getLsbD =
        (List.range n).map (b.toBitVec.getLsbD ∘ Nat.succ) := by
      apply List.map_congr_left
      intro i hi
      have hshift : (b >>> 1).toBitVec = b.toBitVec >>> 1 := rfl
      rw [hshift, BitVec.getLsbD_ushiftRight, Nat.add_comm]
      rfl
    have hstep : (if (crc ^^^ b) &&& 0x01 ≠ 0 then crc >>> 1 ^^^ 0x8C else crc >>> 1).toBitVec =
        step 0x8C crc.toBitVec (b.toBitVec.getLsbD 0) := by
      rw [step, ite_congr (propext mix_ne_zero) (fun _ => rfl) (fun _ => rfl)]
      split <;> rfl
    rw [crc8Bits, ih, hrest, hstep, List.range_succ_eq_map, List.map_cons, List.map_map]
    rfl

theorem tableByte_low : ∀ i < 16, (tableByte (UInt8.ofNat i)).toBitVec =
    shifts 0x8C 8 (BitVec.ofNat 8 i) := by
  decide

theorem tableByte_high : ∀ i < 16, (tableByte ((16 : UInt8) + UInt8.ofNat i)).toBitVec =
    shifts 0x8C 8 (BitVec.ofNat 8 i <<< 4) := by
  decide

theorem low_eq : (b &&& 0x0f : UInt8) = UInt8.ofNat (b.toNat % 2 ^ 4) := by
  rw [← UInt8.toNat_inj, UInt8.toNat_and, UInt8.toNat_ofNat']
  have hmask : b.toNat &&& (0x0f : UInt8).toNat = b.toNat % 2 ^ 4 :=
    Nat.and_two_pow_sub_one_eq_mod _ 4
  rw [hmask]
  omega

theorem high_eq : ((b >>> 4) &&& 0x0f : UInt8) = UInt8.ofNat (b.toNat >>> 4) := by
  have hlt := b.toNat_lt
  have hshift : (b >>> 4).toNat = b.toNat >>> 4 := rfl
  rw [low_eq, hshift, Nat.mod_eq_of_lt]
  rw [Nat.shiftRight_eq_div_pow]
  omega

theorem halves : b.toBitVec =
    BitVec.ofNat 8 (b.toNat % 2 ^ 4) ^^^ BitVec.ofNat 8 (b.toNat >>> 4) <<< 4 := by
  have hlt : b.toNat < 2 ^ 8 := b.toNat_lt
  apply BitVec.eq_of_getLsbD_eq
  intro i hi
  rw [BitVec.getLsbD_xor, BitVec.getLsbD_shiftLeft, BitVec.getLsbD_ofNat, BitVec.getLsbD_ofNat,
    Nat.testBit_mod_two_pow, Nat.testBit_shiftRight]
  have hbit : b.toBitVec.getLsbD i = b.toNat.testBit i := rfl
  rw [hbit]
  rcases Nat.lt_or_ge i 4 with h | h
  · simp [h, hi]
  · simp [Nat.not_lt.mpr h, hi, Nat.add_sub_cancel' h]
    omega

/-- The two halves of a byte in the table are its eight shifts. -/
theorem tableBytes_eq :
    (tableByte (b &&& 0x0f) ^^^ tableByte ((16 : UInt8) + ((b >>> 4) &&& 0x0f))).toBitVec =
      shifts 0x8C 8 b.toBitVec := by
  have hlow : b.toNat % 2 ^ 4 < 16 := Nat.mod_lt _ (by decide)
  have hhigh : b.toNat >>> 4 < 16 := by
    have hlt := b.toNat_lt
    rw [Nat.shiftRight_eq_div_pow]
    omega
  rw [UInt8.toBitVec_xor, low_eq, high_eq, tableByte_low _ hlow, tableByte_high _ hhigh,
    ← shifts_xor, ← halves]

theorem crc8Byte_eq : (crc8Byte crc b).toBitVec = run 0x8C crc.toBitVec (byteBits b) := by
  rw [run_eq_shifts (Nat.le_of_eq length_byteBits), length_byteBits, ofBits_byteBits,
    BitVec.xor_comm]
  exact tableBytes_eq

theorem crc8_foldl :
    (addr.foldl crc8Byte crc).toBitVec = run 0x8C crc.toBitVec (bytesBits addr) := by
  induction addr generalizing crc with
  | nil => rfl
  | cons b addr ih =>
    have hbits : bytesBits (b :: addr) = byteBits b ++ bytesBits addr := rfl
    rw [List.foldl_cons, ih, crc8Byte_eq, hbits, run_append]

theorem crc8_toBitVec : (crc8 addr).toBitVec = run 0x8C 0 (bytesBits addr) := crc8_foldl

/-- The table gives the check byte of the bits, whatever the bytes are. -/
theorem crc8_eq_crc8Direct : crc8 addr = crc8Direct addr := by
  have hbyte : crc8Byte = crc8Bits 8 := by
    funext crc b
    rw [← UInt8.toBitVec_inj, crc8Byte_eq, crc8Bits_eq]
    rfl
  rw [crc8, crc8Direct, hbyte]

/-! ### What the check byte shows -/

theorem bytesBits_append : bytesBits (addr ++ addr') = bytesBits addr ++ bytesBits addr' :=
  List.flatMap_append

theorem poly_top : (0x8C : BitVec 8).getLsbD (8 - 1) := by decide

/-- `validAddress`, as it reads: the byte that follows is the check byte of what it follows if and
only if the check of the whole is zero. -/
theorem crc8_append_eq_zero : crc8 (addr ++ [b]) = 0 ↔ crc8 addr = b := by
  have hbits : bytesBits [b] = byteBits b := List.flatMap_singleton ..
  have hsum : crc8 (addr ++ [b]) = 0 ↔
      run (w := 8) 0x8C (run 0x8C 0 (bytesBits addr)) (byteBits b) = 0 := by
    rw [← UInt8.toBitVec_inj, crc8_toBitVec, bytesBits_append, run_append, hbits]
    rfl
  have hzero := run_eq_zero (c := run 0x8C 0 (bytesBits addr)) poly_top (length_byteBits (b := b))
  rw [hsum, hzero, ofBits_byteBits, ← crc8_toBitVec, UInt8.toBitVec_inj]
  exact eq_comm

/-- Wherever the wrong bits are, in the bytes or in the check byte, eight in a row do not pass. -/
theorem crc8_burst (hlen : bs.length = cs.length) (hburst : bs.length ≤ 8) (hne : bs ≠ cs)
    (hsent : bytesBits (addr ++ [b]) = pre ++ bs ++ post)
    (hread : bytesBits (addr' ++ [c]) = pre ++ cs ++ post) (hcrc : crc8 addr = b) :
    crc8 addr' ≠ c := by
  intro h
  rw [← crc8_append_eq_zero] at hcrc h
  have hsums : (crc8 (addr ++ [b])).toBitVec = (crc8 (addr' ++ [c])).toBitVec := by rw [hcrc, h]
  rw [crc8_toBitVec, crc8_toBitVec, hsent, hread] at hsums
  exact run_ne_of_burst poly_top hlen hburst hne hsums

theorem crc8_burst_temperature : crc8 [0x51, 0x05, 0x4B] ≠ 0xE2 := by
  have hlen : (byteBits 0x50).length = (byteBits 0x51).length := rfl
  have hsent : bytesBits ([0x50, 0x05, 0x4B] ++ [0xE2]) =
      [] ++ byteBits 0x50 ++ bytesBits [0x05, 0x4B, 0xE2] := rfl
  have hread : bytesBits ([0x51, 0x05, 0x4B] ++ [0xE2]) =
      [] ++ byteBits 0x51 ++ bytesBits [0x05, 0x4B, 0xE2] := rfl
  exact crc8_burst hlen (by decide) (by decide) hsent hread (by decide)

end D1Mini.OneWire
