import D1Mini.Lib.BitStream

/-!
# The data line of the sensor, `readSensor` of `DHTesp.cpp`

The library waits for 83 edges. What it sees of a wait is its age in microseconds when it ends: more
than 90 is a timeout, and from edge 0 on every second age is a bit. `edges_carries` says that the
registers hold the five bytes of a frame after any waits that the library's limits allow.
-/

namespace D1Mini.Dht
open BitStream

/-! ### The loop -/

structure Registers where
  rawHumidity : UInt16 := 0
  rawTemperature : UInt16 := 0
  data : UInt16 := 0
deriving DecidableEq, Repr

/-- What the loop does with the age of edge `i`. -/
def edge (i : Int) (age : UInt8) (r : Registers) : Registers :=
  let data :=
    if i ≥ 0 ∧ i % 2 = 1 then (if age > 30 then r.data <<< 1 ||| 1 else r.data <<< 1) else r.data
  if i = 31 then { r with rawHumidity := data, data }
  else if i = 63 then { r with rawTemperature := data, data := 0 }
  else { r with data }

/-- The loop from edge `i` on; a timeout leaves it. -/
def edges (i : Int) : List UInt8 → Registers → Option Registers
  | [], r => some r
  | age :: ages, r => if age > 90 then none else edges (i + 1) ages (edge i age r)

/-- The ages at the end of the waits. After a timeout the rest of them is not looked at. -/
structure Wave where
  ages : List UInt8
  length_eq : ages.length = 83
deriving DecidableEq, Repr

/-! ### Frames -/

/-- The bytes a sensor sends. -/
structure Frame where
  humidityHigh : UInt8
  humidityLow : UInt8
  temperatureHigh : UInt8
  temperatureLow : UInt8
  checksum : UInt8
deriving DecidableEq, Repr

def Frame.bytes (f : Frame) : List UInt8 :=
  [f.humidityHigh, f.humidityLow, f.temperatureHigh, f.temperatureLow, f.checksum]

def Frame.bits (f : Frame) : List Bool := f.bytes.flatMap fun b => BitStream.bits 8 b.toNat

/-- A low level in front of each bit, and a high level of at most 30 microseconds for a zero. -/
inductive Pulses : List Bool → List UInt8 → Prop
  | nil : Pulses [] []
  | cons {low high : UInt8} {b : Bool} {bs : List Bool} {ages : List UInt8} :
    low ≤ 90 → high ≤ 90 → (high > 30 ↔ b = true) → Pulses bs ages →
    Pulses (b :: bs) (low :: high :: ages)

/-- The three edges of the start, and the bits. -/
def Wave.Carries (w : Wave) (bs : List Bool) : Prop :=
  ∃ start ages, w.ages = start ++ ages ∧ start.length = 3 ∧ (∀ age ∈ start, age ≤ 90) ∧
    Pulses bs ages

theorem Frame.length_bits {f : Frame} : f.bits.length = 40 := by
  simp only [Frame.bits, Frame.bytes, List.flatMap_cons, List.flatMap_nil, List.length_append,
    BitStream.length_bits, List.length_nil]

/-- A low and a high level with the durations of the data sheet. -/
def pulse (b : Bool) : List UInt8 := [50, if b then 70 else 26]

theorem length_pulses {bs : List Bool} : (bs.flatMap pulse).length = 2 * bs.length := by
  induction bs with
  | nil => rfl
  | cons b bs ih =>
    rw [List.flatMap_cons, List.length_append, ih, List.length_cons, Nat.mul_add, Nat.add_comm]
    rfl

def Frame.wave (f : Frame) : Wave where
  ages := [20, 80, 80] ++ f.bits.flatMap pulse
  length_eq := by
    rw [List.length_append, length_pulses, f.length_bits]
    rfl

theorem Frame.wave_carries {f : Frame} : f.wave.Carries f.bits := by
  have hstart : ∀ age ∈ ([20, 80, 80] : List UInt8), age ≤ 90 := by
    intro age h
    simp only [List.mem_cons, List.not_mem_nil, or_false] at h
    rcases h with rfl | rfl | rfl <;> decide
  refine ⟨[20, 80, 80], _, rfl, rfl, hstart, ?_⟩
  induction f.bits with
  | nil => exact .nil
  | cons b bs ih => cases b <;> exact .cons (by decide) (by decide) (by decide) ih

/-! ### Bits -/

def shift (data : UInt16) (b : Bool) : UInt16 := if b then data <<< 1 ||| 1 else data <<< 1

/-- What the two edges of bit `k` do. -/
def takeBit (k : Nat) (b : Bool) (r : Registers) : Registers :=
  if k = 15 then { r with rawHumidity := shift r.data b, data := shift r.data b }
  else if k = 31 then { r with rawTemperature := shift r.data b, data := 0 }
  else { r with data := shift r.data b }

def takeBits : Nat → List Bool → Registers → Registers
  | _, [], r => r
  | k, b :: bs, r => takeBits (k + 1) bs (takeBit k b r)

section
variable {k : Nat} {r : Registers} {as bs : List Bool} {ages start : List UInt8} {data : UInt16}
variable {b : Bool} {low high : UInt8} {i : Int}

theorem shift_eq : shift data b = UInt16.ofNat (2 * data.toNat + b.toNat) := by
  have hone : (1 : UInt16).toNat = 1 := rfl
  have hshift : (1 : UInt16).toNat % 16 = 1 := rfl
  have hfit : 2 * data.toNat % 2 ^ 16 = (data.toNat % 2 ^ 15) <<< 1 := by
    rw [Nat.shiftLeft_eq]
    omega
  have hdouble : (data <<< 1).toNat = (data.toNat % 2 ^ 15) <<< 1 := by
    rw [UInt16.toNat_shiftLeft, hshift, Nat.shiftLeft_eq, Nat.pow_one, Nat.mul_comm, hfit]
  rw [← UInt16.toNat_inj, UInt16.toNat_ofNat']
  cases b with
  | false =>
    rw [shift, if_neg Bool.false_ne_true, hdouble, ← hfit]
    rfl
  | true =>
    rw [shift, if_pos rfl, UInt16.toNat_or, hone, hdouble,
      ← Nat.shiftLeft_add_eq_or_of_lt (by decide), ← hfit, Bool.toNat_true]
    omega

theorem foldl_shift : bs.foldl shift data =
    UInt16.ofNat (data.toNat * 2 ^ bs.length + value bs) := by
  have hfold (n : Nat) : bs.foldl shift (UInt16.ofNat n) =
      UInt16.ofNat (bs.foldl (fun n b => 2 * n + b.toNat) n) := by
    induction bs generalizing n with
    | nil => rfl
    | cons b bs ih =>
      have hmod : UInt16.ofNat (2 * (UInt16.ofNat n).toNat + b.toNat) =
          UInt16.ofNat (2 * n + b.toNat) := by
        rw [← UInt16.toNat_inj, UInt16.toNat_ofNat', UInt16.toNat_ofNat', UInt16.toNat_ofNat']
        omega
      rw [List.foldl_cons, List.foldl_cons, shift_eq, hmod, ih]
  rw [← foldl_value, ← hfold, UInt16.ofNat_toNat]

theorem edge_even : edge (2 * k) low r = r := by
  have h : ¬ ((2 * k : Int) ≥ 0 ∧ (2 * k : Int) % 2 = 1) := by omega
  have h31 : (2 * k : Int) ≠ 31 := by omega
  have h63 : (2 * k : Int) ≠ 63 := by omega
  simp only [edge, if_neg h, if_neg h31, if_neg h63]

theorem edge_odd (hb : high > 30 ↔ b = true) : edge (2 * k + 1) high r = takeBit k b r := by
  have h : (2 * k + 1 : Int) ≥ 0 ∧ (2 * k + 1 : Int) % 2 = 1 := by omega
  have h31 : (2 * k + 1 : Int) = 31 ↔ k = 15 := by omega
  have h63 : (2 * k + 1 : Int) = 63 ↔ k = 31 := by omega
  simp only [edge, takeBit, shift, if_pos h, h31, h63, hb]

theorem edges_bit (hlow : low ≤ 90) (hhigh : high ≤ 90) (hb : high > 30 ↔ b = true) :
    edges (2 * k) (low :: high :: ages) r = edges (2 * (k + 1 : Nat)) ages (takeBit k b r) := by
  have hnext : (2 * k + 1 + 1 : Int) = 2 * (k + 1 : Nat) := by omega
  rw [edges, if_neg (UInt8.not_lt.mpr hlow), edge_even, edges, if_neg (UInt8.not_lt.mpr hhigh),
    edge_odd hb, hnext]

theorem edges_pulses (h : Pulses bs ages) :
    edges (2 * k) ages r = some (takeBits k bs r) := by
  induction h generalizing k r with
  | nil => rfl
  | cons hlow hhigh hb _ ih => rw [edges_bit hlow hhigh hb, ih, takeBits]

/-- The edges of the start leave the registers as they are. -/
theorem edges_start (hi : i + start.length ≤ 0) (h : ∀ age ∈ start, age ≤ 90) :
    edges i (start ++ ages) r = edges (i + start.length) ages r := by
  induction start generalizing i with
  | nil => rw [List.nil_append, List.length_nil, Int.natCast_zero, Int.add_zero]
  | cons age start ih =>
    obtain ⟨hage, h⟩ := List.forall_mem_cons.mp h
    rw [List.length_cons] at hi ⊢
    have hneg : ¬ (i ≥ 0 ∧ i % 2 = 1) := by omega
    have h31 : i ≠ 31 := by omega
    have h63 : i ≠ 63 := by omega
    have hedge : edge i age r = r := by simp only [edge, if_neg hneg, if_neg h31, if_neg h63]
    have hnext : i + 1 + start.length = i + (start.length + 1 : Nat) := by omega
    rw [List.cons_append, edges, if_neg (UInt8.not_lt.mpr hage), hedge, ih (by omega) h, hnext]

/-- The loop is left early if and only if a wait is too long. -/
theorem edges_isSome : (edges i ages r).isSome ↔ ∀ age ∈ ages, age ≤ 90 := by
  induction ages generalizing i r with
  | nil => simp [edges]
  | cons age ages ih =>
    rw [edges, List.forall_mem_cons]
    split
    case isTrue h =>
      apply iff_of_false Bool.false_ne_true
      intro hle
      exact UInt8.not_lt.mpr hle.1 h
    case isFalse h => rw [ih, and_iff_right (UInt8.not_lt.mp h)]

theorem takeBits_append :
    takeBits k (as ++ bs) r = takeBits (k + as.length) bs (takeBits k as r) := by
  induction as generalizing k r with
  | nil => rfl
  | cons b as ih =>
    rw [List.cons_append, takeBits, takeBits, ih, List.length_cons, Nat.add_right_comm,
      Nat.add_assoc]

/-- Without a latch in between, the bits only go through `data`. -/
theorem takeBits_foldl (h : ∀ j < bs.length, k + j ≠ 15 ∧ k + j ≠ 31) :
    takeBits k bs r = { r with data := bs.foldl shift r.data } := by
  induction bs generalizing k r with
  | nil => rfl
  | cons b bs ih =>
    obtain ⟨h15, h31⟩ : k ≠ 15 ∧ k ≠ 31 := h 0 (Nat.succ_pos _)
    have hbit : takeBit k b r = { r with data := shift r.data b } := by
      rw [takeBit, if_neg h15, if_neg h31]
    have hrest : ∀ j < bs.length, k + 1 + j ≠ 15 ∧ k + 1 + j ≠ 31 := by
      intro j hj
      have := h (j + 1) (Nat.succ_lt_succ hj)
      omega
    rw [takeBits, hbit, ih hrest, List.foldl_cons]

theorem takeBits_humidity (h : bs.length = 16) : takeBits 0 bs r =
    { r with rawHumidity := bs.foldl shift r.data, data := bs.foldl shift r.data } := by
  obtain rfl | ⟨as, b, rfl⟩ := List.eq_nil_or_concat bs
  · cases h
  rw [List.concat_eq_append, List.length_append, List.length_singleton] at h
  have hlen : as.length = 15 := by omega
  have hfold : takeBits 0 as r = { r with data := as.foldl shift r.data } :=
    takeBits_foldl (by omega)
  rw [List.concat_eq_append, takeBits_append, hfold, hlen, List.foldl_append]
  rfl

/-- Only this latch clears `data`. -/
theorem takeBits_temperature (h : bs.length = 16) :
    takeBits 16 bs r = { r with rawTemperature := bs.foldl shift r.data, data := 0 } := by
  obtain rfl | ⟨as, b, rfl⟩ := List.eq_nil_or_concat bs
  · cases h
  rw [List.concat_eq_append, List.length_append, List.length_singleton] at h
  have hlen : as.length = 15 := by omega
  have hfold : takeBits 16 as r = { r with data := as.foldl shift r.data } :=
    takeBits_foldl (by omega)
  rw [List.concat_eq_append, takeBits_append, hfold, hlen, List.foldl_append]
  rfl

end

/-! ### The registers after a frame -/

theorem takeBits_word {hs ts cs : List Bool} (hh : hs.length = 16) (ht : ts.length = 16)
    (hc : cs.length = 8) : takeBits 0 (hs ++ (ts ++ cs)) {} =
      { rawHumidity := UInt16.ofNat (value hs), rawTemperature := UInt16.ofNat (value ts)
        data := UInt16.ofNat (value cs) } := by
  have hzero (bs : List Bool) : bs.foldl shift 0 = UInt16.ofNat (value bs) := by
    rw [foldl_shift, UInt16.toNat_zero, Nat.zero_mul, Nat.zero_add]
  have hword (data : UInt16) : ts.foldl shift data = UInt16.ofNat (value ts) := by
    rw [foldl_shift, ht, ← UInt16.toNat_inj, UInt16.toNat_ofNat', UInt16.toNat_ofNat',
      Nat.mul_add_mod_self_right]
  rw [takeBits_append, takeBits_append, hh, ht, takeBits_humidity hh, takeBits_temperature ht,
    takeBits_foldl (by omega)]
  dsimp only
  rw [hword, hzero hs, hzero cs]

def Frame.registers (f : Frame) : Registers where
  rawHumidity := UInt16.ofNat (f.humidityHigh.toNat * 256 + f.humidityLow.toNat)
  rawTemperature := UInt16.ofNat (f.temperatureHigh.toNat * 256 + f.temperatureLow.toNat)
  data := UInt16.ofNat f.checksum.toNat

theorem edges_carries {w : Wave} {f : Frame} (h : w.Carries f.bits) :
    edges (-3) w.ages {} = some f.registers := by
  obtain ⟨start, ages, hages, hlen, hstart, hpulses⟩ := h
  have hbyte (b : UInt8) : value (BitStream.bits 8 b.toNat) = b.toNat := value_bits_of_lt b.toNat_lt
  have hword (b c : UInt8) : value (BitStream.bits 8 b.toNat ++ BitStream.bits 8 c.toNat) =
      b.toNat * 256 + c.toNat := by
    rw [value_append, length_bits, hbyte, hbyte]
    rfl
  have hbits : f.bits =
      (BitStream.bits 8 f.humidityHigh.toNat ++ BitStream.bits 8 f.humidityLow.toNat) ++
      ((BitStream.bits 8 f.temperatureHigh.toNat ++ BitStream.bits 8 f.temperatureLow.toNat) ++
        BitStream.bits 8 f.checksum.toNat) := by
    simp only [Frame.bits, Frame.bytes, List.flatMap_cons, List.flatMap_nil, List.append_nil,
      List.append_assoc]
  have hzero : (-3 : Int) + start.length = 2 * (0 : Nat) := by omega
  rw [hages, edges_start (by omega) hstart, hzero, edges_pulses hpulses, hbits,
    takeBits_word (by rw [List.length_append, length_bits, length_bits])
      (by rw [List.length_append, length_bits, length_bits]) length_bits,
    hword, hword, hbyte]
  rfl

end D1Mini.Dht
