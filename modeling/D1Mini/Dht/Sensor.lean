import D1Mini.Dht.Frame
import D1Mini.Lib.EventMachine

/-!
# The readings of `DHTesp.cpp`

A reading is the integer of its tenths, and `none` where the library has `NAN`. A call of
`readSensor` comes with what `millis()` returns and with the waits it would see on the line.

* `readSensor_sample`: a sample in the range of the sensor is recovered;
* `readSensor_damaged`: a frame with one wrong byte is rejected;
* `run_reads`: when the line is read in a run, and what is reported after it;
* `getHumidity_once`: the second try of a reading is in vain.
-/

namespace D1Mini.Dht
open EventMachine

/-- `DHT_MODEL_t`; the library tells only `DHT11` from the others. -/
inductive DhtModel
  | dht11
  | dht22
deriving DecidableEq, Repr

/-- `DHT_ERROR_t`. -/
inductive DhtError
  | none
  | timeout
  | checksum
deriving DecidableEq, Repr

structure Sensor where
  model : DhtModel
  lastReadTime : UInt32
  temperature : Option Int
  humidity : Option Int
  error : DhtError
deriving DecidableEq, Repr

structure Attempt where
  now : UInt32
  wave : Wave
deriving DecidableEq, Repr

/-- The sum that is compared with `data`. -/
def Registers.sum (r : Registers) : Nat :=
  (r.rawHumidity.toUInt8.toNat + (r.rawHumidity >>> 8).toNat + r.rawTemperature.toUInt8.toNat +
    (r.rawTemperature >>> 8).toNat) % 256

/-- The humidity and the temperature. -/
def Registers.readings (r : Registers) : DhtModel → Int × Int
  | .dht11 =>
    ((r.rawHumidity >>> 8).toNat * 10 + (r.rawHumidity &&& 0x00FF).toNat,
      (r.rawTemperature >>> 8).toNat * 10 + (r.rawTemperature &&& 0x00FF).toNat)
  | .dht22 =>
    let rawTemperature :=
      if r.rawTemperature &&& 0x8000 ≠ 0 then -(r.rawTemperature &&& 0x7FFF) else r.rawTemperature
    (r.rawHumidity.toNat, rawTemperature.toInt16.toInt)

/-- Less than this after a read the line is left alone. -/
def DhtModel.pause : DhtModel → UInt32
  | .dht11 => 999
  | .dht22 => 1999

def readSensor (s : Sensor) (a : Attempt) : Sensor :=
  if a.now - s.lastReadTime < s.model.pause then s
  else
    let s := { s with lastReadTime := a.now, temperature := none, humidity := none }
    match edges (-3) a.wave.ages {} with
    | none => { s with error := .timeout }
    | some r =>
      if r.sum ≠ r.data.toNat then { s with error := .checksum }
      else
        let (humidity, temperature) := r.readings s.model
        { s with humidity := some humidity, temperature := some temperature, error := .none }

/-- Two calls of `readSensor`, of which the second is for a timeout. -/
def readTwice (s : Sensor) (a b : Attempt) : Sensor :=
  if (readSensor s a).error = .timeout then readSensor (readSensor s a) b else readSensor s a

def getHumidity (s : Sensor) (a b : Attempt) : Option Int × Sensor :=
  ((readTwice s a b).humidity, readTwice s a b)

def getTemperature (s : Sensor) (a b : Attempt) : Option Int × Sensor :=
  ((readTwice s a b).temperature, readTwice s a b)

section
variable {s : Sensor} {a b c d : Attempt}

/-! ### The pause -/

/-- The call comes too early to read. -/
def Sensor.Early (s : Sensor) (a : Attempt) : Prop := a.now - s.lastReadTime < s.model.pause

instance : Decidable (s.Early a) := inferInstanceAs (Decidable (_ < _))

theorem readSensor_early (h : s.Early a) : readSensor s a = s := if_pos h

theorem readSensor_model : (readSensor s a).model = s.model := by
  unfold readSensor
  repeat' split
  all_goals rfl

theorem readSensor_lastReadTime (h : ¬ s.Early a) : (readSensor s a).lastReadTime = a.now := by
  unfold readSensor
  split
  · contradiction
  repeat' split
  all_goals rfl

/-- A second call that follows within the pause of a read leaves the sensor alone. -/
theorem readSensor_again (h : ¬ s.Early a) (hb : b.now - a.now < s.model.pause) :
    readSensor (readSensor s a) b = readSensor s a := by
  apply readSensor_early
  rw [Sensor.Early, readSensor_lastReadTime h, readSensor_model]
  exact hb

/-- A read is in time if no wait on the line was too long. -/
theorem readSensor_in_time (h : ¬ s.Early a) :
    (readSensor s a).error ≠ .timeout ↔ ∀ age ∈ a.wave.ages, age ≤ 90 := by
  have hread : readSensor s a = _ := if_neg h
  rw [hread, ← edges_isSome (i := -3) (r := {})]
  cases edges (-3) a.wave.ages {} with
  | none => simp
  | some r =>
    dsimp only
    split <;> simp

theorem readTwice_once (h : ¬ s.Early a) (hb : b.now - a.now < s.model.pause) :
    readTwice s a b = readSensor s a := by
  unfold readTwice
  split
  · exact readSensor_again h hb
  · rfl

/-- After a timeout `readSensor` is called again, but it has set `lastReadTime` already. -/
theorem getHumidity_once (h : ¬ s.Early a) (hb : b.now - a.now < s.model.pause) :
    getHumidity s a b = ((readSensor s a).humidity, readSensor s a) := by
  rw [getHumidity, readTwice_once h hb]

/-- `getTemperature` after `getHumidity` has the temperature of the same frame. -/
theorem getTemperature_once (h : ¬ s.Early a) (hb : b.now - a.now < s.model.pause)
    (hc : c.now - a.now < s.model.pause) (hd : d.now - a.now < s.model.pause) :
    getTemperature (getHumidity s a b).2 c d = ((readSensor s a).temperature, readSensor s a) := by
  rw [getHumidity_once h hb]
  have hagain (e : Attempt) (he : e.now - a.now < s.model.pause) :
      readSensor (readSensor s a) e = readSensor s a := readSensor_again h he
  have htwice : readTwice (readSensor s a) c d = readSensor s a := by
    unfold readTwice
    simp only [hagain c hc, hagain d hd, ite_self]
  rw [getTemperature, htwice]

/-! ### Runs -/

/-- What a wave is read as: the humidity and the temperature. -/
def DhtModel.shows (model : DhtModel) (wave : Wave) : Option Int × Option Int :=
  match edges (-3) wave.ages {} with
  | none => (none, none)
  | some r =>
    if r.sum ≠ r.data.toNat then (none, none)
    else (some (r.readings model).1, some (r.readings model).2)

theorem readSensor_shows (h : ¬ s.Early a) :
    ((readSensor s a).humidity, (readSensor s a).temperature) = s.model.shows a.wave := by
  have hread : readSensor s a = _ := if_neg h
  rw [hread, DhtModel.shows]
  cases edges (-3) a.wave.ages {} with
  | none => rfl
  | some r =>
    dsimp only
    split <;> rfl

/-- A call at a true time. -/
structure Call where
  time : Nat
  wave : Wave

def Call.attempt (c : Call) : Attempt := ⟨UInt32.ofNat c.time, c.wave⟩

def callStep (s : Sensor) (c : Call) : Sensor := readSensor s c.attempt

/-- The calls that should read the line: each comes no earlier than the pause after the one before,
in true time. -/
def dueReads (pause : Nat) : Nat → List Call → List Call
  | _, [] => []
  | last, c :: cs =>
    if last + pause ≤ c.time then c :: dueReads pause c.time cs else dueReads pause last cs

/-- From the last read to the first call, and from one call to the next, less than the range of the
clock minus the pause passes. -/
def CalledOften (pause now : Nat) (cs : List Call) : Prop :=
  (now :: cs.map (·.time)).IsChain fun t t' => t ≤ t' ∧ t' + pause < t + 2 ^ 32

variable {call : Call} {calls : List Call} {last now : Nat}

/-- The clock may have rolled over since the last read. -/
theorem early_iff (hlast : s.lastReadTime = UInt32.ofNat last) (hle : last ≤ call.time)
    (hlt : call.time < last + 2 ^ 32) :
    s.Early call.attempt ↔ ¬ last + s.model.pause.toNat ≤ call.time := by
  have hdiff : (call.attempt.now - UInt32.ofNat last).toNat = call.time - last := by
    rw [Call.attempt, UInt32.toNat_sub, UInt32.toNat_ofNat', UInt32.toNat_ofNat']
    omega
  rw [Sensor.Early, UInt32.lt_iff_toNat_lt, hlast, hdiff]
  omega

/-- The state after a run, from a last read that has not been longer ago than the pause when the
line was left alone. -/
theorem run_due (hlast : s.lastReadTime = UInt32.ofNat last) (hle : last ≤ now)
    (hnow : now ≤ last + s.model.pause.toNat)
    (hspaced : CalledOften s.model.pause.toNat now calls) :
    ((run callStep s calls).humidity, (run callStep s calls).temperature) =
        (dueReads s.model.pause.toNat last calls).getLast?.elim (s.humidity, s.temperature)
          (fun c => s.model.shows c.wave) ∧
      (run callStep s calls).lastReadTime =
        UInt32.ofNat ((dueReads s.model.pause.toNat last calls).getLast?.elim last (·.time)) := by
  induction calls generalizing s last now with
  | nil => exact ⟨rfl, hlast⟩
  | cons call calls ih =>
    obtain ⟨⟨hcall, hcall'⟩, hspaced⟩ := List.isChain_cons_cons.mp hspaced
    dsimp only at hcall hcall'
    have hle' : last ≤ call.time := Nat.le_trans hle hcall
    have hrange : call.time < last + 2 ^ 32 := by omega
    have hearly := early_iff hlast hle' hrange
    rw [run_cons, dueReads]
    split
    case isTrue hdue =>
      have hread : ¬ s.Early call.attempt := fun h => hearly.mp h hdue
      have hmodel : (callStep s call).model = s.model := readSensor_model
      have hlast' : (callStep s call).lastReadTime = UInt32.ofNat call.time :=
        readSensor_lastReadTime hread
      have hshows : ((callStep s call).humidity, (callStep s call).temperature) =
          s.model.shows call.wave := readSensor_shows hread
      obtain ⟨hvalues, htime⟩ := ih hlast' (Nat.le_refl _) (Nat.le_add_right _ _)
        (by rw [hmodel]; exact hspaced)
      rw [hvalues, htime, hmodel, hshows, List.getLast?_cons]
      cases (dueReads s.model.pause.toNat call.time calls).getLast? <;> exact ⟨rfl, rfl⟩
    case isFalse hdue =>
      have hsame : callStep s call = s := readSensor_early (hearly.mpr hdue)
      have hnow' : call.time ≤ last + s.model.pause.toNat := Nat.le_of_not_le hdue
      rw [hsame]
      exact ih hlast hle' hnow' hspaced

end

/-! ### Frames -/

/-- The check byte of a frame. -/
def Frame.Valid (f : Frame) : Prop :=
  f.humidityHigh + f.humidityLow + f.temperatureHigh + f.temperatureLow = f.checksum

/-- The number of bytes that differ. -/
def Frame.wrong (f g : Frame) : Nat := (f.bytes.zip g.bytes).countP fun p => p.1 ≠ p.2

section
variable {f g : Frame} {hi lo : UInt8} {n : UInt16}

theorem toNat_word :
    (UInt16.ofNat (hi.toNat * 256 + lo.toNat)).toNat = hi.toNat * 256 + lo.toNat := by
  have := hi.toNat_lt
  have := lo.toNat_lt
  rw [UInt16.toNat_ofNat']
  omega

theorem low_word : (UInt16.ofNat (hi.toNat * 256 + lo.toNat)).toUInt8.toNat = lo.toNat := by
  have := lo.toNat_lt
  rw [UInt16.toNat_toUInt8, toNat_word]
  omega

theorem high_word : (UInt16.ofNat (hi.toNat * 256 + lo.toNat) >>> 8).toNat = hi.toNat := by
  have hshift : (8 : UInt16).toNat % 16 = 8 := rfl
  have := lo.toNat_lt
  rw [UInt16.toNat_shiftRight, hshift, Nat.shiftRight_eq_div_pow, toNat_word]
  omega

theorem sum_registers : f.registers.sum = f.registers.data.toNat ↔ f.Valid := by
  have hdata : (UInt16.ofNat f.checksum.toNat).toNat = f.checksum.toNat := by
    have := f.checksum.toNat_lt
    rw [UInt16.toNat_ofNat']
    omega
  unfold Registers.sum Frame.registers Frame.Valid
  dsimp only
  rw [low_word, low_word, high_word, high_word, hdata, ← UInt8.toNat_inj]
  simp only [UInt8.toNat_add]
  omega

/-- One wrong byte changes the sum or the check byte, but not both. -/
theorem not_valid_of_wrong (h : f.Valid) (hone : f.wrong g = 1) : ¬ g.Valid := by
  obtain ⟨a, b, c, d, e⟩ := f
  obtain ⟨a', b', c', d', e'⟩ := g
  intro h'
  simp only [Frame.wrong, Frame.bytes, List.zip_cons_cons, List.zip_nil_right, List.countP_cons,
    List.countP_nil, decide_eq_true_eq] at hone
  simp only [Frame.Valid] at h h'
  grind

end

/-! ### Samples -/

/-- What a `DHT22` measures, in tenths. -/
structure Sample where
  humidity : Int
  temperature : Int
  humidity_range : 0 ≤ humidity ∧ humidity ≤ 1000
  temperature_range : -400 ≤ temperature ∧ temperature ≤ 1250

namespace Sample

/-- The sign of the temperature is its highest bit. -/
def temperatureWord (x : Sample) : Nat :=
  x.temperature.natAbs + (if x.temperature < 0 then 0x8000 else 0)

def frame (x : Sample) : Frame :=
  let humidityHigh := UInt8.ofNat (x.humidity.toNat / 256)
  let humidityLow := UInt8.ofNat (x.humidity.toNat % 256)
  let temperatureHigh := UInt8.ofNat (x.temperatureWord / 256)
  let temperatureLow := UInt8.ofNat (x.temperatureWord % 256)
  { humidityHigh, humidityLow, temperatureHigh, temperatureLow
    checksum := humidityHigh + humidityLow + temperatureHigh + temperatureLow }

variable {x : Sample} {s : Sensor} {a : Attempt} {g : Frame} {n : Nat}

theorem frame_valid : x.frame.Valid := rfl

theorem word_split (h : n < 2 ^ 16) :
    UInt16.ofNat ((UInt8.ofNat (n / 256)).toNat * 256 + (UInt8.ofNat (n % 256)).toNat) =
      UInt16.ofNat n := by
  rw [UInt8.toNat_ofNat', UInt8.toNat_ofNat']
  congr 1
  omega

theorem temperatureWord_lt : x.temperatureWord < 2 ^ 16 := by
  obtain ⟨hlow, hhigh⟩ := x.temperature_range
  unfold temperatureWord
  split <;> omega

/-- The highest bit and the others of a word. -/
theorem and_sign {n : UInt16} : n &&& 0x8000 ≠ 0 ↔ 2 ^ 15 ≤ n.toNat := by
  have hbit : (0x8000 : UInt16).toNat = 2 ^ 15 := rfl
  rw [ne_eq, ← UInt16.toNat_inj, UInt16.toNat_and, hbit, UInt16.toNat_zero]
  exact BitStream.and_two_pow_ne_zero n.toNat_lt

theorem toNat_magnitude {n : UInt16} : (n &&& 0x7FFF).toNat = n.toNat % 2 ^ 15 := by
  have hmask : (0x7FFF : UInt16).toNat = 2 ^ 15 - 1 := rfl
  rw [UInt16.toNat_and, hmask, Nat.and_two_pow_sub_one_eq_mod]

theorem toInt_toInt16 {n : UInt16} :
    n.toInt16.toInt = if n.toNat < 2 ^ 15 then (n.toNat : Int) else n.toNat - 2 ^ 16 := by
  have hcond : n.toInt16.toInt = n.toBitVec.toInt := rfl
  have hnat : n.toBitVec.toNat = n.toNat := rfl
  rw [hcond, BitVec.toInt_eq_toNat_cond, hnat]
  split <;> split <;> omega

theorem readings_frame :
    x.frame.registers.readings .dht22 = (x.humidity, x.temperature) := by
  obtain ⟨hlow, hhigh⟩ := x.humidity_range
  obtain ⟨tlow, thigh⟩ := x.temperature_range
  have hhum : x.frame.registers.rawHumidity = UInt16.ofNat x.humidity.toNat := word_split (by omega)
  have htemp : x.frame.registers.rawTemperature = UInt16.ofNat x.temperatureWord :=
    word_split x.temperatureWord_lt
  have hword : (UInt16.ofNat x.temperatureWord).toNat = x.temperatureWord := by
    rw [UInt16.toNat_ofNat', Nat.mod_eq_of_lt x.temperatureWord_lt]
  have hhumidity : ((UInt16.ofNat x.humidity.toNat).toNat : Int) = x.humidity := by
    rw [UInt16.toNat_ofNat']
    omega
  have hsign : UInt16.ofNat x.temperatureWord &&& 0x8000 ≠ 0 ↔ x.temperature < 0 := by
    rw [and_sign, hword, temperatureWord]
    split <;> omega
  unfold Registers.readings
  dsimp only
  rw [hhum, htemp, hhumidity]
  congr 1
  rw [toInt_toInt16]
  split
  case isTrue h =>
    have hneg : x.temperature < 0 := hsign.mp h
    have hmag : (UInt16.ofNat x.temperatureWord &&& 0x7FFF).toNat = x.temperature.natAbs := by
      rw [toNat_magnitude, hword, temperatureWord, if_pos hneg]
      omega
    have hsize : UInt16.size = 2 ^ 16 := rfl
    rw [UInt16.toNat_neg, hmag, hsize]
    split <;> omega
  case isFalse h =>
    have hpos : ¬ x.temperature < 0 := fun hneg => h (hsign.mpr hneg)
    have hmag : x.temperatureWord = x.temperature.natAbs := by
      rw [temperatureWord, if_neg hpos, Nat.add_zero]
    rw [hword, hmag]
    split <;> omega

/-- A sample that the sensor sends is read as it is, whatever the waits on the line. -/
theorem readSensor_sample (hmodel : s.model = .dht22) (h : ¬ s.Early a)
    (hw : a.wave.Carries x.frame.bits) : readSensor s a =
      { s with lastReadTime := a.now, humidity := some x.humidity,
               temperature := some x.temperature, error := .none } := by
  apply (if_neg h).trans
  rw [edges_carries hw]
  dsimp only
  rw [if_neg (not_not_intro (sum_registers.mpr x.frame_valid)), hmodel, readings_frame]

/-- A frame with one wrong byte gives no reading. -/
theorem readSensor_damaged (h : ¬ s.Early a) (hg : x.frame.wrong g = 1)
    (hw : a.wave.Carries g.bits) : readSensor s a =
      { s with lastReadTime := a.now, humidity := none,
               temperature := none, error := .checksum } := by
  have hinvalid : ¬ g.Valid := not_valid_of_wrong x.frame_valid hg
  apply (if_neg h).trans
  rw [edges_carries hw]
  dsimp only
  rw [if_pos fun hsum => hinvalid (sum_registers.mp hsum)]

end Sample

end D1Mini.Dht
