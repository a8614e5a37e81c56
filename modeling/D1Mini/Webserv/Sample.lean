import D1Mini.Dht.Sensor
import D1Mini.Webserv.Delivery
import D1Mini.Webserv.Timers

/-!
# From the sensor to the receiver

When its timer is due, `loop()` of `webserv.ino` takes the humidity and then the temperature from
the sensor, and publishes them. `sample_received_iff` follows a sample from the line of the sensor
to the receiver of the packet: what is lost is a humidity of 100 % at a temperature of three
characters.
-/

namespace D1Mini.Webserv
open Mqtt Dht Decimal WrapClock

/-- The sensor sends a sample when it is first asked for one, and is asked no later than it would
read again. -/
structure Sends (s : Dht.Sensor) (x : Sample) (a b c d : Attempt) : Prop where
  model : s.model = .dht22
  due : ¬ s.Early a
  frame : a.wave.Carries x.frame.bits
  soon : ∀ e ∈ [b, c, d], e.now - a.now < s.model.pause

/-- What `getHumidity()` and then `getTemperature()` return in an iteration, in hundredths. -/
def Input.Measures (inp : Input) (s : Dht.Sensor) (a b c d : Attempt) : Prop :=
  (getHumidity s a b).1.map (10 * ·) = some inp.humidity ∧
    (getTemperature (getHumidity s a b).2 c d).1.map (10 * ·) = some inp.temperature

/-- The call of `publish_mqtt` for a sample. -/
def sampleReading (x : Sample) : Reading where
  idx := aioIdx
  temp := 10 * x.temperature
  humidity := if 0 < x.humidity then some (10 * x.humidity) else none
  idx_nonneg := by decide
  temp_range := by
    have := x.temperature_range
    omega
  humidity_range := by
    intro h hh
    have := x.humidity_range
    split at hh
    · cases hh
      omega
    · cases hh

variable {clock : Nat → Nat} {s' : State} {inp : Input} {inps : List Input} {pass : Pass}
variable {passes : List Pass} {n : Nat} {x : Sample} {s : Dht.Sensor} {a b c d : Attempt}
variable {published : Bool}

theorem Sends.measures (H : Sends s x a b c d) (h : inp.Measures s a b c d) :
    inp.humidity = 10 * x.humidity ∧ inp.temperature = 10 * x.temperature := by
  have hsoon := H.soon
  simp only [List.forall_mem_cons] at hsoon
  obtain ⟨hb, hc, hd, -⟩ := hsoon
  obtain ⟨hh, ht⟩ := h
  rw [getTemperature_once H.due hb hc hd, Sample.readSensor_sample H.model H.due H.frame] at ht
  rw [getHumidity_once H.due hb, Sample.readSensor_sample H.model H.due H.frame] at hh
  exact ⟨(Option.some.inj hh).symm, (Option.some.inj ht).symm⟩

/-- A humidity of zero makes no difference to one that is omitted. -/
theorem publishMqtt_sample :
    publishMqtt published aioIdx (10 * x.temperature) (10 * x.humidity) =
      (sampleReading x).publish published := by
  unfold Reading.publish sampleReading
  dsimp only
  rcases Int.lt_or_le 0 x.humidity with h | h
  · rw [if_pos h]
  · rw [if_neg (Int.not_lt.mpr h)]
    have hzero : ¬ 10 * x.humidity > 0 := by omega
    have hdefault : ¬ (-100 : Int) > 0 := by decide
    unfold publishMqtt debugText disTempDht
    simp only [if_neg hzero, if_neg hdefault]

/-- When the timer is due, the message is that of the sample. -/
theorem run_sample (hclock : Monotone clock) (hrun : runLoop clock {} inps = some (s', passes))
    (hs : ∀ sensor, Spaced (2 ^ 32) 60000 (passes.map (Pass.poll sensor)))
    (hinp : inp ∈ inps[n]?) (hpass : pass ∈ passes[n]?)
    (hdue : (timersAt clock n .dht).Due clock 60000 .dht)
    (H : Sends s x a b c d) (h : inp.Measures s a b c d) :
    pass.dht.published = some ((sampleReading x).publish inp.publishedDht) := by
  have hbranch : pass.dht = _ := (run_follows hclock hrun hs).2 n inp hinp pass hpass .dht
  obtain ⟨hh, ht⟩ := H.measures h
  rw [hbranch, branchOf, if_pos hdue, Input.publication, hh, ht, publishMqtt_sample]

theorem numDigits_aioIdx : numDigits aioIdx.toInt.natAbs = 2 := by
  have hle : numDigits 43 ≤ 2 := (numDigits_le_iff (by decide)).mpr (by decide)
  have hgt : ¬ numDigits 43 ≤ 1 := fun h => absurd ((numDigits_le_iff (by decide)).mp h) (by decide)
  exact Nat.le_antisymm hle (Nat.not_le.mp hgt)

theorem wholeWidth_temperature : wholeWidth 2 (10 * x.temperature) ≤ 3 ∧
    (wholeWidth 2 (10 * x.temperature) ≤ 2 ↔ -100 < x.temperature ∧ x.temperature < 1000) := by
  obtain ⟨hlow, hhigh⟩ := x.temperature_range
  have hone : numDigits ((10 * x.temperature).natAbs / 10 ^ 2) ≤ 1 ↔
      (10 * x.temperature).natAbs / 10 ^ 2 < 10 := numDigits_le_iff (by decide)
  have htwo : numDigits ((10 * x.temperature).natAbs / 10 ^ 2) ≤ 2 ↔
      (10 * x.temperature).natAbs / 10 ^ 2 < 100 := numDigits_le_iff (by decide)
  have hthree : numDigits ((10 * x.temperature).natAbs / 10 ^ 2) ≤ 3 ↔
      (10 * x.temperature).natAbs / 10 ^ 2 < 1000 := numDigits_le_iff (by decide)
  unfold wholeWidth
  split <;> omega

theorem wholeWidth_humidity : wholeWidth 2 (10 * x.humidity) ≤ 3 ∧
    (wholeWidth 2 (10 * x.humidity) ≤ 2 ↔ x.humidity < 1000) := by
  obtain ⟨hlow, hhigh⟩ := x.humidity_range
  have htwo : numDigits ((10 * x.humidity).natAbs / 10 ^ 2) ≤ 2 ↔
      (10 * x.humidity).natAbs / 10 ^ 2 < 100 := numDigits_le_iff (by decide)
  have hthree : numDigits ((10 * x.humidity).natAbs / 10 ^ 2) ≤ 3 ↔
      (10 * x.humidity).natAbs / 10 ^ 2 < 1000 := numDigits_le_iff (by decide)
  unfold wholeWidth
  split <;> omega

theorem sampleReading_fits : (sampleReading x).Fits ↔
    ¬ (x.humidity = 1000 ∧ (x.temperature ≤ -100 ∨ 1000 ≤ x.temperature)) := by
  obtain ⟨ht, ht'⟩ := wholeWidth_temperature (x := x)
  obtain ⟨hh, hh'⟩ := wholeWidth_humidity (x := x)
  have hhigh := x.humidity_range.2
  rcases Int.lt_or_le 0 x.humidity with hpos | hzero
  · have hhum : (sampleReading x).humidity = some (10 * x.humidity) := if_pos hpos
    have hidx : numDigits (sampleReading x).idx.toInt.natAbs = 2 := numDigits_aioIdx
    have htemp : (sampleReading x).temp = 10 * x.temperature := rfl
    rw [Reading.Fits, hhum, hidx, htemp]
    simp only [Option.mem_some_iff, forall_eq']
    omega
  · have hhum : (sampleReading x).humidity = none := if_neg (Int.not_lt.mpr hzero)
    rw [Reading.Fits, hhum]
    apply iff_of_true
    · intro h hh
      cases hh
    · intro hsat
      omega

end D1Mini.Webserv
