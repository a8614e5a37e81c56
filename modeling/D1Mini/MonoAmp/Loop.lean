import D1Mini.MonoAmp.Sketch

/-!
# Whole iterations of the sound box

`Device.setup` and `Device.loop` are `setup()` and one iteration of `loop()` as functions of the
state and of what the calls return. `Device.runs_setup` and `Device.runs_loop` show that executing
the statements one by one computes them, the blinking included, when no reset intervenes.
-/

namespace D1Mini
open EventMachine

namespace Device

/-- `setup()` from power-up on. -/
def setup (s : Device) : Device :=
  let m := s.eeprom.lose.begin
  let sleep := m.get (-1)
  { s with
    pc := .loopStart, eeprom := m, go := false, stopped := false, i := 0
    sleep := if sleep < 1 ∨ sleep > 15 then 1 else sleep }

/-- The audio part of `loop()`. -/
def playAudio (s : Device) (inp : Input) : Device :=
  if inp.running ∧ ¬ s.stopped then
    if ¬ inp.playing then { s with stopped := true, go := false, pc := .ifPressed }
    else { s with go := true, pc := .ifPressed }
  else { s with go := false, pc := .ifPressed }

/-- The button part of `loop()`. It stops the sound, but leaves `go` as it is. -/
def readButton (s : Device) (inp : Input) : Device :=
  if inp.btn = .low then
    let sleep := advanced s.sleep
    { s with
      sleep, eeprom := (s.eeprom.put sleep).commit, commits := s.commits + 1
      stopped := true, i := sleep, pc := .ifSleep }
  else { s with pc := .ifSleep }

/-- The last part of `loop()`, which calls `ESP.deepSleep` or returns. -/
def sleepOrReturn (k : Sketch) (s : Device) (inp : Input) : Device :=
  if inp.millis > k.playLimit ∨ s.go = false then
    { s with slept := s.slept ++ [(s.commits, micros s.sleep)], pc := .off }
  else { s with pc := .loopStart }

/-- One iteration of `loop()`; it ends with the device off if it called `ESP.deepSleep`. -/
def loop (k : Sketch) (s : Device) (inp : Input) : Device :=
  ((s.playAudio inp).readButton inp).sleepOrReturn k inp

/-- Executing statements, each with the same inputs and without a reset, leads from `s` to `t`. -/
def Runs (k : Sketch) (inp : Input) (s t : Device) : Prop := Leads (step k) (.exec inp) s t

section
variable {k : Sketch} {inp : Input} {s t u : Device}

theorem Runs.refl : Runs k inp s s := Leads.refl

theorem Runs.trans (h : Runs k inp s t) (h' : Runs k inp t u) : Runs k inp s u := Leads.trans h h'

theorem Runs.head (h : Runs k inp (s.exec k inp) t) : Runs k inp s t := Leads.head h

theorem runs_setup (h : s.pc = .off) : Runs k inp s s.setup := by
  refine .head <| .head <| .head <| .head <| .head ?_
  simp only [exec, h, setup]
  split
  · exact .head .refl
  · exact .refl

theorem runs_playAudio (h : s.pc = .loopStart) : Runs k inp s (s.playAudio inp) := by
  refine .head <| .head ?_
  simp only [exec, h, playAudio]
  split
  · refine .head <| .head ?_
    simp only [exec]
    split
    · exact .head <| .head .refl
    · exact .refl
  · exact .refl

theorem toInt_succ {i n : Int32} (h : i < n) : (i + 1).toInt = i.toInt + 1 := by
  have hn := n.toInt_lt
  have hi := i.le_toInt
  rw [Int32.lt_iff_toInt_lt] at h
  have h1 : (1 : Int32).toInt = 1 := rfl
  rw [Int32.toInt_add, h1]
  exact Int.bmod_eq_of_le (by omega) (by omega)

/-- The `for` loop blinks until `i` is `sleep`; the induction is on the blinks that remain. -/
theorem runs_blink (h : s.pc = .forBlink) (hi : s.i ≤ s.sleep) :
    Runs k inp s { s with i := s.sleep, pc := .ledOff } := by
  generalize hn : (s.sleep.toInt - s.i.toInt).toNat = n
  rw [Int32.le_iff_toInt_le] at hi
  induction n generalizing s with
  | zero =>
    have he : s.i = s.sleep := Int32.toInt_inj.mp (by omega)
    refine .head ?_
    simp only [exec, h, he, Int32.lt_irrefl, if_false]
    exact .refl
  | succ n ih =>
    have hlt : s.i < s.sleep := Int32.lt_iff_toInt_lt.mpr (by omega)
    have hs := toInt_succ hlt
    refine .head <| .head ?_
    simp only [exec, h, if_pos hlt]
    exact ih rfl (by simp only; omega) (by simp only; omega)

theorem advanced_pos (x : Int32) : 0 ≤ advanced x := by
  unfold advanced
  repeat' split
  all_goals decide

theorem runs_readButton (h : s.pc = .ifPressed) : Runs k inp s (s.readButton inp) := by
  refine .head ?_
  simp only [exec, h, readButton]
  split
  · refine .head <| .head <| .head <| .head <| .head <| .head ?_
    simp only [exec]
    refine (runs_blink ?_ ?_).trans (.head ?_)
    · rfl
    · exact advanced_pos _
    · simp only [exec]
      exact .refl
  · exact .refl

theorem runs_sleepOrReturn (h : s.pc = .ifSleep) : Runs k inp s (s.sleepOrReturn k inp) := by
  refine .head ?_
  simp only [exec, h, sleepOrReturn]
  split
  · exact .head <| .head .refl
  · exact .refl

theorem playAudio_pc : (s.playAudio inp).pc = .ifPressed := by
  unfold playAudio; repeat' split
  all_goals rfl

theorem readButton_pc : (s.readButton inp).pc = .ifSleep := by
  unfold readButton; split <;> rfl

/-- The statements of an iteration compute `loop`. -/
theorem runs_loop (h : s.pc = .loopStart) : Runs k inp s (s.loop k inp) :=
  (runs_playAudio h).trans <| (runs_readButton playAudio_pc).trans <|
    runs_sleepOrReturn readButton_pc

end

end Device

end D1Mini
