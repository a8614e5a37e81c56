import D1Mini.Lib.EventMachine
import D1Mini.Arduino.Eeprom

/-!
# The sound box: `test_monoamp_i2s.ino` and `test_monoamp_mp3.ino`

Each boot plays a sound and then sleeps for `sleep` minutes; a press of the button moves `sleep` to
the next of the offered intervals and stores it. The two sketches differ in the audio generator and
in how long they play.

`Device.step` executes one statement of `setup()` or `loop()`, or resets the device, so that a reset
may strike between any two statements.

Pins are outputs that no statement reads back; a statement that only drives them is folded into the
next one. `delay` lets time pass, and the clock is an input of the model.
-/

namespace D1Mini
open EventMachine

inductive Sketch
  | i2s | mp3
deriving DecidableEq, Repr

/-- The `millis()` after which the sketch stops playing. -/
def Sketch.playLimit : Sketch → UInt32
  | i2s => 5000
  | mp3 => 20000

namespace Device

/-- The next statement of the sketch; `wav` stands for `mp3` in the other one. -/
inductive Pc
  | off           -- no power, in reset, or in deep sleep
  -- setup()
  | eepromBegin   -- `EEPROM.begin(1);`
  | audioBegin    -- `wav->begin(file, stub);`
  | eepromGet     -- `EEPROM.get(0, sleep);`
  | ifInvalid     -- `if ((sleep < 1) || (sleep > 15))`
  | setDefault    -- `sleep = 1;`
  -- loop()
  | loopStart     -- `bool go = false;`
  | ifRunning     -- `if (wav->isRunning())`
  | setGo         -- `go = true;`
  | ifEnded       -- `if (!wav->loop())`
  | audioStop     -- `wav->stop(); stub->stop();`
  | clearGo       -- `go = false;`
  | ifPressed     -- `if (digitalRead(btn_input) == 0)`
  | advance       -- `if (sleep == 1) sleep = 2; else if ...`
  | eepromPut     -- `EEPROM.put(0, sleep);`
  | settle        -- `delay(10);`
  | eepromCommit  -- `EEPROM.commit();`
  | buttonStop    -- `wav->stop();`
  | ledOn         -- `delay(500); int i = 0;`
  | forBlink      -- `i < sleep`
  | blink         -- the two `delay(250);` and `i++`
  | ledOff        -- `pinMode(indicatorLED, INPUT);`
  | ifSleep       -- `if ((millis() > 5000) || (go == false))`
  | ampOff        -- `digitalWrite(amp_sd, LOW);`
  | deepSleep     -- `ESP.deepSleep(sleep * 60e6, RF_DISABLED);`
deriving DecidableEq, Repr

/-- What `digitalRead` returns; `low` is 0. -/
inductive Level
  | low | high
deriving DecidableEq, Repr

/-- What the calls of a statement return: `digitalRead(btn_input)`, whether the generator runs when
it has not been stopped, its `loop()`, and `millis()`. -/
structure Input where
  btn : Level
  running : Bool
  playing : Bool
  millis : UInt32
deriving DecidableEq, Repr

inductive Event
  | exec (inp : Input)
  | reset
deriving DecidableEq, Repr

end Device

/-- The device between two statements. `stopped` says that `stop()` was called, so that
`isRunning()` is false. Two fields are ghosts: `commits` counts the completed `EEPROM.commit` calls,
and `slept` lists the arguments of `ESP.deepSleep`, each with the commits before it. -/
structure Device where
  pc : Device.Pc
  eeprom : Eeprom
  sleep : Int32 := -1
  go : Bool := false
  stopped : Bool := true
  i : Int32 := 0
  commits : Nat := 0
  slept : List (Nat × Int) := []
deriving DecidableEq, Repr

namespace Device

/-- The chain of equality tests of the button branch. -/
def advanced (sleep : Int32) : Int32 :=
  if sleep = 1 then 2
  else if sleep = 2 then 5
  else if sleep = 5 then 10
  else if sleep = 10 then 15
  else 1

/-- `sleep * 60e6` microseconds. -/
def micros (sleep : Int32) : Int := sleep.toInt * 60000000

/-- One statement. A device that is off boots. -/
def exec (k : Sketch) (s : Device) (inp : Input) : Device :=
  match s.pc with
  | .off =>
    { s with
      pc := .eepromBegin, eeprom := s.eeprom.lose
      sleep := -1, go := false, stopped := true, i := 0 }
  | .eepromBegin => { s with eeprom := s.eeprom.begin, pc := .audioBegin }
  | .audioBegin => { s with stopped := false, pc := .eepromGet }
  | .eepromGet => { s with sleep := s.eeprom.get s.sleep, pc := .ifInvalid }
  | .ifInvalid =>
    if s.sleep < 1 ∨ s.sleep > 15 then { s with pc := .setDefault } else { s with pc := .loopStart }
  | .setDefault => { s with sleep := 1, pc := .loopStart }
  | .loopStart => { s with go := false, pc := .ifRunning }
  | .ifRunning =>
    if inp.running ∧ ¬ s.stopped then { s with pc := .setGo } else { s with pc := .ifPressed }
  | .setGo => { s with go := true, pc := .ifEnded }
  | .ifEnded => if ¬ inp.playing then { s with pc := .audioStop } else { s with pc := .ifPressed }
  | .audioStop => { s with stopped := true, pc := .clearGo }
  | .clearGo => { s with go := false, pc := .ifPressed }
  | .ifPressed => if inp.btn = .low then { s with pc := .advance } else { s with pc := .ifSleep }
  | .advance => { s with sleep := advanced s.sleep, pc := .eepromPut }
  | .eepromPut => { s with eeprom := s.eeprom.put s.sleep, pc := .settle }
  | .settle => { s with pc := .eepromCommit }
  | .eepromCommit =>
    { s with eeprom := s.eeprom.commit, commits := s.commits + 1, pc := .buttonStop }
  | .buttonStop => { s with stopped := true, pc := .ledOn }
  | .ledOn => { s with i := 0, pc := .forBlink }
  | .forBlink => if s.i < s.sleep then { s with pc := .blink } else { s with pc := .ledOff }
  | .blink => { s with i := s.i + 1, pc := .forBlink }
  | .ledOff => { s with pc := .ifSleep }
  | .ifSleep =>
    if inp.millis > k.playLimit ∨ s.go = false then { s with pc := .ampOff }
    else { s with pc := .loopStart }
  | .ampOff => { s with pc := .deepSleep }
  | .deepSleep => { s with slept := s.slept ++ [(s.commits, micros s.sleep)], pc := .off }

def step (k : Sketch) (s : Device) : Event → Device
  | .exec inp => s.exec k inp
  | .reset => { s with pc := .off, eeprom := s.eeprom.lose }

/-- A device with the word `flash` in its flash, before its first boot. -/
def unboxed (flash : Int32) : Device where
  pc := .off
  eeprom := { flash }

end Device

end D1Mini
