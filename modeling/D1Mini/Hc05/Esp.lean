import D1Mini.Lib.EventMachine
import D1Mini.Arduino.Port

/-!
# The serial bridge `hc-05_esp.ino`

`readSerialPort()` collects what arrives on `Serial` into the global `msg`, and `loop()` passes it
to `hc05.println` when `msg != ""`; one byte of `hc05` is copied back to `Serial`. The model takes
one statement a step, so that bytes arrive at either port at any time, also during `delay(10)`.

The comparison `msg != ""` is one of C strings. A message that begins with a zero byte compares
equal to `""` and is dropped: `Esp.delivered_iff` shows that nothing else is ever lost.
-/

namespace D1Mini
open EventMachine

namespace Esp

/-- The next statement of the sketch. -/
inductive Pc
  | clear        -- `msg = "";`
  | whileSerial  -- `while (Serial.available())`
  | delay        -- `delay(10);`
  | ifSerial     -- `if (Serial.available() > 0)`
  | readSerial   -- `char c = Serial.read();`
  | append (c : UInt8)  -- `msg += c;`
  | ifMsg        -- `if (msg != "")`
  | println      -- `hc05.println(msg);`
  | ifHc05       -- `if (hc05.available() > 0)`
  | writeSerial  -- `Serial.write(hc05.read());`
deriving DecidableEq, Repr

inductive Event
  | arriveSerial (b : UInt8)
  | arriveHc05 (b : UInt8)
  | exec
deriving DecidableEq, Repr

end Esp

/-- The sketch between two statements. Three fields are ghosts: `burst` is what the current call of
`readSerialPort` has consumed, `bursts` what each earlier call did, and `sent` the messages passed
to `hc05.println`. -/
structure Esp where
  pc : Esp.Pc := .clear
  serial : Port UInt8 := {}
  hc05 : Port UInt8 := {}
  msg : List UInt8 := []
  burst : List UInt8 := []
  bursts : List (List UInt8) := []
  sent : List (List UInt8) := []
deriving DecidableEq, Repr

namespace Esp

/-- The C string in a `String`'s buffer, up to the first zero byte. -/
def cStr (s : List UInt8) : List UInt8 := s.takeWhile (· ≠ 0)

/-- One statement of `loop()` and of `readSerialPort()`. -/
def exec (s : Esp) : Esp :=
  match s.pc with
  | .clear => { s with msg := [], pc := .whileSerial }
  | .whileSerial =>
    if s.serial.available ≠ 0 then { s with pc := .delay } else { s with pc := .ifMsg }
  | .delay => { s with pc := .ifSerial }
  | .ifSerial =>
    if 0 < s.serial.available then { s with pc := .readSerial } else { s with pc := .whileSerial }
  | .readSerial =>
    let r := s.serial.read
    { s with
      serial := r.2, burst := s.burst ++ s.serial.unread.take 1, pc := .append (UInt8.ofInt r.1) }
  | .append c => { s with msg := s.msg ++ [c], pc := .whileSerial }
  | .ifMsg =>
    if cStr s.msg ≠ [] then { s with pc := .println }
    else { s with bursts := s.bursts ++ [s.burst], burst := [], pc := .ifHc05 }
  | .println =>
    { s with
      hc05 := s.hc05.print (s.msg ++ [13, 10]), sent := s.sent ++ [s.msg]
      bursts := s.bursts ++ [s.burst], burst := [], pc := .ifHc05 }
  | .ifHc05 =>
    if 0 < s.hc05.available then { s with pc := .writeSerial } else { s with pc := .clear }
  | .writeSerial =>
    let r := s.hc05.read
    { s with hc05 := r.2, serial := s.serial.write (UInt8.ofInt r.1), pc := .clear }

def step (s : Esp) : Event → Esp
  | .arriveSerial b => { s with serial := s.serial.receive b }
  | .arriveHc05 b => { s with hc05 := s.hc05.receive b }
  | .exec => s.exec

/-! ### The invariant -/

/-- What `msg` has to do with the bytes consumed by the current call. -/
def MsgOk (s : Esp) : Prop :=
  match s.pc with
  | .clear | .ifHc05 | .writeSerial => s.burst = []
  | .whileSerial | .delay | .ifSerial | .readSerial | .ifMsg => s.burst = s.msg
  | .append c => s.burst = s.msg ++ [c]
  | .println => s.burst = s.msg ∧ cStr s.msg ≠ []

structure Inv (s : Esp) : Prop where
  msg : s.MsgOk
  stream : s.serial.consumed = s.bursts.flatten ++ s.burst
  sent : s.sent = s.bursts.filter (cStr · ≠ [])
  out : s.hc05.log = (s.sent.map (· ++ [13, 10])).flatten
  back : s.serial.log = s.hc05.consumed
  serial : s.pc = .readSerial → s.serial.unread ≠ []
  hc05 : s.pc = .writeSerial → s.hc05.unread ≠ []

theorem inv_start : Inv {} := by
  constructor <;> simp [MsgOk]

theorem inv_exec (s : Esp) (H : s.Inv) : s.exec.Inv := by
  have hm := H.msg
  cases hpc : s.pc with
  | clear =>
    simp only [MsgOk, hpc] at hm
    simp only [exec, hpc]
    exact { H with msg := hm, serial := nofun, hc05 := nofun }
  | whileSerial =>
    simp only [MsgOk, hpc] at hm
    simp only [exec, hpc]
    split
    · exact { H with msg := hm, serial := nofun, hc05 := nofun }
    · exact { H with msg := hm, serial := nofun, hc05 := nofun }
  | delay =>
    simp only [MsgOk, hpc] at hm
    simp only [exec, hpc]
    exact { H with msg := hm, serial := nofun, hc05 := nofun }
  | ifSerial =>
    simp only [MsgOk, hpc] at hm
    simp only [exec, hpc]
    split <;> rename_i hav
    · exact { H with msg := hm, serial := fun _ => List.ne_nil_of_length_pos hav, hc05 := nofun }
    · exact { H with msg := hm, serial := nofun, hc05 := nofun }
  | readSerial =>
    obtain ⟨b, bs, hu⟩ := List.exists_cons_of_ne_nil (H.serial hpc)
    simp only [MsgOk, hpc] at hm
    simp only [exec, hpc, Port.read_of_cons _ hu, hu]
    exact { H with
      msg := by simp [MsgOk, hm]
      stream := by simp [H.stream]
      serial := nofun, hc05 := nofun }
  | append c =>
    simp only [MsgOk, hpc] at hm
    simp only [exec, hpc]
    exact { H with msg := hm, serial := nofun, hc05 := nofun }
  | ifMsg =>
    simp only [MsgOk, hpc] at hm
    simp only [exec, hpc]
    split <;> rename_i hc
    · exact { H with msg := ⟨hm, hc⟩, serial := nofun, hc05 := nofun }
    · exact { H with
        msg := rfl
        stream := by simp [H.stream]
        sent := by rw [H.sent, hm, List.filter_append]; simp [hc]
        serial := nofun, hc05 := nofun }
  | println =>
    simp only [MsgOk, hpc] at hm
    simp only [exec, hpc]
    exact { H with
      msg := rfl
      stream := by simp [H.stream]
      sent := by rw [H.sent, hm.1, List.filter_append]; simp [hm.2]
      out := by simp [H.out]
      serial := nofun, hc05 := nofun }
  | ifHc05 =>
    simp only [MsgOk, hpc] at hm
    simp only [exec, hpc]
    split <;> rename_i hav
    · exact { H with msg := hm, serial := nofun, hc05 := fun _ => List.ne_nil_of_length_pos hav }
    · exact { H with msg := hm, serial := nofun, hc05 := nofun }
  | writeSerial =>
    obtain ⟨b, bs, hu⟩ := List.exists_cons_of_ne_nil (H.hc05 hpc)
    simp only [MsgOk, hpc] at hm
    simp only [exec, hpc, Port.read_of_cons _ hu]
    exact { H with
      msg := hm
      back := by simp [H.back]
      serial := nofun, hc05 := nofun }

theorem inv_step (s : Esp) (e : Event) (H : s.Inv) : (s.step e).Inv := by
  cases e with
  | arriveSerial b => exact { H with serial := fun h => by simp [step, H.serial h] }
  | arriveHc05 b => exact { H with hc05 := fun h => by simp [step, H.hc05 h] }
  | exec => exact inv_exec s H

theorem inv_run (es : List Event) : (run step {} es).Inv := run_invariant inv_step inv_start

/-! ### Zero bytes -/

/-- The first byte a call of `readSerialPort()` reads is not zero. -/
def NoLeadingZero (s : Esp) (e : Event) : Prop :=
  e = .exec → s.pc = .readSerial → s.msg = [] → s.serial.unread.head? ≠ some 0

instance (s : Esp) (e : Event) : Decidable (s.NoLeadingZero e) :=
  inferInstanceAs (Decidable (e = .exec → s.pc = .readSerial → s.msg = [] →
    s.serial.unread.head? ≠ some 0))

/-- No call so far has consumed a zero byte first. -/
def NoZeroBurst (s : Esp) : Prop := ∀ b ∈ s.burst :: s.bursts, b.head? ≠ some 0

theorem noZeroBurst_exec (s : Esp) (H : s.Inv) :
    s.exec.NoZeroBurst ↔ s.NoZeroBurst ∧ s.NoLeadingZero .exec := by
  have hm := H.msg
  cases hpc : s.pc with
  | clear | delay | append c => simp [NoZeroBurst, NoLeadingZero, exec, hpc]
  | whileSerial | ifSerial | ifHc05 =>
    simp only [NoZeroBurst, NoLeadingZero, exec, hpc]
    split <;> simp
  | readSerial =>
    obtain ⟨b, bs, hu⟩ := List.exists_cons_of_ne_nil (H.serial hpc)
    simp only [MsgOk, hpc] at hm
    simp only [NoZeroBurst, NoLeadingZero, exec, hpc, hu, ← hm]
    cases h : s.burst <;> simp [and_comm]
  | ifMsg =>
    simp only [NoZeroBurst, NoLeadingZero, exec, hpc]
    split
    · simp
    · simp [or_imp, forall_and, and_comm]
  | println =>
    simp [NoZeroBurst, NoLeadingZero, exec, hpc, or_imp, forall_and, and_comm]
  | writeSerial => simp [NoZeroBurst, NoLeadingZero, exec, hpc]

theorem noZeroBurst_step (s : Esp) (e : Event) (H : s.Inv) :
    (s.step e).NoZeroBurst ↔ s.NoZeroBurst ∧ s.NoLeadingZero e := by
  cases e with
  | arriveSerial b | arriveHc05 b => simp [NoZeroBurst, NoLeadingZero, step]
  | exec => exact noZeroBurst_exec s H

/-! ### What the sketch is for -/

/-- The messages sent to `hc05` are what was consumed from `Serial`, each of them the bytes of one
call of `readSerialPort()`. `hc05` gets each with the end of a line, and `Serial` gets what was
consumed from `hc05`. -/
structure Delivered (s : Esp) : Prop where
  complete : s.sent.flatten = s.serial.consumed
  nonempty : ∀ m ∈ s.sent, m ≠ []
  once : s.sent.Sublist s.bursts
  out : s.hc05.log = (s.sent.map (· ++ [13, 10])).flatten
  back : s.serial.log = s.hc05.consumed

/-- A message is dropped exactly when it is empty or begins with a zero byte. -/
theorem cStr_eq_nil : cStr b = [] ↔ b = [] ∨ b.head? = some 0 := by
  cases b with
  | nil => simp [cStr]
  | cons c b => by_cases h : c = 0 <;> simp [cStr, h]

theorem length_flatten_filter_le {p : List α → Bool} {l : List (List α)} :
    (l.filter p).flatten.length ≤ l.flatten.length := by
  induction l with
  | nil => exact Nat.le_refl _
  | cons b l ih =>
    rw [List.filter_cons]
    split <;> simp only [List.flatten_cons, List.length_append] <;> omega

/-- Dropping lists keeps the concatenation only if the lists are empty. -/
theorem flatten_filter_eq {p : List α → Bool} {l : List (List α)} :
    (l.filter p).flatten = l.flatten ↔ ∀ b ∈ l, p b = false → b = [] := by
  induction l with
  | nil => simp
  | cons b l ih =>
    rw [List.forall_mem_cons, ← ih, List.filter_cons]
    cases hp : p b with
    | true => simp
    | false =>
      simp only [Bool.false_eq_true, if_false, List.flatten_cons, forall_const]
      refine ⟨fun h => ?_, fun h => by rw [h.1, h.2, List.nil_append]⟩
      have hle := length_flatten_filter_le (p := p) (l := l)
      have hb : b = [] := List.eq_nil_of_length_eq_zero (by
        rw [h, List.length_append] at hle; omega)
      exact ⟨hb, by rw [h, hb, List.nil_append]⟩

/-- Every byte consumed from `Serial` is sent exactly when no call consumed a zero byte first. -/
theorem sent_complete_iff {s : Esp} (H : s.Inv) (h : s.burst = []) :
    s.sent.flatten = s.serial.consumed ↔ s.NoZeroBurst := by
  rw [H.sent, H.stream, h, List.append_nil, flatten_filter_eq, NoZeroBurst, h, List.forall_mem_cons]
  simp only [List.head?_nil, ne_eq, reduceCtorEq, not_false_eq_true, true_and,
    decide_eq_false_iff_not, Decidable.not_not, cStr_eq_nil]
  refine forall₂_congr fun b _ => ⟨fun hb h0 => ?_, fun hb h => h.elim id fun h0 => (hb h0).elim⟩
  rw [hb (.inr h0)] at h0
  cases h0

theorem delivered_iff_complete {s : Esp} (H : s.Inv) :
    s.Delivered ↔ s.sent.flatten = s.serial.consumed := by
  refine ⟨Delivered.complete, fun h => ⟨h, fun m hm => ?_, ?_, H.out, H.back⟩⟩
  · rw [H.sent, List.mem_filter] at hm
    rintro rfl
    simp [cStr] at hm
  · rw [H.sent]
    exact List.filter_sublist

/-- At the end of every sequence of executions of `loop()`, everything has been delivered exactly
when no call of `readSerialPort()` in it read a zero byte first. -/
theorem delivered_iff (es : List Event) (h : (run step {} es).pc = .clear) :
    Delivered (run step {} es) ↔ Along step NoLeadingZero {} es := by
  have H := inv_run es
  have hb : (run step {} es).burst = [] := by simpa [MsgOk, h] using H.msg
  rw [delivered_iff_complete H, sent_complete_iff H hb,
    final_iff_along inv_step noZeroBurst_step inv_start]
  simp [NoZeroBurst]

/-- The text "AT" arrives, is read in one call and sent. -/
theorem delivered_text : Delivered (run step {} ([.arriveSerial 65, .arriveSerial 84] ++
    List.replicate 15 .exec)) :=
  (delivered_iff _ rfl).mpr (by decide)

/-- A zero byte and an 'A' arrive and are read in one call: neither is sent. -/
theorem not_delivered_zero_first :
    let s := run step {} ([.arriveSerial 0, .arriveSerial 65] ++ List.replicate 14 .exec)
    s.pc = .clear ∧ s.serial.consumed = [0, 65] ∧ ¬ s.Delivered := by
  refine ⟨rfl, rfl, fun h => ?_⟩
  exact absurd h.complete (by decide)

end Esp

end D1Mini
