import Mathlib.Logic.Function.Iterate
import D1Mini.Hc05.Esp

/-!
# Whole iterations of the serial bridge

`Esp.loop` is an execution of `loop()` during which nothing arrives, as a function of the state.
`Esp.leads_loop` shows that the statements compute it, so the `while` loop of `readSerialPort` ends
once the bytes stop coming, and `Esp.iterate_loop_drained` that the ports are drained and what is
passed on.
-/

namespace D1Mini
open EventMachine

namespace Esp

/-- `readSerialPort();` -/
def readSerialPort (s : Esp) : Esp :=
  { s with
    serial := { s.serial with unread := [], consumed := s.serial.consumed ++ s.serial.unread }
    msg := s.serial.unread, burst := s.burst ++ s.serial.unread, pc := .ifMsg }

/-- `if(msg!="") hc05.println(msg);` -/
def sendMsg (s : Esp) : Esp :=
  let s := { s with bursts := s.bursts ++ [s.burst], burst := [], pc := .ifHc05 }
  if cStr s.msg ≠ [] then
    { s with hc05 := s.hc05.print (s.msg ++ [13, 10]), sent := s.sent ++ [s.msg] }
  else s

/-- `if (hc05.available()>0) { Serial.write(hc05.read()); }` -/
def copyBack (s : Esp) : Esp :=
  let s := { s with pc := .clear }
  if 0 < s.hc05.available then
    let r := s.hc05.read
    { s with hc05 := r.2, serial := s.serial.write (UInt8.ofInt r.1) }
  else s

def loop (s : Esp) : Esp := s.readSerialPort.sendMsg.copyBack

section
variable {s : Esp}

/-- The `while` loop, by induction on the bytes that wait. -/
theorem leads_whileSerial (h : s.pc = .whileSerial) : Leads step .exec s
    { s with
      serial := { s.serial with unread := [], consumed := s.serial.consumed ++ s.serial.unread }
      msg := s.msg ++ s.serial.unread, burst := s.burst ++ s.serial.unread, pc := .ifMsg } := by
  generalize hu : s.serial.unread = unread
  induction unread generalizing s with
  | nil =>
    refine .head ?_
    have hav : ¬ s.serial.available ≠ 0 := by simp [hu]
    simp only [step, exec, h, if_neg hav, List.append_nil]
    rw [← hu]
    exact .refl
  | cons b unread ih =>
    have hav : s.serial.available ≠ 0 := by simp [hu]
    have hpos : 0 < s.serial.available := Nat.pos_of_ne_zero hav
    have hread := Port.read_of_cons s.serial hu
    refine .head <| .head <| .head <| .head <| .head ?_
    simp only [step, exec, h, if_pos hav, if_pos hpos, hread, hu, ofInt_toNat]
    refine (ih rfl rfl).trans ?_
    simp only [List.take_succ_cons, List.take_zero, List.append_assoc, List.singleton_append]
    exact .refl

theorem leads_readSerialPort (h : s.pc = .clear) : Leads step .exec s s.readSerialPort := by
  refine .head ?_
  simp only [step, exec, h]
  exact leads_whileSerial rfl

theorem leads_sendMsg (h : s.pc = .ifMsg) : Leads step .exec s s.sendMsg := by
  refine .head ?_
  simp only [step, exec, h, sendMsg]
  split
  · refine .head ?_
    simp only [step, exec]
    exact .refl
  · exact .refl

theorem leads_copyBack (h : s.pc = .ifHc05) : Leads step .exec s s.copyBack := by
  refine .head ?_
  simp only [step, exec, h, copyBack]
  split
  · refine .head ?_
    simp only [step, exec]
    exact .refl
  · exact .refl

theorem sendMsg_pc : s.sendMsg.pc = .ifHc05 := by
  unfold sendMsg
  dsimp only
  split <;> rfl

theorem copyBack_pc : s.copyBack.pc = .clear := by
  unfold copyBack
  dsimp only
  split <;> rfl

/-- The statements of an execution compute `loop`. -/
theorem leads_loop (h : s.pc = .clear) : Leads step .exec s s.loop :=
  (leads_readSerialPort h).trans <| (leads_sendMsg rfl).trans <| leads_copyBack sendMsg_pc

/-- What `hc05` gets of the bytes that one call of `readSerialPort` has read. -/
def line (bs : List UInt8) : List UInt8 :=
  if bs = [] ∨ bs.head? = some 0 then [] else bs ++ [13, 10]

theorem sendMsg_ports : s.sendMsg.serial = s.serial ∧
    s.sendMsg.hc05 = { s.hc05 with log := s.hc05.log ++ line s.msg } := by
  unfold sendMsg line
  dsimp only
  split
  case isTrue h =>
    rw [ne_eq, cStr_eq_nil] at h
    rw [if_neg h]
    exact ⟨rfl, rfl⟩
  case isFalse h =>
    rw [Decidable.not_not, cStr_eq_nil] at h
    rw [if_pos h, List.append_nil]
    exact ⟨rfl, rfl⟩

theorem copyBack_ports : s.copyBack.serial =
      { s.serial with log := s.serial.log ++ s.hc05.unread.take 1 } ∧
    s.copyBack.hc05.unread = s.hc05.unread.tail ∧ s.copyBack.hc05.log = s.hc05.log := by
  unfold copyBack
  dsimp only
  split
  case isTrue h =>
    obtain ⟨b, bs, hu⟩ := List.exists_cons_of_ne_nil (List.ne_nil_of_length_pos h)
    rw [Port.read_of_cons _ hu, hu, ofInt_toNat]
    exact ⟨rfl, rfl, rfl⟩
  case isFalse h =>
    have hnil : s.hc05.unread = [] := by simpa using h
    rw [hnil, List.take_nil, List.append_nil]
    exact ⟨rfl, rfl, rfl⟩

/-- An execution passes on all that waits at `Serial`, and one byte that waits at `hc05`. -/
theorem loop_spec : s.loop.serial.unread = [] ∧ s.loop.hc05.unread = s.hc05.unread.tail ∧
    s.loop.serial.log = s.serial.log ++ s.hc05.unread.take 1 ∧
    s.loop.hc05.log = s.hc05.log ++ line s.serial.unread := by
  obtain ⟨hserial, hunread, hlog⟩ := copyBack_ports (s := s.readSerialPort.sendMsg)
  obtain ⟨hserial', hhc05⟩ := sendMsg_ports (s := s.readSerialPort)
  rw [hserial', hhc05] at hserial
  rw [hhc05] at hunread hlog
  exact ⟨congrArg Port.unread hserial, hunread, congrArg Port.log hserial, hlog⟩

/-- What the first executions do, when nothing arrives; the later ones find `Serial` empty. -/
theorem iterate_loop_spec (m : Nat) : (loop^[m + 1] s).serial.unread = [] ∧
    (loop^[m + 1] s).hc05.unread = s.hc05.unread.drop (m + 1) ∧
    (loop^[m + 1] s).serial.log = s.serial.log ++ s.hc05.unread.take (m + 1) ∧
    (loop^[m + 1] s).hc05.log = s.hc05.log ++ line s.serial.unread := by
  induction m with
  | zero =>
    obtain ⟨h1, h2, h3, h4⟩ := loop_spec (s := s)
    exact ⟨h1, by rw [List.drop_one]; exact h2, h3, h4⟩
  | succ m ih =>
    obtain ⟨ih1, ih2, ih3, ih4⟩ := ih
    obtain ⟨h1, h2, h3, h4⟩ := loop_spec (s := loop^[m + 1] s)
    have hline : line [] = [] := rfl
    rw [ih2, List.tail_drop] at h2
    rw [ih2, ih3, List.append_assoc, ← List.take_add] at h3
    rw [ih1, ih4, hline, List.append_nil] at h4
    rw [Function.iterate_succ_apply']
    exact ⟨h1, h2, h3, h4⟩

end

end Esp

end D1Mini
