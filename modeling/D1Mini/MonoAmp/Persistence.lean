import Mathlib.Logic.Function.Iterate
import D1Mini.MonoAmp.Loop

/-!
# The sleep interval survives resets

`Keeper` is what the sound box is for: a setting of 1 to 15 minutes that each press moves on, and
that the device sleeps for. The setting of the sketch lives in three places, the variable `sleep`,
the copy in RAM and the flash; `Device.RamOk` says how they agree at each statement, and
`Device.refines` that a history of boots, presses and resets is a run of the `Keeper`, whose press
is the completed `EEPROM.commit`.
-/

namespace D1Mini
open EventMachine

/-! ### The keeper of a setting -/

/-- The value `setup()` leaves in `sleep` when flash holds `x`. -/
def clamp (x : Int32) : Int32 := if 1 ≤ x ∧ x ≤ 15 then x else 1

theorem clamp_of_mem (h : 1 ≤ x ∧ x ≤ 15) : clamp x = x := if_pos h

theorem clamp_of_not_mem (h : ¬ (1 ≤ x ∧ x ≤ 15)) : clamp x = 1 := if_neg h

theorem clamp_valid (x : Int32) : 1 ≤ clamp x ∧ clamp x ≤ 15 := by
  unfold clamp
  split
  · assumption
  · decide

/-- The cycle of the intervals. -/
def cycle : List (Int32 × Int32) := [(1, 2), (2, 5), (5, 10), (10, 15), (15, 1)]

/-- The setting after a press; one that is not in the cycle goes to its first interval. -/
def next (x : Int32) : Int32 := (cycle.lookup x).getD 1

/-- The intervals the button offers. -/
def offered : List Int32 := [1, 2, 5, 10, 15]

theorem offered_valid : ∀ x ∈ offered, 1 ≤ x ∧ x ≤ 15 := by
  intro x hx
  simp only [offered, List.mem_cons, List.not_mem_nil, or_false] at hx
  rcases hx with rfl | rfl | rfl | rfl | rfl <;> decide

theorem next_of_notMem (h : x ∉ offered) : next x = 1 := by
  simp only [offered, List.mem_cons, List.not_mem_nil, or_false, not_or,
    ← beq_eq_false_iff_ne] at h
  obtain ⟨h1, h2, h5, h10, h15⟩ := h
  simp only [next, cycle, List.lookup_cons, List.lookup_nil, h1, h2, h5, h10, h15,
    Option.getD_none]

theorem Device.advanced_eq_next (x : Int32) : Device.advanced x = next x := by
  by_cases h : x ∈ offered
  · simp only [offered, List.mem_cons, List.not_mem_nil, or_false] at h
    rcases h with rfl | rfl | rfl | rfl | rfl <;> rfl
  · rw [next_of_notMem h]
    simp only [offered, List.mem_cons, List.not_mem_nil, or_false, not_or] at h
    obtain ⟨h1, h2, h5, h10, -⟩ := h
    rw [Device.advanced, if_neg h1, if_neg h2, if_neg h5, if_neg h10]

theorem next_mem_offered (x : Int32) : next x ∈ offered := by
  rw [← Device.advanced_eq_next, Device.advanced]
  repeat' split
  all_goals decide

theorem next_valid (x : Int32) : 1 ≤ next x ∧ next x ≤ 15 := offered_valid _ (next_mem_offered x)

/-- A stored setting that `setup()` accepts as it is. -/
structure Setting where
  minutes : Int32
  valid : 1 ≤ minutes ∧ minutes ≤ 15
deriving DecidableEq, Repr

namespace Setting

def restore (x : Int32) : Setting := ⟨clamp x, clamp_valid x⟩

def press (v : Setting) : Setting := ⟨next v.minutes, next_valid _⟩

@[simp] theorem restore_minutes : (restore x).minutes = clamp x := rfl

@[simp] theorem press_minutes (v : Setting) : v.press.minutes = next v.minutes := rfl

/-- A stored setting is restored unchanged. -/
theorem restore_eq (v : Setting) : restore v.minutes = v := by
  cases v with
  | mk x h => simp only [restore, clamp_of_mem h]

theorem restore_next (v : Setting) : restore (next v.minutes) = v.press := restore_eq v.press

end Setting

/-- A setting, the presses so far, and the sleeps so far, each with the presses before it. -/
structure Keeper where
  setting : Setting
  presses : Nat
  slept : List (Nat × Int)
deriving DecidableEq, Repr

namespace Keeper

inductive Action
  | press | sleep
deriving DecidableEq, Repr

def step (k : Keeper) : Action → Keeper
  | .press => { k with setting := k.setting.press, presses := k.presses + 1 }
  | .sleep => { k with slept := k.slept ++ [(k.presses, k.setting.minutes.toInt * 60000000)] }

/-- The setting after `n` presses. -/
def after (x : Int32) (n : Nat) : Int32 := next^[n] (clamp x)

theorem after_zero : after x 0 = clamp x := rfl

theorem after_succ : after x (n + 1) = next (after x n) :=
  Function.iterate_succ_apply' ..

/-- The setting is the one the presses made, and each sleep took the setting of its time. -/
def Ok (x : Int32) (k : Keeper) : Prop :=
  k.setting.minutes = after x k.presses ∧ ∀ p ∈ k.slept, p.2 = (after x p.1).toInt * 60000000

theorem ok_step (k : Keeper) (a : Action) (H : k.Ok x) : (k.step a).Ok x := by
  cases a with
  | press => exact ⟨by rw [step, after_succ, Setting.press_minutes, H.1], H.2⟩
  | sleep =>
    refine ⟨H.1, fun p hp => ?_⟩
    rcases List.mem_append.mp hp with hp | hp
    · exact H.2 p hp
    · cases List.mem_singleton.mp hp
      rw [H.1]

end Keeper

namespace Device

/-! ### How RAM and flash agree -/

/-- The relation of `sleep`, the copy in RAM and the flash before each statement. In the button
branch `sleep` is one press ahead of the flash until the commit. -/
def RamOk (s : Device) : Prop :=
  match s.pc with
  | .off | .eepromBegin => True
  | .audioBegin | .eepromGet => s.eeprom.data = some s.eeprom.flash
  | .ifInvalid => s.eeprom.data = some s.eeprom.flash ∧ s.sleep = s.eeprom.flash
  | .setDefault => s.eeprom.data = some s.eeprom.flash ∧ clamp s.eeprom.flash = 1
  | .eepromPut => s.eeprom.data.isSome ∧ s.sleep = next (clamp s.eeprom.flash)
  | .settle | .eepromCommit =>
    s.eeprom.data = some s.sleep ∧ s.sleep = next (clamp s.eeprom.flash)
  | _ => s.eeprom.data.isSome ∧ s.sleep = clamp s.eeprom.flash

theorem ramOk_exec (k : Sketch) (s : Device) (inp : Input) (H : s.RamOk) :
    (s.exec k inp).RamOk := by
  cases hpc : s.pc with
  | off | eepromBegin => simp [exec, hpc, RamOk, Eeprom.begin]
  | audioBegin => simpa [exec, hpc, RamOk] using H
  | eepromGet =>
    simp only [RamOk, hpc] at H
    simp [exec, hpc, RamOk, Eeprom.get, H]
  | ifInvalid =>
    simp only [RamOk, hpc] at H
    simp only [exec, hpc]
    split <;> rename_i hs
    · refine ⟨H.1, clamp_of_not_mem fun hv => ?_⟩
      rw [← H.2] at hv
      exact hs.elim (Int32.not_lt.mpr hv.1) (Int32.not_lt.mpr hv.2)
    · rw [not_or, Int32.not_lt, Int32.not_lt, H.2] at hs
      exact ⟨by rw [H.1]; rfl, by rw [clamp_of_mem hs, H.2]⟩
  | setDefault =>
    simp only [RamOk, hpc] at H
    simp [exec, hpc, RamOk, H]
  | loopStart | setGo | audioStop | clearGo | buttonStop | ledOn | blink | ledOff | ampOff =>
    simpa [exec, hpc, RamOk] using H
  | ifRunning | ifEnded | ifPressed | forBlink | ifSleep =>
    simp only [RamOk, hpc] at H
    simp only [exec, hpc]
    split <;> exact H
  | advance =>
    simp only [RamOk, hpc] at H
    simp [exec, hpc, RamOk, H, advanced_eq_next]
  | eepromPut =>
    simp only [RamOk, hpc] at H
    obtain ⟨x, hx⟩ := Option.isSome_iff_exists.mp H.1
    simp [exec, hpc, RamOk, Eeprom.put, hx, H.2]
  | settle => simpa [exec, hpc, RamOk] using H
  | eepromCommit =>
    simp only [RamOk, hpc] at H
    have hv := next_valid (clamp s.eeprom.flash)
    simp [exec, hpc, RamOk, Eeprom.commit, H.1, H.2, clamp_of_mem hv]
  | deepSleep => simp [exec, hpc, RamOk]

theorem ramOk_step (k : Sketch) (s : Device) (e : Event) (H : s.RamOk) : (s.step k e).RamOk := by
  cases e with
  | exec inp => exact ramOk_exec k s inp H
  | reset => trivial

/-! ### The refinement -/

/-- The keeper a device stands for: what its flash restores to. -/
def keeper (s : Device) : Keeper := ⟨.restore s.eeprom.flash, s.commits, s.slept⟩

/-- The abstract actions of a step: a press when `EEPROM.commit` completes, a sleep when
`ESP.deepSleep` is called. -/
def actions (s : Device) : Event → List Keeper.Action
  | .exec _ =>
    match s.pc with
    | .eepromCommit => [.press]
    | .deepSleep => [.sleep]
    | _ => []
  | .reset => []

theorem keeper_step (k : Sketch) (s : Device) (e : Event) (H : s.RamOk) :
    (s.step k e).keeper = run Keeper.step s.keeper (s.actions e) := by
  cases e with
  | reset => rfl
  | exec inp =>
    cases hpc : s.pc with
    | eepromCommit =>
      simp only [RamOk, hpc] at H
      have hpress := Setting.restore_next (.restore s.eeprom.flash)
      rw [Setting.restore_minutes, ← H.2] at hpress
      simp [step, exec, actions, hpc, keeper, Keeper.step, Eeprom.commit, H.1, hpress]
    | deepSleep =>
      simp only [RamOk, hpc] at H
      simp [step, exec, actions, hpc, keeper, Keeper.step, micros, H.2]
    | ifInvalid | ifRunning | ifEnded | ifPressed | forBlink | ifSleep =>
      simp only [step, exec, actions, hpc]
      split <;> rfl
    | _ => simp [step, exec, actions, hpc, keeper, Eeprom.begin, Eeprom.put, Eeprom.lose]

/-- Every history is a run of the keeper. -/
theorem refines (k : Sketch) (x : Int32) (es : List Event) :
    (run (step k) (unboxed x) es).keeper =
      run Keeper.step (unboxed x).keeper (trace (step k) actions (unboxed x) es) :=
  run_refines (ramOk_step k) (keeper_step k) trivial

theorem ramOk_run (k : Sketch) (x : Int32) (es : List Event) :
    (run (step k) (unboxed x) es).RamOk := run_invariant (ramOk_step k) trivial

theorem keeper_ok (k : Sketch) (x : Int32) (es : List Event) :
    (run (step k) (unboxed x) es).keeper.Ok x := by
  rw [refines]
  exact run_invariant Keeper.ok_step ⟨rfl, nofun⟩

/-! ### Whole histories -/

/-- `setup()` has finished, and the device is running. -/
def AfterSetup (s : Device) : Prop :=
  s.pc ∉ [.off, .eepromBegin, .audioBegin, .eepromGet, .ifInvalid, .setDefault]

/-- A press is on its way from the variable `sleep` to the flash. -/
def Uncommitted (s : Device) : Prop := s.pc ∈ [.eepromPut, .settle, .eepromCommit]

theorem sleep_eq_clamp {s : Device} (H : s.RamOk) (h : s.AfterSetup) (hu : ¬ s.Uncommitted) :
    s.sleep = clamp s.eeprom.flash := by
  cases hpc : s.pc <;> simp_all [RamOk, AfterSetup, Uncommitted]

theorem sleep_eq_next {s : Device} (H : s.RamOk) (hu : s.Uncommitted) :
    s.sleep = next (clamp s.eeprom.flash) := by
  simp only [Uncommitted, List.mem_cons, List.not_mem_nil, or_false] at hu
  rcases hu with hpc | hpc | hpc <;> simp only [RamOk, hpc] at H <;> exact H.2

/-- `setup()` reads the setting from the flash. -/
theorem setup_sleep (s : Device) : s.setup.sleep = clamp s.eeprom.flash := by
  change (if s.eeprom.flash < 1 ∨ s.eeprom.flash > 15 then 1 else s.eeprom.flash) =
    clamp s.eeprom.flash
  by_cases h : 1 ≤ s.eeprom.flash ∧ s.eeprom.flash ≤ 15
  · rw [clamp_of_mem h, if_neg]
    exact fun hn => hn.elim (Int32.not_lt.mpr h.1) (Int32.not_lt.mpr h.2)
  · rw [clamp_of_not_mem h, if_pos]
    simpa only [Classical.not_and_iff_not_or_not, Int32.not_le] using h

/-- What holds of a device that had `x` in flash before its first boot. Until its commit a press is
one step ahead in `sleep` alone. A reset loses that press and no other: the `setup()` that follows
restores the setting of the commits. -/
structure Persists (k : Sketch) (x : Int32) (s : Device) : Prop where
  flash : clamp s.eeprom.flash = Keeper.after x s.commits
  ram : s.AfterSetup → ¬ s.Uncommitted → s.sleep = Keeper.after x s.commits
  slept : ∀ p ∈ s.slept, p.2 = (Keeper.after x p.1).toInt * 60000000
  ahead : s.Uncommitted → s.sleep = next (Keeper.after x s.commits)
  restored : ∀ inp, let t := s.step k .reset
    Runs k inp t t.setup ∧ t.setup.sleep = Keeper.after x s.commits ∧ t.setup.commits = s.commits

/-- An interval is in use after `n` commits if the button offers it or, before the first commit,
if `setup()` accepted it from the flash. -/
def InUse (x : Int32) (n : Nat) (m : Int32) : Prop :=
  m ∈ offered ∨ m = x ∧ (1 ≤ x ∧ x ≤ 15) ∧ n = 0

/-- The variable `sleep` and the arguments of `ESP.deepSleep` are intervals in use. -/
structure OnlyInUse (x : Int32) (s : Device) : Prop where
  ram : s.AfterSetup → InUse x s.commits s.sleep
  slept : ∀ p ∈ s.slept, ∃ m, InUse x p.1 m ∧ p.2 = m.toInt * 60000000

section
variable (k : Sketch) (x : Int32) (es : List Event)

theorem clamp_flash : clamp (run (step k) (unboxed x) es).eeprom.flash =
    Keeper.after x (run (step k) (unboxed x) es).commits := (keeper_ok k x es).1

theorem sleep_eq_after (h : (run (step k) (unboxed x) es).AfterSetup)
    (hu : ¬ (run (step k) (unboxed x) es).Uncommitted) :
    (run (step k) (unboxed x) es).sleep =
      Keeper.after x (run (step k) (unboxed x) es).commits := by
  rw [sleep_eq_clamp (ramOk_run k x es) h hu, clamp_flash]

theorem sleep_eq_after_succ (hu : (run (step k) (unboxed x) es).Uncommitted) :
    (run (step k) (unboxed x) es).sleep =
      Keeper.after x ((run (step k) (unboxed x) es).commits + 1) := by
  rw [sleep_eq_next (ramOk_run k x es) hu, clamp_flash, Keeper.after_succ]

/-- After every history the flash restores to the setting that its commits made of `x`; every
`setup()` leaves it in `sleep`, and every `ESP.deepSleep` call sleeps for it. -/
theorem sleep_persists : Persists k x (run (step k) (unboxed x) es) where
  flash := clamp_flash k x es
  ram := sleep_eq_after k x es
  slept := (keeper_ok k x es).2
  ahead hu := by rw [sleep_eq_after_succ k x es hu, Keeper.after_succ]
  restored inp := by
    refine ⟨runs_setup rfl, ?_, rfl⟩
    rw [setup_sleep]
    exact clamp_flash k x es

/-! ### Which intervals are used -/

theorem after_inUse (x : Int32) (n : Nat) : InUse x n (Keeper.after x n) := by
  cases n with
  | zero =>
    rw [Keeper.after_zero]
    by_cases h : 1 ≤ x ∧ x ≤ 15
    · exact .inr ⟨clamp_of_mem h, h, rfl⟩
    · exact .inl (by rw [clamp_of_not_mem h]; decide)
  | succ n => exact .inl (by rw [Keeper.after_succ]; exact next_mem_offered _)

/-- After every history `sleep` is an interval that is in use. -/
theorem sleep_mem_offered : OnlyInUse x (run (step k) (unboxed x) es) where
  ram h := by
    by_cases hu : (run (step k) (unboxed x) es).Uncommitted
    · rw [sleep_eq_after_succ k x es hu, Keeper.after_succ]
      exact .inl (next_mem_offered _)
    · rw [sleep_eq_after k x es h hu]
      exact after_inUse x _
  slept p hp := ⟨_, after_inUse x p.1, (keeper_ok k x es).2 p hp⟩

end

/-- A 3 in flash is in the range `setup()` accepts: the device keeps it and sleeps for three
minutes, which the button does not offer. -/
theorem sleep_three :
    let boot := List.replicate 5 (Event.exec ⟨.high, false, false, 300⟩)
    let s := run (step .i2s) (unboxed 3) boot
    s.AfterSetup ∧ s.sleep ∉ offered ∧
      (run (step .i2s) s (List.replicate 6 (.exec ⟨.high, false, false, 300⟩))).slept =
        [(0, 3 * 60000000)] := by
  refine ⟨by unfold AfterSetup; decide, by decide, by decide⟩

end Device

end D1Mini
