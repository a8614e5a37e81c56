import D1Mini.MonoAmp.Loop
import D1Mini.MonoAmp.Persistence

/-!
# Presses of the button

A press is a maximal run of iterations of one boot that find the button down. `OneStepEach` says
that each press of a boot moves the stored setting one step on and commits once.

The button branch stops the sound without clearing `go`. If the sound was playing and its time is
not over, the boot goes on for one more iteration, and a button still down then is taken for a
second press. `Device.oneStepEach_iff` shows that this is the only way to fail.
-/

namespace D1Mini
open EventMachine

namespace Device

/-- The iterations of a boot from `s`, up to the one that calls `ESP.deepSleep`. -/
inductive Boot (k : Sketch) : Device → List Input → Prop
  | sleep : (s.loop k inp).pc = .off → Boot k s [inp]
  | next : (s.loop k inp).pc = .loopStart → Boot k (s.loop k inp) inps → Boot k s (inp :: inps)

/-- The setting that the word in flash stands for, as `setup()` restores it. -/
def stored (s : Device) : Int32 := clamp s.eeprom.flash

/-- `held` is a press: the button is down all through it, and up before and after it. -/
structure IsPress (pre held post : List Input) : Prop where
  nonempty : held ≠ []
  down : ∀ inp ∈ held, inp.btn = .low
  before : ∀ inp ∈ pre.getLast?, inp.btn ≠ .low
  after : ∀ inp ∈ post.head?, inp.btn ≠ .low

/-- The number of presses; `down` says whether the button was down just before. -/
def presses (down : Bool) : List Input → Nat
  | [] => 0
  | inp :: inps => (if inp.btn = .low ∧ ¬ down then 1 else 0) + presses (inp.btn = .low) inps

/-- Each press among the iterations advances the stored setting by one step: the word in flash is
then the one that comes after the setting before the press. There are as many commits as presses.
-/
structure OneStepEach (k : Sketch) (s : Device) (inps : List Input) : Prop where
  step : ∀ pre held post, inps = pre ++ held ++ post → IsPress pre held post →
    (run (loop k) s (pre ++ held)).eeprom.flash = next (run (loop k) s pre).stored
  count : (run (loop k) s inps).commits = s.commits + presses false inps

/-- The button is down in an iteration in which the sound goes on and its time is not over, and
still down in the next one. In a boot the sound goes on, and its time is not over, in every
iteration but the last, so that these conditions on the first of the two only explain the case. -/
def HeldWhilePlaying (k : Sketch) (inps : List Input) : Prop :=
  ∃ pre a b post, inps = pre ++ a :: b :: post ∧
    a.btn = .low ∧ a.running ∧ a.playing ∧ a.millis ≤ k.playLimit ∧ b.btn = .low

/-! ### One iteration -/

section
variable {k : Sketch} {inp : Input} {s : Device}

/-- The audio part leaves the setting alone, and `go` says afterwards that the sound goes on. -/
theorem playAudio_spec (s : Device) (inp : Input) : (s.playAudio inp).eeprom = s.eeprom ∧
    (s.playAudio inp).sleep = s.sleep ∧ (s.playAudio inp).commits = s.commits ∧
    ((s.playAudio inp).go = true ↔ inp.running ∧ ¬ s.stopped ∧ inp.playing) := by
  unfold playAudio
  repeat' split
  all_goals simp_all

theorem readButton_go : (s.readButton inp).go = s.go := by
  unfold readButton; split <;> rfl

theorem sleepOrReturn_spec (k : Sketch) (s : Device) (inp : Input) :
    (s.sleepOrReturn k inp).eeprom = s.eeprom ∧
    (s.sleepOrReturn k inp).sleep = s.sleep ∧ (s.sleepOrReturn k inp).commits = s.commits ∧
    (s.sleepOrReturn k inp).stopped = s.stopped := by
  unfold sleepOrReturn
  split <;> exact ⟨rfl, rfl, rfl, rfl⟩

/-- An iteration is not the last one of its boot exactly when the sound goes on and its time is
not over. -/
theorem loop_returns : (s.loop k inp).pc = .loopStart ↔
    inp.running ∧ ¬ s.stopped ∧ inp.playing ∧ inp.millis ≤ k.playLimit := by
  obtain ⟨-, -, -, hgo⟩ := playAudio_spec s inp
  rw [loop, sleepOrReturn, readButton_go]
  split <;> rename_i h
  · simp only [reduceCtorEq, false_iff]
    rintro ⟨h1, h2, h3, h4⟩
    rcases h with h | h
    · exact absurd h4 (UInt32.not_le.mpr h)
    · rw [hgo.mpr ⟨h1, h2, h3⟩] at h
      cases h
  · rw [not_or, UInt32.not_lt, Bool.not_eq_false, hgo] at h
    simp only [true_iff]
    exact ⟨h.2.1, h.2.2.1, h.2.2.2, h.1⟩

theorem loop_stopped (h : inp.btn = .low) : (s.loop k inp).stopped = true := by
  rw [loop, (sleepOrReturn_spec ..).2.2.2, readButton, if_pos h]

theorem loop_commits :
    (s.loop k inp).commits = s.commits + if inp.btn = .low then 1 else 0 := by
  rw [loop, (sleepOrReturn_spec ..).2.2.1, readButton]
  split <;> simp only [(playAudio_spec s inp).2.2.1, Nat.add_zero]

/-- The copy in RAM is there, and `sleep` is the stored setting. -/
def Synced (s : Device) : Prop := s.eeprom.data.isSome ∧ s.sleep = s.stored

theorem setup_synced (s : Device) : s.setup.Synced := ⟨rfl, setup_sleep s⟩

/-- An iteration that finds the button down stores the next setting, and another one leaves it. -/
theorem loop_synced (H : s.Synced) : (s.loop k inp).Synced ∧
    (s.loop k inp).eeprom.flash =
      if inp.btn = .low then next s.stored else s.eeprom.flash := by
  obtain ⟨hdata, hsleep⟩ := H
  obtain ⟨x, hx⟩ := Option.isSome_iff_exists.mp hdata
  obtain ⟨he, hs, -, -⟩ := playAudio_spec s inp
  obtain ⟨he', hs', -, -⟩ := sleepOrReturn_spec k ((s.playAudio inp).readButton inp) inp
  rw [Synced, stored, loop, he', hs', readButton]
  split
  · have hv := next_valid s.stored
    simp [he, hs, hsleep, hx, Eeprom.put, Eeprom.commit, advanced_eq_next, clamp_of_mem hv]
  · exact ⟨⟨by rw [he]; exact hdata, by rw [hs, he]; exact hsleep⟩, by rw [he]⟩

end

/-! ### The iterations of a boot -/

section
variable {k : Sketch} {s : Device}

theorem run_synced (H : s.Synced) : (run (loop k) s inps).Synced :=
  run_invariant (fun _ _ H => (loop_synced H).1) H

/-- A press advances the stored setting once for each of its iterations. -/
theorem run_flash_down (H : s.Synced) (hd : ∀ inp ∈ inps, inp.btn = .low) (hne : inps ≠ []) :
    (run (loop k) s inps).eeprom.flash = next^[inps.length] s.stored := by
  induction inps generalizing s with
  | nil => exact absurd rfl hne
  | cons inp inps ih =>
    have hs : (s.loop k inp).Synced := (loop_synced H).1
    have hflash : (s.loop k inp).eeprom.flash = next s.stored :=
      (loop_synced H).2.trans (if_pos (hd inp List.mem_cons_self))
    cases inps with
    | nil => exact hflash
    | cons inp' inps =>
      have hstored : (s.loop k inp).stored = next s.stored := by
        rw [stored, hflash, clamp_of_mem (next_valid _)]
      rw [run_cons, ih hs (fun i hi => hd i (List.mem_cons_of_mem _ hi)) nofun, hstored]
      rfl

theorem run_commits : (run (loop k) s inps).commits =
    s.commits + inps.countP (·.btn = .low) := by
  induction inps generalizing s with
  | nil => rfl
  | cons inp inps ih =>
    rw [run_cons, ih, loop_commits, List.countP_cons]
    rcases Decidable.em (inp.btn = .low) with h | h
    · simp [h]
      omega
    · simp [h]

/-- When no two iterations in a row find the button down, each one that does is a press. -/
theorem presses_eq_countP (down : Bool) (hd : down → ∀ inp ∈ inps.head?, inp.btn ≠ .low)
    (H : ∀ pre a b post, inps = pre ++ a :: b :: post → a.btn = .low → b.btn ≠ .low) :
    presses down inps = inps.countP (·.btn = .low) := by
  induction inps generalizing down with
  | nil => rfl
  | cons inp inps ih =>
    have hhead : inp.btn = .low → ∀ b ∈ inps.head?, b.btn ≠ .low := by
      intro h b hb
      obtain ⟨rest, rfl⟩ := List.head?_eq_some_iff.mp hb
      exact H [] inp b rest rfl h
    have htail : ∀ pre a b post, inps = pre ++ a :: b :: post → a.btn = .low → b.btn ≠ .low := by
      intro pre a b post he
      exact H (inp :: pre) a b post (by rw [he]; rfl)
    rw [presses, ih _ (by simpa using hhead) htail, List.countP_cons, Nat.add_comm]
    by_cases h : inp.btn = .low
    · have : down = false := by
        cases down with
        | false => rfl
        | true => exact absurd h (hd rfl inp rfl)
      simp [h, this]
    · simp [h]

/-- An iteration of a boot that finds the button down, and is not the last one, is the last but
one: the sound was going on, and is stopped now. -/
theorem Boot.down (B : Boot k s (pre ++ a :: b :: post)) (h : a.btn = .low) :
    post = [] ∧ a.running ∧ a.playing ∧ a.millis ≤ k.playLimit := by
  induction pre generalizing s with
  | nil =>
    cases B with
    | next hpc B =>
      obtain ⟨h1, -, h3, h4⟩ := loop_returns.mp hpc
      refine ⟨?_, h1, h3, h4⟩
      cases B with
      | sleep => rfl
      | next hpc' =>
        -- the sound has been stopped, so the next iteration cannot return
        exact absurd (loop_stopped h) (loop_returns.mp hpc').2.1
  | cons _ pre ih =>
    cases pre with
    | nil => cases B with | next _ B => exact ih B
    | cons => cases B with | next _ B => exact ih B

theorem next_ne (x : Int32) : next x ≠ x := by
  by_cases h : x ∈ offered
  · simp only [offered, List.mem_cons, List.not_mem_nil, or_false] at h
    rcases h with rfl | rfl | rfl | rfl | rfl <;> decide
  · rintro hx
    rw [next_of_notMem h] at hx
    subst hx
    exact h (by decide)

end

/-- Each press of a boot advances the stored setting by exactly one step, with one commit, unless
the button is still down in the iteration after one in which it stopped the sound. -/
theorem oneStepEach_iff (k : Sketch) (s : Device) (inps : List Input)
    (B : Boot k s.setup inps) :
    OneStepEach k s.setup inps ↔ ¬ HeldWhilePlaying k inps := by
  have hs := setup_synced s
  constructor
  · rintro H ⟨pre, a, b, post, rfl, ha, h1, h2, h3, hb⟩
    obtain rfl := (Boot.down B ha).1
    have hp : IsPress pre [a, b] [] := by
      refine ⟨nofun, by simp [ha, hb], fun c hc hdown => ?_, nofun⟩
      obtain ⟨pre', rfl⟩ := List.getLast?_eq_some_iff.mp hc
      rw [List.append_assoc] at B
      exact absurd (Boot.down B hdown).1 nofun
    have hstep := H.step pre [a, b] [] (List.append_nil _).symm hp
    rw [run_append, run_flash_down (run_synced hs) hp.down hp.nonempty] at hstep
    exact next_ne _ hstep
  · intro H
    have hpair : ∀ pre a b post, inps = pre ++ a :: b :: post → a.btn = .low → b.btn ≠ .low := by
      rintro pre a b post rfl ha hb
      obtain ⟨-, h1, h2, h3⟩ := Boot.down B ha
      exact H ⟨pre, a, b, post, rfl, ha, h1, h2, h3, hb⟩
    refine ⟨fun pre held post he hp => ?_, ?_⟩
    · rw [run_append, run_flash_down (run_synced hs) hp.down hp.nonempty]
      match held, hp with
      | [], hp => exact absurd rfl hp.nonempty
      | [_], _ => rfl
      | a :: b :: held, hp =>
        exact absurd (hp.down b (by simp))
          (hpair pre a b (held ++ post) (by simp [he]) (hp.down a (by simp)))
    · rw [run_commits, presses_eq_countP false nofun hpair]

/-- The button is pressed while the sound plays, and released before the next iteration. -/
theorem oneStepEach_released : OneStepEach .i2s (unboxed 15).setup
    [⟨.low, true, true, 1500⟩, ⟨.high, false, false, 1600⟩] := by
  refine (oneStepEach_iff .i2s _ _ (.next rfl (.sleep rfl))).mpr ?_
  rintro ⟨pre, a, b, post, he, -, -, -, -, hb⟩
  cases pre with
  | nil =>
    obtain ⟨-, rfl, -⟩ := he
    exact absurd hb (by decide)
  | cons c pre =>
    have hlen := congrArg List.length he
    simp only [List.cons_append, List.length_cons, List.length_append, List.length_nil] at hlen
    omega

/-- The button is held a little longer: one press makes two steps, from 15 over 1 to 2. -/
theorem not_oneStepEach_held :
    let inps : List Input := [⟨.low, true, true, 1500⟩, ⟨.low, false, false, 3200⟩]
    Boot .i2s (unboxed 15).setup inps ∧ inps.Pairwise (·.millis ≤ ·.millis) ∧
      presses false inps = 1 ∧ (run (loop .i2s) (unboxed 15).setup inps).stored = 2 ∧
      ¬ OneStepEach .i2s (unboxed 15).setup inps := by
  refine ⟨.next rfl (.sleep rfl), by decide, by decide, by decide, fun H => ?_⟩
  exact absurd H.count (by decide)

end Device

end D1Mini
