import D1Mini.Webserv.Sketch

/-!
# The publish timers of `webserv.ino`

The word a timer stores is a reading of the clock modulo `2 ^ 32`, kept as a signed integer.
`Timely` ties it to the true time of that reading, over any number of roll-overs of the clock, and
`Follows` ties both timers to `WrapClock.Timers`, which keep true times on the same clock.
-/

namespace D1Mini.Webserv
open WrapClock

def Pass.poll (sensor : Sensor) (pass : Pass) : Poll := (pass.branch sensor).poll

/-- The iteration publishes the sensor because of its timer. -/
def Pass.Publishes (pass : Pass) (sensor : Sensor) : Prop :=
  (pass.branch sensor).published.isSome

instance {pass : Pass} {sensor : Sensor} : Decidable (pass.Publishes sensor) :=
  inferInstanceAs (Decidable (_ = true))

/-! ### The timers that are meant -/

section
variable (clock : Nat → Nat)

/-- An iteration checks the timer of `dht` and then that of `ds`. -/
def iteration (T : Timers Sensor) : Timers Sensor :=
  (T.check clock 60000 .dht).check clock 60000 .ds

/-- The timers before the check of a sensor, in an iteration that begins with `T`. -/
def beforeCheck (T : Timers Sensor) : Sensor → Timers Sensor
  | .dht => T
  | .ds => T.check clock 60000 .dht

/-- The timers before the check of a sensor in the `n`-th iteration. -/
def timersAt (n : Nat) (sensor : Sensor) : Timers Sensor :=
  beforeCheck clock ((iteration clock)^[n] {}) sensor

/-- The call of `millis()` that checks a sensor in the `n`-th iteration. -/
def checkCall (sensor : Sensor) (n : Nat) : Nat := (timersAt clock n sensor).calls

/-- What the branch of a sensor should do: when its timer is due it stores the next reading of the
clock and publishes the sensor, and otherwise it does nothing. -/
def branchOf (T : Timers Sensor) (inp : Input) (sensor : Sensor) : Branch :=
  if T.Due clock 60000 sensor then
    ⟨⟨clock T.calls, some (clock (T.calls + 1))⟩, some (inp.publication sensor)⟩
  else ⟨⟨clock T.calls, none⟩, none⟩

end

def Sensor.other : Sensor → Sensor
  | .dht => .ds
  | .ds => .dht

theorem Sensor.ne_other (sensor : Sensor) : sensor ≠ sensor.other := by cases sensor <;> decide

section
variable {clock : Nat → Nat} {T : Timers Sensor} {inp : Input} {sensor : Sensor} {m n : Nat}

theorem branchOf_published :
    (branchOf clock T inp sensor).published.isSome ↔ T.Due clock 60000 sensor := by
  unfold branchOf
  split
  case isTrue h => exact iff_of_true rfl h
  case isFalse h => exact iff_of_false Bool.false_ne_true h

theorem branchOf_isSome : (branchOf clock T inp sensor).published.isSome =
    (branchOf clock T inp sensor).poll.stored.isSome := by
  unfold branchOf
  split <;> rfl

theorem branchOf_stored : (branchOf clock T inp sensor).poll.stored.getD (T.last sensor) =
    (T.check clock 60000 sensor).last sensor := by
  unfold branchOf
  split
  case isTrue h => exact (Timers.check_last_of_due h).symm
  case isFalse h => exact (Timers.check_last_of_not_due h).symm

/-- The check of the other sensor comes between. -/
theorem beforeCheck_last : (beforeCheck clock T sensor).last sensor = T.last sensor := by
  cases sensor with
  | dht => rfl
  | ds =>
    rw [beforeCheck]
    exact Timers.check_last_ne (by decide)

theorem timersAt_succ : timersAt clock (n + 1) sensor =
    ((timersAt clock n sensor).check clock 60000 sensor).check clock 60000 sensor.other := by
  unfold timersAt
  rw [Function.iterate_succ_apply']
  cases sensor <;> rfl

theorem timersAt_sound (hclock : Monotone clock) : (timersAt clock n sensor).Sound clock := by
  induction n with
  | zero =>
    cases sensor with
    | dht => exact Timers.sound_init
    | ds => exact Timers.sound_init.check hclock
  | succ n ih =>
    rw [timersAt_succ]
    exact (ih.check hclock).check hclock

theorem last_succ_of_due (h : (timersAt clock n sensor).Due clock 60000 sensor) :
    (timersAt clock (n + 1) sensor).last sensor = clock (checkCall clock sensor n + 1) := by
  rw [timersAt_succ, Timers.check_last_ne sensor.ne_other, Timers.check_last_of_due h]
  rfl

theorem last_succ_of_not_due (h : ¬ (timersAt clock n sensor).Due clock 60000 sensor) :
    (timersAt clock (n + 1) sensor).last sensor = (timersAt clock n sensor).last sensor := by
  rw [timersAt_succ, Timers.check_last_ne sensor.ne_other, Timers.check_last_of_not_due h]

theorem monotone_last (hclock : Monotone clock) :
    Monotone fun n => (timersAt clock n sensor).last sensor := by
  refine monotone_nat_of_le_succ fun n => ?_
  rw [timersAt_succ, Timers.check_last_ne sensor.ne_other]
  exact (timersAt_sound hclock).last_le_check hclock

/-- A timer that is due twice has stored a reading in between. -/
theorem due_apart (hclock : Monotone clock) (h : m < n)
    (hm : (timersAt clock m sensor).Due clock 60000 sensor)
    (hn : (timersAt clock n sensor).Due clock 60000 sensor) :
    clock (checkCall clock sensor m + 1) + 60000 < clock (checkCall clock sensor n) := by
  have hlast :
      (timersAt clock (m + 1) sensor).last sensor ≤ (timersAt clock n sensor).last sensor :=
    monotone_last hclock h
  rw [last_succ_of_due hm] at hlast
  exact Nat.lt_of_le_of_lt (Nat.add_le_add_right hlast 60000) hn

/-- A timer that is not due in some iterations has been read within its period. -/
theorem le_of_not_due (hclock : Monotone clock) (h : m ≤ n)
    (hnot : ∀ k, m ≤ k → k ≤ n → ¬ (timersAt clock k sensor).Due clock 60000 sensor) :
    clock (checkCall clock sensor n) ≤ clock (checkCall clock sensor m) + 60000 := by
  have hlast : (timersAt clock n sensor).last sensor = (timersAt clock m sensor).last sensor := by
    have hstep : ∀ k, m ≤ k → k ≤ n →
        (timersAt clock k sensor).last sensor = (timersAt clock m sensor).last sensor := by
      intro k hk
      induction k, hk using Nat.le_induction with
      | base => exact fun _ => rfl
      | succ k hk ih =>
        intro hkn
        rw [last_succ_of_not_due (hnot k hk (Nat.le_of_succ_le hkn)), ih (Nat.le_of_succ_le hkn)]
    exact hstep n h (Nat.le_refl n)
  have hend : clock (checkCall clock sensor n) ≤ (timersAt clock n sensor).last sensor + 60000 :=
    Nat.le_of_not_lt (hnot n h (Nat.le_refl n))
  have hpast : (timersAt clock m sensor).last sensor ≤ clock (checkCall clock sensor m) :=
    timersAt_sound hclock sensor
  omega

end

/-! ### The stored words -/

/-- The timer of the sensor is right about the polls so far. -/
structure Timely (clock : Nat → Nat) (s : State) (sensor : Sensor) (log : List Poll) : Prop where
  period : s.period sensor = 60000
  tracks : Tracks 32 60000 (s.timeNow sensor).toUInt32.toBitVec (clock s.calls) log

section
variable {clock : Nat → Nat} {s s' : State} {sensor : Sensor} {log : List Poll} {inp : Input}
variable {branch : Branch} {T : Timers Sensor}

theorem due_iff {now : Nat} {timeNow : Int32} : Due now timeNow 60000 ↔
    60000 < (BitVec.ofNat 32 now - timeNow.toUInt32.toBitVec).toNat := by
  have hperiod : (60000 : Int32).toUInt32.toNat = 60000 := rfl
  rw [Due, gt_iff_lt, UInt32.lt_iff_toNat_lt, hperiod]
  rfl

namespace Timely

theorem start (clock : Nat → Nat) (sensor : Sensor) : Timely clock {} sensor [] := by
  cases sensor <;> exact ⟨rfl, Tracks.init.mono (Nat.zero_le _)⟩

/-- A change of the other variables, with some calls of `millis()`. -/
theorem frame (H : Timely clock s sensor log) (hclock : Monotone clock)
    (htime : s'.timeNow sensor = s.timeNow sensor) (hperiod : s'.period = s.period)
    (hcalls : s.calls ≤ s'.calls) : Timely clock s' sensor log where
  period := (congrFun hperiod sensor).trans H.period
  tracks := htime ▸ H.tracks.mono (hclock hcalls)

/-- The word is a reading of the clock, converted. -/
theorem word (H : Timely clock s sensor log) :
    s.timeNow sensor = (UInt32.ofNat (lastStored log)).toInt32 := by
  have hword : (s.timeNow sensor).toUInt32 = UInt32.ofNat (lastStored log) :=
    UInt32.toBitVec_inj.mp H.tracks.word
  rw [← hword, Int32.toInt32_toUInt32]

theorem due_iff (H : Timely clock s sensor log)
    (hs : clock s.calls + 60000 < lastPoll log + 2 ^ 32) :
    Due (clock s.calls) (s.timeNow sensor) (s.period sensor) ↔
      lastStored log + 60000 < clock s.calls := by
  rw [H.period, Webserv.due_iff]
  exact H.tracks.fires_iff (Nat.le_refl _) hs

/-- A check of the timer. -/
theorem check (H : Timely clock s sensor log) (hclock : Monotone clock)
    (h : sensorBranch clock s inp sensor = (s', branch))
    (hs : Spaced (2 ^ 32) 60000 (log ++ [branch.poll])) :
    Timely clock s' sensor (log ++ [branch.poll]) := by
  obtain ⟨-, hpoll⟩ := spaced_snoc.mp hs
  refine ⟨(congrFun (sensorBranch_frame h).1 sensor).trans H.period, ?_⟩
  rcases sensorBranch_cases h with ⟨hdue, hcalls, htime, rfl⟩ | ⟨hdue, hcalls, htime, rfl⟩
  · rw [H.due_iff hpoll] at hdue
    rw [htime, UInt32.toUInt32_toInt32, hcalls]
    exact (H.tracks.fire (hclock (Nat.le_succ _)) hdue).mono (hclock (Nat.le_succ _))
  · rw [H.due_iff hpoll] at hdue
    rw [htime, hcalls]
    exact (H.tracks.skip (Nat.le_refl _) hdue).mono (hclock (Nat.le_succ _))

end Timely

/-- A branch whose timer is due when it should be does what it should. -/
theorem sensorBranch_eq (h : sensorBranch clock s inp sensor = (s', branch))
    (hcalls : s.calls = T.calls)
    (hdue : Due (clock s.calls) (s.timeNow sensor) (s.period sensor) ↔ T.Due clock 60000 sensor) :
    branch = branchOf clock T inp sensor ∧ s'.calls = (T.check clock 60000 sensor).calls := by
  rcases sensorBranch_cases h with ⟨hd, hcalls', -, rfl⟩ | ⟨hd, hcalls', -, rfl⟩
  · rw [hdue] at hd
    rw [branchOf, if_pos hd, Timers.check_of_due hd, hcalls', hcalls]
    exact ⟨rfl, rfl⟩
  · rw [hdue] at hd
    rw [branchOf, if_neg hd, Timers.check_of_not_due hd, hcalls', hcalls]
    exact ⟨rfl, rfl⟩

end

/-! ### The refinement -/

/-- The sketch has read the clock as often as the timers that are meant, and has stored what they
have. -/
structure Follows (clock : Nat → Nat) (T : Timers Sensor) (s : State) (log : Sensor → List Poll) :
    Prop where
  calls : s.calls = T.calls
  last : ∀ sensor, lastStored (log sensor) = T.last sensor
  timely : ∀ sensor, Timely clock s sensor (log sensor)

namespace Follows
variable {clock : Nat → Nat} {T : Timers Sensor} {s s' : State} {log : Sensor → List Poll}
variable {inp : Input} {inps : List Input} {branch : Branch} {sensor : Sensor} {pass : Pass}
variable {passes : List Pass}

theorem start (clock : Nat → Nat) : Follows clock {} {} fun _ => [] where
  calls := rfl
  last _ := rfl
  timely := Timely.start clock

theorem handleClient (H : Follows clock T s log) (hclock : Monotone clock)
    (h : handleClient s req = (s', served)) : Follows clock T s' log := by
  obtain ⟨hperiod, htime, hcalls⟩ := handleClient_frame h
  refine ⟨hcalls.trans H.calls, H.last, fun sensor => ?_⟩
  exact (H.timely sensor).frame hclock (congrFun htime sensor) hperiod (Nat.le_of_eq hcalls.symm)

/-- The check of one timer. -/
theorem check (H : Follows clock T s log) (hclock : Monotone clock)
    (h : sensorBranch clock s inp sensor = (s', branch))
    (hs : Spaced (2 ^ 32) 60000 (log sensor ++ [branch.poll])) :
    branch = branchOf clock T inp sensor ∧ Follows clock (T.check clock 60000 sensor) s'
      (Function.update log sensor (log sensor ++ [branch.poll])) := by
  obtain ⟨-, hpoll⟩ := spaced_snoc.mp hs
  have htime : branch.poll.time = clock s.calls := by
    rcases sensorBranch_cases h with ⟨-, -, -, rfl⟩ | ⟨-, -, -, rfl⟩ <;> rfl
  have hdue : Due (clock s.calls) (s.timeNow sensor) (s.period sensor) ↔
      T.Due clock 60000 sensor := by
    rw [htime] at hpoll
    rw [(H.timely sensor).due_iff hpoll, H.last, H.calls]
    rfl
  obtain ⟨hbranch, hcalls⟩ := sensorBranch_eq h H.calls hdue
  refine ⟨hbranch, hcalls, fun other => ?_, fun other => ?_⟩
  · by_cases hne : other = sensor
    · subst hne
      rw [Function.update_self, lastStored_snoc, H.last, hbranch, branchOf_stored]
    · rw [Function.update_of_ne hne, Timers.check_last_ne hne, H.last]
  · by_cases hne : other = sensor
    · subst hne
      rw [Function.update_self]
      exact (H.timely other).check hclock h hs
    · obtain ⟨hperiod, hframe⟩ := sensorBranch_frame h
      rw [Function.update_of_ne hne]
      refine (H.timely other).frame hclock (hframe other hne) hperiod ?_
      rw [hcalls, H.calls]
      exact Nat.le_of_lt Timers.calls_lt_check

/-- An iteration checks both timers. -/
theorem loop (H : Follows clock T s log) (hclock : Monotone clock)
    (hloop : loop clock s inp = some (s', pass))
    (hs : ∀ sensor, Spaced (2 ^ 32) 60000 (log sensor ++ [pass.poll sensor])) :
    (∀ sensor, pass.branch sensor = branchOf clock (beforeCheck clock T sensor) inp sensor) ∧
      Follows clock (iteration clock T) s' fun sensor => log sensor ++ [pass.poll sensor] := by
  obtain ⟨s₁, s₂, hclient, hdht, hds⟩ := loop_cases hloop
  obtain ⟨hbranch, H'⟩ := (H.handleClient hclock hclient).check hclock hdht (hs .dht)
  obtain ⟨hbranch', H''⟩ := H'.check hclock hds (hs .ds)
  refine ⟨fun sensor => ?_, ?_⟩
  · cases sensor with
    | dht => exact hbranch
    | ds => exact hbranch'
  · have hlog : (fun sensor => log sensor ++ [pass.poll sensor]) = Function.update
        (Function.update log .dht (log .dht ++ [pass.poll .dht])) .ds
        (log .ds ++ [pass.poll .ds]) := by
      funext sensor
      cases sensor <;> rfl
    rw [hlog]
    exact H''

/-- The iterations of a run; the induction carries the timers they begin with. -/
theorem run (H : Follows clock T s log) (hclock : Monotone clock)
    (hrun : runLoop clock s inps = some (s', passes))
    (hs : ∀ sensor, Spaced (2 ^ 32) 60000 (log sensor ++ passes.map (Pass.poll sensor))) :
    Follows clock ((iteration clock)^[inps.length] T) s'
        (fun sensor => log sensor ++ passes.map (Pass.poll sensor)) ∧
      ∀ n, ∀ inp ∈ inps[n]?, ∀ pass ∈ passes[n]?, ∀ sensor, pass.branch sensor =
        branchOf clock (beforeCheck clock ((iteration clock)^[n] T) sensor) inp sensor := by
  induction inps generalizing T s passes log with
  | nil =>
    cases hrun
    refine ⟨by simpa using H, fun n inp hinp => ?_⟩
    simp at hinp
  | cons inp inps ih =>
    obtain ⟨s₁, pass, passes', hloop, hrest, rfl⟩ := runLoop_cons hrun
    have hlog (sensor : Sensor) : log sensor ++ (pass :: passes').map (Pass.poll sensor) =
        log sensor ++ [pass.poll sensor] ++ passes'.map (Pass.poll sensor) := by
      rw [List.map_cons, List.append_cons]
    simp only [hlog] at hs ⊢
    obtain ⟨hbranch, H'⟩ := H.loop hclock hloop fun sensor => (hs sensor).left
    obtain ⟨Hend, hall⟩ := ih H' hrest hs
    rw [List.length_cons, Function.iterate_succ_apply]
    refine ⟨Hend, fun n inp' hinp pass' hpass sensor => ?_⟩
    cases n with
    | zero =>
      obtain rfl : inp = inp' := Option.some.inj hinp
      obtain rfl : pass = pass' := Option.some.inj hpass
      exact hbranch sensor
    | succ n =>
      rw [List.getElem?_cons_succ] at hinp hpass
      rw [Function.iterate_succ_apply]
      exact hall n inp' hinp pass' hpass sensor

end Follows

/-! ### Runs -/

/-- A clock that is so slow to read that it rolls over in the second iteration. -/
def slowClock (n : Nat) : Nat := (n + 2) * 1000000000

theorem monotone_slowClock : Monotone slowClock := by
  intro m n h
  unfold slowClock
  omega

theorem runLoop_slowClock : ∃ s' p q,
    runLoop slowClock {} [quiet, quiet] = some (s', [p, q]) ∧
      (∀ sensor, p.Publishes sensor ∧ q.Publishes sensor) ∧
      ∀ sensor, Spaced (2 ^ 32) 60000 ([p, q].map (Pass.poll sensor)) := by
  have hrun : runLoop slowClock {} [quiet, quiet] = some (_, [_, _]) := rfl
  refine ⟨_, _, _, hrun, fun sensor => ?_, fun sensor => ?_⟩
  · cases sensor <;> exact ⟨rfl, rfl⟩
  cases sensor
  all_goals
    change Spaced (2 ^ 32) 60000 ([] ++ [_] ++ [_])
    exact spaced_snoc.mpr ⟨spaced_snoc.mpr ⟨spaced_nil, by decide⟩, by decide⟩

section
variable {clock : Nat → Nat} {s' : State} {inps : List Input} {passes : List Pass} {pass : Pass}

theorem run_follows (hclock : Monotone clock) (hrun : runLoop clock {} inps = some (s', passes))
    (hs : ∀ sensor, Spaced (2 ^ 32) 60000 (passes.map (Pass.poll sensor))) :
    Follows clock ((iteration clock)^[inps.length] {}) s' (fun sensor =>
        passes.map (Pass.poll sensor)) ∧
      ∀ n, ∀ inp ∈ inps[n]?, ∀ pass ∈ passes[n]?, ∀ sensor,
        pass.branch sensor = branchOf clock (timersAt clock n sensor) inp sensor :=
  (Follows.start clock).run hclock hrun hs

theorem run_branch (hclock : Monotone clock) (hrun : runLoop clock {} inps = some (s', passes))
    (hs : ∀ sensor, Spaced (2 ^ 32) 60000 (passes.map (Pass.poll sensor)))
    (hpass : pass ∈ passes[n]?) (sensor : Sensor) :
    ∃ inp, pass.branch sensor = branchOf clock (timersAt clock n sensor) inp sensor := by
  obtain ⟨hn, -⟩ := List.getElem?_eq_some_iff.mp hpass
  have hn' : n < inps.length := by rwa [← runLoop_length hrun]
  exact ⟨_, (run_follows hclock hrun hs).2 n _ (List.getElem?_eq_getElem hn') pass hpass sensor⟩

/-- An iteration publishes a sensor exactly when the timer that is meant is due. -/
theorem run_publishes_iff (hclock : Monotone clock)
    (hrun : runLoop clock {} inps = some (s', passes))
    (hs : ∀ sensor, Spaced (2 ^ 32) 60000 (passes.map (Pass.poll sensor)))
    (hpass : pass ∈ passes[n]?) (sensor : Sensor) :
    pass.Publishes sensor ↔ (timersAt clock n sensor).Due clock 60000 sensor := by
  obtain ⟨inp, hbranch⟩ := run_branch hclock hrun hs hpass sensor
  rw [Pass.Publishes, hbranch, branchOf_published]

/-- More than a minute passes between two publications of a sensor, however often the clock rolls
over. -/
theorem publications_apart (hclock : Monotone clock)
    (hrun : runLoop clock {} inps = some (s', passes))
    (hs : ∀ sensor, Spaced (2 ^ 32) 60000 (passes.map (Pass.poll sensor))) (sensor : Sensor)
    (m n : Nat) (h : m < n) :
    ∀ p ∈ passes[m]?, p.Publishes sensor → ∀ q ∈ passes[n]?, q.Publishes sensor →
      clock (checkCall clock sensor m + 1) + 60000 < clock (checkCall clock sensor n) := by
  intro p hp hpublishes q hq hpublishes'
  rw [run_publishes_iff hclock hrun hs hp] at hpublishes
  rw [run_publishes_iff hclock hrun hs hq] at hpublishes'
  exact due_apart hclock h hpublishes hpublishes'

theorem publications_apart_slowClock : ∃ s' p q,
    runLoop slowClock {} [quiet, quiet] = some (s', [p, q]) ∧ ∀ sensor,
      p.Publishes sensor ∧ q.Publishes sensor ∧
        slowClock (checkCall slowClock sensor 0 + 1) + 60000 <
          slowClock (checkCall slowClock sensor 1) := by
  obtain ⟨s', p, q, hrun, hpublish, hs⟩ := runLoop_slowClock
  refine ⟨s', p, q, hrun, fun sensor => ?_⟩
  obtain ⟨hp, hq⟩ := hpublish sensor
  exact ⟨hp, hq, publications_apart monotone_slowClock hrun hs sensor 0 1 (by decide)
    p rfl hp q rfl hq⟩

/-- No sensor goes unpublished for more than a minute: of the iterations between two that check it
more than a minute apart, these included, one publishes it. -/
theorem publications_prompt (hclock : Monotone clock)
    (hrun : runLoop clock {} inps = some (s', passes))
    (hs : ∀ sensor, Spaced (2 ^ 32) 60000 (passes.map (Pass.poll sensor))) (sensor : Sensor)
    (m n : Nat) (h : m ≤ n) (hn : n < passes.length)
    (hlate : clock (checkCall clock sensor m) + 60000 < clock (checkCall clock sensor n)) :
    ∃ k, m ≤ k ∧ k ≤ n ∧ ∃ pass ∈ passes[k]?, pass.Publishes sensor := by
  by_contra hnone
  refine absurd (le_of_not_due hclock h fun k hk hkn hdue => hnone ?_) (Nat.not_le.mpr hlate)
  have hk' : k < passes.length := Nat.lt_of_le_of_lt hkn hn
  have hpass : passes[k] ∈ passes[k]? := List.getElem?_eq_getElem hk'
  exact ⟨k, hk, hkn, _, hpass, (run_publishes_iff hclock hrun hs hpass sensor).mpr hdue⟩

theorem publications_prompt_slowClock : ∃ s' passes,
    runLoop slowClock {} [quiet, quiet] = some (s', passes) ∧ ∀ sensor,
      ∃ k, 0 ≤ k ∧ k ≤ 1 ∧ ∃ pass ∈ passes[k]?, pass.Publishes sensor := by
  obtain ⟨s', p, q, hrun, -, hs⟩ := runLoop_slowClock
  refine ⟨s', [p, q], hrun, fun sensor => publications_prompt monotone_slowClock hrun hs sensor 0 1
    (Nat.zero_le 1) (Nat.lt_succ_self 1) ?_⟩
  cases sensor <;> decide

/-- A run keeps time on the clock. Each iteration publishes a sensor exactly when more than a minute
has passed, in true time, since the reading stored last; each branch reads the clock, stores and
publishes as it should; and the words that are stored are readings of the clock, converted. -/
structure OnTime (clock : Nat → Nat) (inps : List Input) (s' : State) (passes : List Pass) :
    Prop where
  length : passes.length = inps.length
  publishes : ∀ n, ∀ pass ∈ passes[n]?, ∀ sensor, pass.Publishes sensor ↔
    lastStored ((passes.take n).map (Pass.poll sensor)) + 60000 < (pass.poll sensor).time
  branch : ∀ n, ∀ inp ∈ inps[n]?, ∀ pass ∈ passes[n]?, ∀ sensor,
    pass.branch sensor = branchOf clock (timersAt clock n sensor) inp sensor
  word : ∀ sensor, s'.timeNow sensor =
    (UInt32.ofNat ((timersAt clock inps.length sensor).last sensor)).toInt32

/-- Every run keeps time, if it checks each timer often enough. -/
theorem publishes_iff_due (hclock : Monotone clock)
    (hrun : runLoop clock {} inps = some (s', passes))
    (hs : ∀ sensor, Spaced (2 ^ 32) 60000 (passes.map (Pass.poll sensor))) :
    OnTime clock inps s' passes := by
  obtain ⟨Hend, hall⟩ := run_follows hclock hrun hs
  refine ⟨runLoop_length hrun, fun n pass hpass sensor => ?_, hall, fun sensor => ?_⟩
  · obtain ⟨inp, hbranch⟩ := run_branch hclock hrun hs hpass sensor
    obtain ⟨hn, rfl⟩ := List.getElem?_eq_some_iff.mp hpass
    have hstored : (passes[n].branch sensor).published.isSome =
        (passes[n].poll sensor).stored.isSome := by
      rw [Pass.poll, hbranch, branchOf_isSome]
    have hsplit : passes.map (Pass.poll sensor) = (passes.take n).map (Pass.poll sensor) ++
        passes[n].poll sensor :: (passes.drop (n + 1)).map (Pass.poll sensor) := by
      rw [← List.map_cons, ← List.map_append, ← List.drop_eq_getElem_cons, List.take_append_drop]
    rw [← (Hend.timely sensor).tracks.schedule _ _ _ hsplit, Pass.Publishes, hstored]
  · rw [(Hend.timely sensor).word, Hend.last, timersAt, beforeCheck_last]

theorem publishes_iff_due_slowClock : ∃ s' passes,
    runLoop slowClock {} [quiet, quiet] = some (s', passes) ∧
      OnTime slowClock [quiet, quiet] s' passes := by
  obtain ⟨s', p, q, hrun, -, hs⟩ := runLoop_slowClock
  exact ⟨s', [p, q], hrun, publishes_iff_due monotone_slowClock hrun hs⟩

end

end D1Mini.Webserv
