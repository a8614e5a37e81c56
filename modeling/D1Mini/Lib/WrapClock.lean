import Mathlib.Algebra.Group.Nat.Defs
import Mathlib.Data.List.Induction
import Mathlib.Logic.Function.Basic
import Mathlib.Order.Monotone.Basic

/-! Timers that poll a clock of `w` bits. The true time is a natural number, the clock shows it
modulo `2 ^ w`, and a timer fires when the difference to the stored reading, taken in `w` bits,
exceeds its period. `Tracks.fires_iff` says that such a timer is right as long as it is polled often
enough, however often the clock has wrapped around. `Timers` are what is meant: they share a clock,
and keep true times. -/

namespace WrapClock

/-- A poll of a timer: its true time and, if the timer fired, that of the reading it stored. -/
structure Poll where
  time : Nat
  stored : Option Nat
deriving DecidableEq, Repr

/-- The true time of the reading stored last; the timer starts with a zero stored at time zero. -/
def lastStored (log : List Poll) : Nat := log.foldl (fun last p => p.stored.getD last) 0

def lastPoll (log : List Poll) : Nat := log.foldl (fun _ p => p.time) 0

/-- From one poll to the next, and to the first one, less than `range` minus the period passes. -/
def Spaced (range period : Nat) (log : List Poll) : Prop :=
  ∀ pre p post, log = pre ++ p :: post → p.time + period < lastPoll pre + range

/-- What a poll stores is read from the clock after its test. -/
def StoresLater (log : List Poll) : Prop := ∀ p ∈ log, ∀ r ∈ p.stored, p.time ≤ r

/-- Each poll fires exactly when more than the period has passed since the reading stored last. -/
def OnSchedule (period : Nat) (log : List Poll) : Prop :=
  ∀ pre p post, log = pre ++ p :: post → (p.stored.isSome ↔ lastStored pre + period < p.time)

section
variable {range period : Nat} {log : List Poll} {p : Poll}

theorem lastStored_snoc : lastStored (log ++ [p]) = p.stored.getD (lastStored log) := by
  simp [lastStored]

theorem lastPoll_snoc : lastPoll (log ++ [p]) = p.time := by simp [lastPoll]

/-- The decompositions of a list with one more element at the end. -/
theorem forall_snoc {P : List α → α → Prop} {as : List α} {a : α} :
    (∀ pre x post, as ++ [a] = pre ++ x :: post → P pre x) ↔
      (∀ pre x post, as = pre ++ x :: post → P pre x) ∧ P as a := by
  constructor
  · refine fun h => ⟨fun pre x post he => ?_, h as a [] rfl⟩
    exact h pre x (post ++ [a]) (by rw [he, List.append_assoc, List.cons_append])
  · rintro ⟨h, ha⟩ pre x post he
    rcases List.eq_nil_or_concat post with rfl | ⟨post, b, rfl⟩
    · obtain ⟨rfl, h⟩ := List.append_inj' he rfl
      cases h
      exact ha
    · rw [List.concat_eq_append, ← List.cons_append, ← List.append_assoc] at he
      exact h pre x post (List.append_inj' he rfl).1

theorem spaced_nil : Spaced range period [] := by
  intro pre p post h
  simp at h

theorem spaced_snoc : Spaced range period (log ++ [p]) ↔
    Spaced range period log ∧ p.time + period < lastPoll log + range := forall_snoc

theorem Spaced.left {log' : List Poll} (h : Spaced range period (log ++ log')) :
    Spaced range period log := by
  intro pre p post he
  exact h pre p (post ++ log') (by rw [he, List.append_assoc, List.cons_append])

theorem onSchedule_nil : OnSchedule period [] := by
  intro pre p post h
  simp at h

theorem onSchedule_snoc : OnSchedule period (log ++ [p]) ↔ OnSchedule period log ∧
    (p.stored.isSome ↔ lastStored log + period < p.time) := forall_snoc

theorem storesLater_append {log' : List Poll} :
    StoresLater (log ++ log') ↔ StoresLater log ∧ StoresLater log' := List.forall_mem_append

/-- The last poll was not due, or stored a later reading. -/
theorem OnSchedule.lastPoll_le (h : OnSchedule period log) (hl : StoresLater log) :
    lastPoll log ≤ lastStored log + period := by
  induction log using List.reverseRecOn with
  | nil => exact Nat.zero_le _
  | append_singleton log p _ =>
    have hp := (onSchedule_snoc.mp h).2
    have hlp := (storesLater_append.mp hl).2 p List.mem_cons_self
    rw [lastPoll_snoc, lastStored_snoc]
    cases hr : p.stored with
    | none =>
      rw [hr, Option.isSome_none] at hp
      exact Nat.le_of_not_lt fun hdue => Bool.noConfusion (hp.mpr hdue)
    | some r =>
      have := hlp r hr
      rw [Option.getD_some]
      omega

end

/-- A difference of readings is the time between them when that is in range. -/
theorem elapsed {w s t : Nat} (h : s ≤ t) (h' : t < s + 2 ^ w) :
    (BitVec.ofNat w t - BitVec.ofNat w s).toNat = t - s := by
  obtain ⟨d, rfl⟩ := Nat.exists_eq_add_of_le h
  rw [BitVec.ofNat_add, BitVec.add_comm, BitVec.add_sub_cancel, BitVec.toNat_ofNat,
    Nat.mod_eq_of_lt (by omega), Nat.add_sub_cancel_left]

/-- The word a timer has stored is the reading of the true time stored last, which does not lie
after `now`. -/
structure Tracks (w period : Nat) (word : BitVec w) (now : Nat) (log : List Poll) : Prop where
  word : word = BitVec.ofNat w (lastStored log)
  past : lastStored log ≤ now
  later : StoresLater log
  schedule : OnSchedule period log

namespace Tracks
variable {w period now t r : Nat} {word : BitVec w} {log : List Poll}

theorem init : Tracks w period 0 0 [] where
  word := by simp [lastStored]
  past := Nat.le_refl _
  later := by simp [StoresLater]
  schedule := onSchedule_nil

theorem mono (H : Tracks w period word now log) (h : now ≤ t) : Tracks w period word t log :=
  { H with past := Nat.le_trans H.past h }

/-- The timer fires exactly when it is due. -/
theorem fires_iff (H : Tracks w period word now log) (h : now ≤ t)
    (hs : t + period < lastPoll log + 2 ^ w) :
    period < (BitVec.ofNat w t - word).toNat ↔ lastStored log + period < t := by
  have hpast := H.past
  have hpoll := H.schedule.lastPoll_le H.later
  rw [H.word, elapsed (by omega) (by omega)]
  omega

/-- A poll that does not fire. -/
theorem skip (H : Tracks w period word now log) (h : now ≤ t)
    (hd : ¬ lastStored log + period < t) : Tracks w period word t (log ++ [⟨t, none⟩]) where
  word := by rw [lastStored_snoc]; exact H.word
  past := by rw [lastStored_snoc]; exact Nat.le_trans H.past h
  later := storesLater_append.mpr ⟨H.later, by simp [StoresLater]⟩
  schedule := onSchedule_snoc.mpr ⟨H.schedule, by simpa using hd⟩

/-- A poll that fires, and stores a second reading of the clock. -/
theorem fire (H : Tracks w period word now log) (h : t ≤ r)
    (hd : lastStored log + period < t) :
    Tracks w period (BitVec.ofNat w r) r (log ++ [⟨t, some r⟩]) where
  word := by rw [lastStored_snoc]; rfl
  past := by rw [lastStored_snoc]; exact Nat.le_refl _
  later := storesLater_append.mpr ⟨H.later, by simpa [StoresLater] using h⟩
  schedule := onSchedule_snoc.mpr ⟨H.schedule, by simpa using hd⟩

end Tracks

/-! ### Timers that keep true times -/

/-- Timers that share a clock: how often it has been read, and the true times they stored last. -/
structure Timers (ι : Type u) where
  calls : Nat := 0
  last : ι → Nat := fun _ => 0

namespace Timers
variable {ι : Type u} [DecidableEq ι] {clock : Nat → Nat} {period : Nat} {T : Timers ι} {i j : ι}

/-- More than the period has passed since the timer stored a reading. -/
def Due (clock : Nat → Nat) (period : Nat) (T : Timers ι) (i : ι) : Prop :=
  T.last i + period < clock T.calls

instance : Decidable (T.Due clock period i) := inferInstanceAs (Decidable (_ < _))

/-- A timer that is due when it is checked stores the next reading of the clock. -/
def check (clock : Nat → Nat) (period : Nat) (T : Timers ι) (i : ι) : Timers ι :=
  if T.Due clock period i then
    { calls := T.calls + 2, last := Function.update T.last i (clock (T.calls + 1)) }
  else { T with calls := T.calls + 1 }

theorem check_of_due (h : T.Due clock period i) : T.check clock period i =
    { calls := T.calls + 2, last := Function.update T.last i (clock (T.calls + 1)) } := if_pos h

theorem check_of_not_due (h : ¬ T.Due clock period i) :
    T.check clock period i = { T with calls := T.calls + 1 } := if_neg h

theorem calls_lt_check : T.calls < (T.check clock period i).calls := by
  unfold check
  split
  · exact Nat.lt_add_of_pos_right (by decide)
  · exact Nat.lt_succ_self _

theorem check_last_of_due (h : T.Due clock period i) :
    (T.check clock period i).last i = clock (T.calls + 1) := by
  rw [check_of_due h]
  exact Function.update_self i _ T.last

theorem check_last_of_not_due (h : ¬ T.Due clock period i) :
    (T.check clock period i).last i = T.last i := by rw [check_of_not_due h]

theorem check_last_ne (h : j ≠ i) : (T.check clock period i).last j = T.last j := by
  unfold check
  split
  · exact Function.update_of_ne h _ _
  · rfl

/-- The readings that are stored do not lie in the future. -/
def Sound (clock : Nat → Nat) (T : Timers ι) : Prop := ∀ i, T.last i ≤ clock T.calls

omit [DecidableEq ι] in
theorem sound_init : Sound clock ({} : Timers ι) := fun _ => Nat.zero_le _

theorem Sound.check (H : T.Sound clock) (hclock : Monotone clock) :
    (T.check clock period i).Sound clock := by
  intro j
  by_cases hj : j = i
  · subst hj
    by_cases hdue : T.Due clock period j
    · rw [check_last_of_due hdue, check_of_due hdue]
      exact hclock (Nat.le_succ _)
    · rw [check_last_of_not_due hdue]
      exact Nat.le_trans (H j) (hclock (Nat.le_of_lt calls_lt_check))
  · rw [check_last_ne hj]
    exact Nat.le_trans (H j) (hclock (Nat.le_of_lt calls_lt_check))

theorem Sound.last_le_check (H : T.Sound clock) (hclock : Monotone clock) :
    T.last j ≤ (T.check clock period i).last j := by
  by_cases hj : j = i
  · subst hj
    by_cases hdue : T.Due clock period j
    · rw [check_last_of_due hdue]
      exact Nat.le_trans (H j) (hclock (Nat.le_succ _))
    · rw [check_last_of_not_due hdue]
  · rw [check_last_ne hj]

end Timers

end WrapClock
