import Mathlib.Logic.Function.Basic
import Mathlib.Logic.Function.Iterate
import D1Mini.Lib.EventMachine
import D1Mini.Lib.Interleaving
import D1Mini.Arduino.Port

/-!
# The three-port relay `hc-05_arduino_uno.ino`

`loop()` polls `RCcar`, `Remote` and `Serial` in turn and copies a byte read from one to the other
two through the global `holder`. The model takes one statement a step, so that bytes may arrive
between any two statements. What a port writes is tagged with the port the byte was read from.

* `Relay.Inv` ties each log to the bytes consumed from the two other ports, up to the byte that is
  in flight in `holder`;
* `Relay.lossless` reads it off at the start of `loop()`;
* `Relay.iterate_loop_unread` counts how fast the FIFOs drain.
-/

namespace D1Mini
open EventMachine

/-- The three ports of the sketch. -/
inductive PortName
  | rcCar | remote | serial
deriving DecidableEq, Repr

/-- A written byte, with the port it was read from. -/
structure Tagged where
  origin : PortName
  byte : UInt8
deriving DecidableEq, Repr

namespace PortName

/-- The two ports a byte read from `p` is written to, in the order of the source. -/
def sinks : PortName → PortName × PortName
  | rcCar => (remote, serial)
  | remote => (rcCar, serial)
  | serial => (rcCar, remote)

/-- The port whose `if` follows that of `p`; after `Serial` the next `loop()` begins. -/
def next : PortName → PortName
  | rcCar => remote
  | remote => serial
  | serial => rcCar

theorem sinks_fst_ne (p : PortName) : p.sinks.1 ≠ p := by cases p <;> decide

theorem sinks_snd_ne (p : PortName) : p.sinks.2 ≠ p := by cases p <;> decide

theorem sinks_ne (p : PortName) : p.sinks.1 ≠ p.sinks.2 := by cases p <;> decide

theorem eq_sinks {p q : PortName} (h : p ≠ q) : q = p.sinks.1 ∨ q = p.sinks.2 := by
  cases p <;> cases q <;> simp_all [sinks]

end PortName

/-- The statements of one `if` of `loop()`: the test, `holder = S.read()` and the two writes. -/
inductive Stage
  | test | read | writeFirst | writeSecond
deriving DecidableEq, Repr

/-- The sketch between two statements: the next one is `stage` of the `if` for port `branch`.
`origin` is a ghost, the port `holder` was last read from. -/
structure Relay where
  branch : PortName
  stage : Stage
  port : PortName → Port Tagged
  holder : Int8
  origin : PortName

namespace Relay

/-- What can happen next: a byte arrives at a port, or the sketch executes a statement. -/
inductive Event
  | arrive (p : PortName) (b : UInt8)
  | exec
deriving DecidableEq, Repr

/-- The state after `setup()`. The initial `holder` is whatever byte `"empty"` decays to. -/
def start (holder : Int8) : Relay where
  branch := .rcCar
  stage := .test
  port := fun _ => {}
  holder := holder
  origin := .rcCar

def setPort (s : Relay) (p : PortName) (q : Port Tagged) : Relay :=
  { s with port := Function.update s.port p q }

/-- `P.write(holder)`. -/
def write (s : Relay) (p : PortName) : Relay :=
  s.setPort p ((s.port p).write ⟨s.origin, s.holder.toUInt8⟩)

/-- One statement of `loop()`. -/
def exec (s : Relay) : Relay :=
  match s.stage with
  | .test =>
    if (s.port s.branch).available ≠ 0 then { s with stage := .read }
    else { s with branch := s.branch.next }
  | .read =>
    let r := (s.port s.branch).read
    { s.setPort s.branch r.2 with
      holder := Int8.ofInt r.1, origin := s.branch, stage := .writeFirst }
  | .writeFirst => { s.write s.branch.sinks.1 with stage := .writeSecond }
  | .writeSecond => { s.write s.branch.sinks.2 with branch := s.branch.next, stage := .test }

def step (s : Relay) : Event → Relay
  | .arrive p b => s.setPort p ((s.port p).receive b)
  | .exec => s.exec

/-- The next statement is the first one of `loop()`. -/
def AtStart (s : Relay) : Prop := s.branch = .rcCar ∧ s.stage = .test

/-- The whole `if` for the port `branch`, with no arrival in between. -/
def ifAvailable (s : Relay) : Relay :=
  if (s.port s.branch).available ≠ 0 then s.exec.exec.exec.exec else s.exec

/-- One execution of `loop()` during which no byte arrives. -/
def loop (s : Relay) : Relay := s.ifAvailable.ifAvailable.ifAvailable

/-- The bytes of a log that came from `p`. -/
def bytesFrom (p : PortName) (log : List Tagged) : List UInt8 :=
  (log.filter (·.origin = p)).map (·.byte)

/-- The bytes that arrive at `p` in a sequence of events. -/
def arrivals (p : PortName) (es : List Event) : List UInt8 :=
  es.filterMap fun
    | .arrive q b => if q = p then some b else none
    | .exec => none

@[simp] theorem setPort_port (s : Relay) (p : PortName) (q : Port Tagged) :
    (s.setPort p q).port = Function.update s.port p q := rfl

@[simp] theorem setPort_branch (s : Relay) : (s.setPort p q).branch = s.branch := rfl

@[simp] theorem setPort_holder (s : Relay) : (s.setPort p q).holder = s.holder := rfl

@[simp] theorem bytesFrom_nil : bytesFrom p [] = [] := rfl

theorem bytesFrom_snoc : bytesFrom p (log ++ [⟨o, b⟩]) =
    bytesFrom p log ++ if o = p then [b] else [] := by
  unfold bytesFrom; split <;> simp [*]

theorem arrivals_arrive :
    arrivals p (.arrive q b :: es) = (if q = p then [b] else []) ++ arrivals p es := by
  by_cases h : q = p <;> simp [arrivals, h]

theorem arrivals_exec : arrivals p (.exec :: es) = arrivals p es := by simp [arrivals]

/-! ### The invariant -/

variable {s : Relay}

/-- The byte consumed from `S` that has not reached the log of `P` yet. -/
def inFlight (s : Relay) (S P : PortName) : List UInt8 :=
  match s.stage with
  | .test | .read => []
  | .writeFirst => if s.branch = S then [s.holder.toUInt8] else []
  | .writeSecond => if s.branch = S ∧ P = S.sinks.2 then [s.holder.toUInt8] else []

structure Inv (s : Relay) : Prop where
  stream : ∀ S P, S ≠ P →
    (s.port S).consumed = bytesFrom S (s.port P).log ++ s.inFlight S P
  noEcho : ∀ P, bytesFrom P (s.port P).log = []
  ready : s.stage = .read → (s.port s.branch).unread ≠ []
  tagged : s.stage = .writeFirst ∨ s.stage = .writeSecond → s.origin = s.branch

theorem inv_start (holder : Int8) : (start holder).Inv := by
  constructor <;> simp [start, inFlight]

theorem receive_consumed (s : Relay) (p S : PortName) (b : UInt8) :
    ((s.step (.arrive p b)).port S).consumed = (s.port S).consumed := by
  by_cases h : S = p <;> simp [step, h]

theorem receive_log (s : Relay) (p S : PortName) (b : UInt8) :
    ((s.step (.arrive p b)).port S).log = (s.port S).log := by
  by_cases h : S = p <;> simp [step, h]

theorem receive_unread (s : Relay) (p S : PortName) (b : UInt8) :
    ((s.step (.arrive p b)).port S).unread = (s.port S).unread ++ if p = S then [b] else [] := by
  by_cases h : S = p <;> simp [step, h, Ne.symm]

theorem inv_arrive (H : s.Inv) (p : PortName) (b : UInt8) : (s.step (.arrive p b)).Inv where
  stream S P hne := by
    rw [receive_consumed, receive_log]
    exact H.stream S P hne
  noEcho P := by rw [receive_log]; exact H.noEcho P
  ready h := by
    change ((s.step (.arrive p b)).port s.branch).unread ≠ []
    rw [receive_unread]
    simp [H.ready h]
  tagged h := H.tagged h

theorem write_consumed (s : Relay) (p S : PortName) :
    ((s.write p).port S).consumed = (s.port S).consumed := by
  by_cases h : S = p <;> simp [write, h]

theorem write_unread (s : Relay) (p S : PortName) :
    ((s.write p).port S).unread = (s.port S).unread := by
  by_cases h : S = p <;> simp [write, h]

/-- What a write of the byte in flight adds to the stream from `S` to `P`. -/
theorem write_bytesFrom (s : Relay) (p S P : PortName) :
    bytesFrom S ((s.write p).port P).log =
      bytesFrom S (s.port P).log ++ if P = p ∧ s.origin = S then [s.holder.toUInt8] else [] := by
  by_cases h : P = p
  · subst h; simp [write, bytesFrom_snoc]
  · simp [write, h]

/-- A statement of `loop()` loses no received byte and makes none up. -/
theorem exec_stream (s : Relay) (p : PortName) :
    (s.exec.port p).consumed ++ (s.exec.port p).unread =
      (s.port p).consumed ++ (s.port p).unread := by
  cases h : s.stage with
  | test => simp only [exec, h]; split <;> rfl
  | read =>
    by_cases hp : p = s.branch
    · subst hp; simp [exec, h, Port.read_stream]
    · simp [exec, h, hp]
  | writeFirst | writeSecond =>
    simp only [exec, h]
    rw [write_consumed, write_unread]

theorem inv_test (H : s.Inv) (h : s.stage = .test) : s.exec.Inv := by
  simp only [exec, h]
  split <;> rename_i hav
  · refine ⟨fun S P hne => ?_, H.noEcho, fun _ => by simpa using hav, by simp⟩
    simpa [inFlight, h] using H.stream S P hne
  · refine ⟨fun S P hne => ?_, H.noEcho, by simp, by simp⟩
    simpa [inFlight, h] using H.stream S P hne

theorem inv_read (H : s.Inv) (h : s.stage = .read) : s.exec.Inv := by
  obtain ⟨b, bs, hu⟩ := List.exists_cons_of_ne_nil (H.ready h)
  simp only [exec, h, Port.read_of_cons _ hu]
  refine ⟨fun S P hne => ?_, fun P => ?_, by simp, by simp⟩
  · have hs := H.stream S P hne
    by_cases hS : S = s.branch
    · subst hS; simp_all [inFlight, Ne.symm hne]
    · have hS' : s.branch ≠ S := fun h => hS h.symm
      by_cases hP : P = s.branch <;> simp_all [inFlight]
  · have hs := H.noEcho P
    by_cases hP : P = s.branch <;> simp_all

theorem inv_writeFirst (H : s.Inv) (h : s.stage = .writeFirst) : s.exec.Inv := by
  have ho := H.tagged (.inl h)
  simp only [exec, h]
  refine ⟨fun S P hne => ?_, fun P => ?_, by simp, fun _ => ho⟩
  · change ((s.write _).port S).consumed = bytesFrom S ((s.write _).port P).log ++ _
    rw [write_consumed, write_bytesFrom, H.stream S P hne, ho]
    by_cases hS : s.branch = S
    · subst hS
      rcases PortName.eq_sinks hne with rfl | rfl
      · simp [inFlight, h, PortName.sinks_ne]
      · simp [inFlight, h, (PortName.sinks_ne _).symm, write]
    · simp [inFlight, h, hS, write]
  · change bytesFrom P ((s.write _).port P).log = []
    rw [write_bytesFrom, H.noEcho, ho,
      if_neg (fun hP => PortName.sinks_fst_ne _ (hP.1 ▸ hP.2).symm)]
    rfl

theorem inv_writeSecond (H : s.Inv) (h : s.stage = .writeSecond) : s.exec.Inv := by
  have ho := H.tagged (.inr h)
  simp only [exec, h]
  refine ⟨fun S P hne => ?_, fun P => ?_, by simp, by simp⟩
  · change ((s.write _).port S).consumed = bytesFrom S ((s.write _).port P).log ++ _
    rw [write_consumed, write_bytesFrom, H.stream S P hne, ho]
    by_cases hS : s.branch = S
    · subst hS; simp [inFlight, h]
    · simp [inFlight, h, hS]
  · change bytesFrom P ((s.write _).port P).log = []
    rw [write_bytesFrom, H.noEcho, ho,
      if_neg (fun hP => PortName.sinks_snd_ne _ (hP.1 ▸ hP.2).symm)]
    rfl

theorem inv_step (s : Relay) (e : Event) (H : s.Inv) : (s.step e).Inv := by
  cases e with
  | arrive p b => exact inv_arrive H p b
  | exec =>
    cases h : s.stage with
    | test => exact inv_test H h
    | read => exact inv_read H h
    | writeFirst => exact inv_writeFirst H h
    | writeSecond => exact inv_writeSecond H h

theorem inv_run (holder : Int8) (es : List Event) : (run step (start holder) es).Inv :=
  run_invariant inv_step (inv_start holder)

/-- Every port's bytes are consumed in the order in which they arrived. -/
theorem consumed_append_unread (s : Relay) (p : PortName) (es : List Event) :
    ((run step s es).port p).consumed ++ ((run step s es).port p).unread =
      (s.port p).consumed ++ (s.port p).unread ++ arrivals p es := by
  induction es generalizing s with
  | nil => simp [arrivals]
  | cons e es ih =>
    rw [run_cons, ih]
    cases e with
    | arrive q b =>
      rw [receive_consumed, receive_unread, arrivals_arrive]
      simp only [List.append_assoc]
    | exec =>
      change (s.exec.port p).consumed ++ (s.exec.port p).unread ++ _ = _
      rw [exec_stream, arrivals_exec]

/-! ### What the logs hold at the start of `loop()` -/

/-- The relay is lossless and echo-free: each log is a merge of what was consumed from the two
other ports, each stream complete and in order. -/
structure Lossless (s : Relay) : Prop where
  stream : ∀ S P, S ≠ P → bytesFrom S (s.port P).log = (s.port S).consumed
  noEcho : ∀ P, ∀ x ∈ (s.port P).log, x.origin ≠ P
  merge : ∀ P, Interleaving (s.port P.sinks.1).consumed (s.port P.sinks.2).consumed
    ((s.port P).log.map (·.byte))

theorem bytesFrom_eq_nil : bytesFrom p log = [] ↔ ∀ x ∈ log, x.origin ≠ p := by
  simp [bytesFrom]

theorem lossless (H : s.Inv) (h : s.AtStart) : s.Lossless := by
  have stream : ∀ S P, S ≠ P → bytesFrom S (s.port P).log = (s.port S).consumed := by
    intro S P hne
    simpa [inFlight, h.2] using (H.stream S P hne).symm
  have noEcho : ∀ P, ∀ x ∈ (s.port P).log, x.origin ≠ P :=
    fun P => bytesFrom_eq_nil.mp (H.noEcho P)
  refine ⟨stream, noEcho, fun P => ?_⟩
  rw [← stream _ P (PortName.sinks_fst_ne P), ← stream _ P (PortName.sinks_snd_ne P)]
  refine (Interleaving.of_filter fun x hx => ?_).map _
  have hne := noEcho P x hx
  have h12 := PortName.sinks_ne P
  rcases PortName.eq_sinks hne.symm with ho | ho <;> simp [ho, h12, h12.symm]

/-! ### Draining the FIFOs -/

/-- Only `holder = S.read()` pops a FIFO. -/
theorem exec_unread (s : Relay) (P : PortName) : (s.exec.port P).unread =
    if s.stage = .read ∧ P = s.branch then (s.port P).unread.tail else (s.port P).unread := by
  cases h : s.stage with
  | test => simp only [exec, h]; split <;> simp
  | read =>
    by_cases hP : P = s.branch
    · subst hP; simp [exec, h, Port.read_unread]
    · simp [exec, h, hP]
  | writeFirst | writeSecond => simp [exec, h, write_unread]

theorem exec_read (h : s.stage = .read) :
    s.exec.stage = .writeFirst ∧ s.exec.branch = s.branch := by simp [exec, h]

theorem exec_writeFirst (h : s.stage = .writeFirst) :
    s.exec.stage = .writeSecond ∧ s.exec.branch = s.branch := by simp [exec, h, write]

theorem exec_writeSecond (h : s.stage = .writeSecond) :
    s.exec.stage = .test ∧ s.exec.branch = s.branch.next := by simp [exec, h]

/-- The `if` at `s.branch` pops one byte of that port's FIFO, if there is one, and leaves the
other FIFOs as they are. -/
theorem ifAvailable_spec (h : s.stage = .test) :
    s.ifAvailable.stage = .test ∧ s.ifAvailable.branch = s.branch.next ∧
      ∀ P, (s.ifAvailable.port P).unread =
        if P = s.branch then (s.port P).unread.tail else (s.port P).unread := by
  unfold ifAvailable
  split <;> rename_i hav
  · have h1 : s.exec = { s with stage := .read } := by simp only [exec, h, if_pos hav]
    obtain ⟨h2, hb2⟩ := exec_read (s := s.exec) (by rw [h1])
    obtain ⟨h3, hb3⟩ := exec_writeFirst h2
    obtain ⟨h4, hb4⟩ := exec_writeSecond h3
    refine ⟨h4, by rw [hb4, hb3, hb2, h1], fun P => ?_⟩
    rw [exec_unread, exec_unread, exec_unread s.exec, exec_unread s, h3, h2, h1, h]
    simp
  · have h1 : s.exec = { s with branch := s.branch.next } := by simp only [exec, h, if_neg hav]
    refine ⟨by rw [h1]; exact h, by rw [h1], fun P => ?_⟩
    have hnil : (s.port s.branch).unread = [] := by simpa using hav
    rw [h1]
    split
    · subst P; simp [hnil]
    · rfl

theorem loop_spec (h : s.AtStart) :
    s.loop.AtStart ∧ ∀ P, (s.loop.port P).unread = (s.port P).unread.tail := by
  obtain ⟨h1, hb1, hu1⟩ := ifAvailable_spec h.2
  obtain ⟨h2, hb2, hu2⟩ := ifAvailable_spec h1
  obtain ⟨h3, hb3, hu3⟩ := ifAvailable_spec h2
  rw [hb2, hb1, h.1] at hb3
  refine ⟨⟨hb3, h3⟩, fun P => ?_⟩
  rw [loop, hu3, hu2, hu1, hb2, hb1, h.1]
  cases P <;> simp [PortName.next]

theorem iterate_loop_unread (h : s.AtStart) (m : Nat) :
    (loop^[m] s).AtStart ∧ ∀ P, ((loop^[m] s).port P).unread = (s.port P).unread.drop m := by
  induction m generalizing s with
  | zero => exact ⟨h, fun P => rfl⟩
  | succ m ih =>
    obtain ⟨hl, hu⟩ := loop_spec h
    obtain ⟨hm, hd⟩ := ih hl
    refine ⟨hm, fun P => ?_⟩
    rw [Function.iterate_succ_apply, hd, hu, List.drop_tail]

theorem inv_loop (H : s.Inv) : s.loop.Inv := by
  have hif (s : Relay) (H : s.Inv) : s.ifAvailable.Inv := by
    unfold ifAvailable
    split
    · exact inv_step _ .exec (inv_step _ .exec (inv_step _ .exec (inv_step _ .exec H)))
    · exact inv_step _ .exec H
  exact hif _ (hif _ (hif _ H))

theorem inv_iterate_loop (H : s.Inv) (m : Nat) : (loop^[m] s).Inv := by
  induction m generalizing s with
  | zero => exact H
  | succ m ih => exact ih (inv_loop H)

/-- The number of bytes waiting in the fullest of the three FIFOs. -/
def backlog (s : Relay) : Nat :=
  max (s.port .rcCar).available (max (s.port .remote).available (s.port .serial).available)

theorem backlog_le : s.backlog ≤ m ↔ ∀ P, (s.port P).unread.length ≤ m := by
  simp only [backlog, Port.available, Nat.max_le]
  constructor
  · rintro ⟨h1, h2, h3⟩ P
    cases P <;> assumption
  · exact fun h => ⟨h _, h _, h _⟩

/-- Whatever arrives in between, whenever `loop()` is at its start every byte has been relayed to
exactly the two other ports, in order. Further executions come back to the start and relay as well,
and `backlog` of them empty the FIFOs, none fewer. -/
theorem relay_lossless (holder : Int8) (es : List Event)
    (h : (run step (start holder) es).AtStart) :
    let s := run step (start holder) es
    (∀ p, (s.port p).consumed ++ (s.port p).unread = arrivals p es) ∧ s.Lossless ∧
      ((∀ p, arrivals p es = []) → ∀ p, (s.port p).log = []) ∧
      ∀ m, (loop^[m] s).AtStart ∧ (loop^[m] s).Lossless ∧
        ((∀ p, ((loop^[m] s).port p).unread = []) ↔ s.backlog ≤ m) := by
  intro s
  have received : ∀ p, (s.port p).consumed ++ (s.port p).unread = arrivals p es :=
    fun p => consumed_append_unread (start holder) p es
  have hl : s.Lossless := lossless (inv_run holder es) h
  refine ⟨received, hl, fun hnil p => ?_, fun m => ?_⟩
  · have hc : ∀ q, (s.port q).consumed = [] := fun q =>
      (List.append_eq_nil_iff.mp ((received q).trans (hnil q))).1
    have := (hl.merge p).length_eq
    simpa [hc] using this
  · obtain ⟨hstart, hunread⟩ := iterate_loop_unread h m
    refine ⟨hstart, lossless (inv_iterate_loop (inv_run holder es) m) hstart, ?_⟩
    rw [backlog_le]
    refine forall_congr' fun p => ?_
    rw [hunread, List.drop_eq_nil_iff]

/-- A byte above 127 arrives at `RCcar`, another at `Remote` while the first one is relayed. -/
theorem relay_lossless_two_bytes :
    (run step (start 0) [.arrive .rcCar 200, .exec, .exec, .arrive .remote 255, .exec, .exec,
      .exec, .exec, .exec, .exec, .exec]).Lossless :=
  (relay_lossless 0 _ ⟨rfl, rfl⟩).2.1

end Relay

end D1Mini
