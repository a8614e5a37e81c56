import D1Mini.Lib.EventMachine
import D1Mini.Lib.Interleaving
import D1Mini.Arduino.Port

/-!
# The setup bridge `hc-05_setup_connection.ino`

`loop()` is meant to forward each byte of `RCcar` to `Remote` and of `Remote` to `RCcar`, and to
mirror both to `Serial`. The `if`s have no braces, so each guards the forwarding statement alone:
the mirroring statement always runs, and it reads the port a second time.

`Bridge.loop_spec` says what one execution does to the two FIFOs and the three logs, and
`Bridge.forwards_iff` when a whole sequence of events is forwarded and mirrored as intended.
-/

namespace D1Mini
open EventMachine

/-- The two SoftwareSerial ports of the sketch and the log of `Serial`. -/
structure Bridge where
  rcCar : Port UInt8 := {}
  remote : Port UInt8 := {}
  serial : List UInt8 := []
deriving DecidableEq, Repr

namespace Bridge

inductive Event
  | arriveRcCar (b : UInt8)
  | arriveRemote (b : UInt8)
  | loop
deriving DecidableEq, Repr

/-- `if (RCcar.available()) Remote.write(RCcar.read());` -/
def forwardRcCar (s : Bridge) : Bridge :=
  if s.rcCar.available ≠ 0 then
    let r := s.rcCar.read
    { s with rcCar := r.2, remote := s.remote.write (UInt8.ofInt r.1) }
  else s

/-- `Serial.write(RCcar.read());`, which is not part of the `if` above it. -/
def mirrorRcCar (s : Bridge) : Bridge :=
  let r := s.rcCar.read
  { s with rcCar := r.2, serial := s.serial ++ [UInt8.ofInt r.1] }

/-- `if (Remote.available()) RCcar.write(Remote.read());` -/
def forwardRemote (s : Bridge) : Bridge :=
  if s.remote.available ≠ 0 then
    let r := s.remote.read
    { s with remote := r.2, rcCar := s.rcCar.write (UInt8.ofInt r.1) }
  else s

/-- `Serial.write(Remote.read());` -/
def mirrorRemote (s : Bridge) : Bridge :=
  let r := s.remote.read
  { s with remote := r.2, serial := s.serial ++ [UInt8.ofInt r.1] }

def loop (s : Bridge) : Bridge := s.forwardRcCar.mirrorRcCar.forwardRemote.mirrorRemote

def step (s : Bridge) : Event → Bridge
  | .arriveRcCar b => { s with rcCar := s.rcCar.receive b }
  | .arriveRemote b => { s with remote := s.remote.receive b }
  | .loop => s.loop

/-! ### One execution of `loop()` -/

/-- The forwarding and the mirroring statement together pop up to two bytes of the FIFO, forward
the first one and mirror the second one, or 255 when there is none. -/
theorem rcCar_spec (s : Bridge) : s.forwardRcCar.mirrorRcCar =
    { rcCar := { s.rcCar with
        unread := s.rcCar.unread.drop 2
        consumed := s.rcCar.consumed ++ s.rcCar.unread.take 2 }
      remote := { s.remote with log := s.remote.log ++ s.rcCar.unread.take 1 }
      serial := s.serial ++ [s.rcCar.unread.getD 1 255] } := by
  obtain ⟨⟨unread, consumed, log⟩, remote, serial⟩ := s
  match unread with
  | [] => simp [forwardRcCar, mirrorRcCar, Port.read, Port.available, neg_one_eq]
  | [b] => simp [forwardRcCar, mirrorRcCar, Port.read, Port.available, Port.write, neg_one_eq]
  | b :: c :: bs => simp [forwardRcCar, mirrorRcCar, Port.read, Port.available, Port.write]

/-- The bridge with its two ports exchanged. -/
def swap (s : Bridge) : Bridge := { s with rcCar := s.remote, remote := s.rcCar }

theorem forwardRemote_swap (s : Bridge) : s.swap.forwardRemote = s.forwardRcCar.swap := by
  unfold forwardRemote forwardRcCar
  split
  case isTrue h => rw [if_pos (show s.rcCar.available ≠ 0 from h)]; rfl
  case isFalse h => rw [if_neg (show ¬ s.rcCar.available ≠ 0 from h)]

theorem mirrorRemote_swap (s : Bridge) : s.swap.mirrorRemote = s.mirrorRcCar.swap := rfl

theorem remote_spec (s : Bridge) : s.forwardRemote.mirrorRemote =
    { remote := { s.remote with
        unread := s.remote.unread.drop 2
        consumed := s.remote.consumed ++ s.remote.unread.take 2 }
      rcCar := { s.rcCar with log := s.rcCar.log ++ s.remote.unread.take 1 }
      serial := s.serial ++ [s.remote.unread.getD 1 255] } := by
  change s.swap.swap.forwardRemote.mirrorRemote = _
  rw [forwardRemote_swap, mirrorRemote_swap, rcCar_spec]
  rfl

theorem loop_spec (s : Bridge) : s.loop =
    { rcCar := {
        unread := s.rcCar.unread.drop 2
        consumed := s.rcCar.consumed ++ s.rcCar.unread.take 2
        log := s.rcCar.log ++ s.remote.unread.take 1 }
      remote := {
        unread := s.remote.unread.drop 2
        consumed := s.remote.consumed ++ s.remote.unread.take 2
        log := s.remote.log ++ s.rcCar.unread.take 1 }
      serial := s.serial ++ [s.rcCar.unread.getD 1 255, s.remote.unread.getD 1 255] } := by
  simp [loop, remote_spec, rcCar_spec]

/-! ### What the sketch is for -/

/-- Every consumed byte has been forwarded once and mirrored once, in order. -/
structure Mirrored (s : Bridge) : Prop where
  toRemote : s.remote.log = s.rcCar.consumed
  toRcCar : s.rcCar.log = s.remote.consumed
  toSerial : Interleaving s.rcCar.consumed s.remote.consumed s.serial

/-- An execution of `loop()` that finds both FIFOs empty writes nothing. -/
def IdleSilent (s : Bridge) (e : Event) : Prop :=
  e = .loop → s.rcCar.unread = [] → s.remote.unread = [] →
    s.loop.rcCar.log = s.rcCar.log ∧ s.loop.remote.log = s.remote.log ∧ s.loop.serial = s.serial

/-- The sketch forwards and mirrors what it consumes in a sequence of events, and is silent when
idle. -/
def Forwards (es : List Event) : Prop :=
  Mirrored (run step {} es) ∧ Along step IdleSilent {} es

/-- `loop()` finds exactly one byte waiting at each port, and both are 255. -/
def FindsTwo255 (s : Bridge) (e : Event) : Prop :=
  e = .loop → s.rcCar.unread = [255] ∧ s.remote.unread = [255]

theorem mirrored_step (s : Bridge) (e : Event) (H : s.Mirrored) (hg : s.FindsTwo255 e) :
    (s.step e).Mirrored := by
  cases e with
  | arriveRcCar b => exact ⟨H.toRemote, H.toRcCar, H.toSerial⟩
  | arriveRemote b => exact ⟨H.toRemote, H.toRcCar, H.toSerial⟩
  | loop =>
    obtain ⟨hr, hq⟩ := hg rfl
    have two : Interleaving [(255 : UInt8)] [255] [255, 255] := .left (.right .nil)
    rw [step, loop_spec, hr, hq]
    exact ⟨congrArg (· ++ [255]) H.toRemote, congrArg (· ++ [255]) H.toRcCar,
      H.toSerial.append two⟩

/-! ### The lengths of the logs -/

/-- At most one byte is forwarded of what an execution consumes, while `Serial` gets two. -/
def Counted (s : Bridge) : Prop :=
  s.remote.log.length ≤ s.rcCar.consumed.length ∧
  s.rcCar.log.length ≤ s.remote.consumed.length ∧
  s.remote.log.length + s.rcCar.log.length ≤ s.serial.length

/-- The lengths a mirrored state has. -/
def Balanced (s : Bridge) : Prop :=
  s.remote.log.length = s.rcCar.consumed.length ∧
  s.rcCar.log.length = s.remote.consumed.length ∧
  s.serial.length = s.rcCar.consumed.length + s.remote.consumed.length

theorem Mirrored.balanced {s : Bridge} (H : s.Mirrored) : s.Balanced :=
  ⟨by rw [H.toRemote], by rw [H.toRcCar], H.toSerial.length_eq⟩

theorem counted_step (s : Bridge) (e : Event) (H : s.Counted) : (s.step e).Counted := by
  cases e with
  | arriveRcCar b | arriveRemote b => exact H
  | loop =>
    obtain ⟨h1, h2, h3⟩ := H
    simp only [step, loop_spec, Counted, List.length_append, List.length_take,
      List.length_cons, List.length_nil]
    omega

/-- The logs are balanced after an execution only if they were before it, and it found one byte
at each port. -/
theorem balanced_back (s : Bridge) (e : Event) (H : s.Counted) (hb : (s.step e).Balanced) :
    s.Balanced ∧ (e = .loop → s.rcCar.unread.length = 1 ∧ s.remote.unread.length = 1) := by
  cases e with
  | arriveRcCar b | arriveRemote b => exact ⟨hb, nofun⟩
  | loop =>
    obtain ⟨h1, h2, h3⟩ := H
    simp only [step, loop_spec, Balanced, List.length_append, List.length_take,
      List.length_cons, List.length_nil] at hb
    obtain ⟨b1, b2, b3⟩ := hb
    exact ⟨⟨by omega, by omega, by omega⟩, fun _ => ⟨by omega, by omega⟩⟩

/-! ### The bytes -/

def All255 (bs : List UInt8) : Prop := ∀ b ∈ bs, b = 255

/-- A second read that finds nothing mirrors a 255, so with one byte at each port all of `Serial`
is 255. -/
theorem serial_step (s : Bridge) (e : Event) (H : All255 s.serial)
    (hg : e = .loop → s.rcCar.unread.length = 1 ∧ s.remote.unread.length = 1) :
    All255 (s.step e).serial := by
  cases e with
  | arriveRcCar b | arriveRemote b => exact H
  | loop =>
    obtain ⟨hr, hq⟩ := hg rfl
    simp only [step, loop_spec, List.getD_eq_getElem?_getD]
    intro b hb
    simp [hr, hq] at hb
    exact hb.elim (H b) id

/-- What is consumed stays consumed. -/
theorem consumed_back (s : Bridge) (e : Event)
    (H : All255 (s.step e).rcCar.consumed ∧ All255 (s.step e).remote.consumed) :
    (All255 s.rcCar.consumed ∧ All255 s.remote.consumed) ∧
      (e = .loop → All255 (s.rcCar.unread.take 2) ∧ All255 (s.remote.unread.take 2)) := by
  cases e with
  | arriveRcCar b | arriveRemote b => exact ⟨H, nofun⟩
  | loop =>
    simp only [step, loop_spec, All255, List.mem_append] at H ⊢
    exact ⟨⟨fun b hb => H.1 b (.inl hb), fun b hb => H.2 b (.inl hb)⟩,
      fun _ => ⟨fun b hb => H.1 b (.inr hb), fun b hb => H.2 b (.inr hb)⟩⟩

theorem eq_singleton_255 {bs : List UInt8} (h : bs.length = 1) (H : All255 (bs.take 2)) :
    bs = [255] := by
  obtain ⟨b, rfl⟩ := List.length_eq_one_iff.mp h
  rw [H b List.mem_cons_self]

/-- If the bytes are mirrored at the end, every execution found one 255 at each port. -/
theorem Mirrored.along {es : List Event} (H : Mirrored (run step {} es)) :
    Along step FindsTwo255 {} es := by
  have hlen : Along step (fun s e => e = .loop →
      s.rcCar.unread.length = 1 ∧ s.remote.unread.length = 1) {} es :=
    (along_of_final counted_step balanced_back ⟨by simp, by simp, by simp⟩ H.balanced).2
  have hserial : All255 (run step {} es).serial :=
    run_invariant_along (I := fun s => All255 s.serial) serial_step (by simp [All255]) hlen
  have hconsumed := (along_of_final (I := fun _ => True)
    (Q := fun s => All255 s.rcCar.consumed ∧ All255 s.remote.consumed)
    (fun _ _ _ => trivial) (fun s e _ => consumed_back s e) trivial
    ⟨fun b hb => hserial b (H.toSerial.mem_iff.mpr (.inl hb)),
      fun b hb => hserial b (H.toSerial.mem_iff.mpr (.inr hb))⟩).2
  exact (hlen.and hconsumed).mono fun s e h he =>
    ⟨eq_singleton_255 (h.1 he).1 (h.2 he).1, eq_singleton_255 (h.1 he).2 (h.2 he).2⟩

/-- The bytes of a sequence of events are forwarded and mirrored exactly when every execution of
`loop()` in it finds one byte at each port, both of them 255. -/
theorem forwards_iff (es : List Event) : Forwards es ↔ Along step FindsTwo255 {} es := by
  refine ⟨fun h => h.1.along, fun h => ⟨?_, h.mono fun s e hg he hr => ?_⟩⟩
  · exact run_invariant_along mirrored_step ⟨rfl, rfl, .nil⟩ h
  · rw [(hg he).1] at hr; cases hr

/-- One byte arrives at `RCcar`: it is forwarded, but `Serial` gets two 255s and not the byte. -/
theorem not_forwards_one_byte : ¬ Forwards [.arriveRcCar 65, .loop] := by
  intro h
  have := h.1.toSerial.length_eq
  revert this
  decide

end Bridge

end D1Mini
