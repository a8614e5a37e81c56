import D1Mini.Lib.EventMachine
import D1Mini.Lib.SlotTable
import D1Mini.Mqtt.Client

/-!
# The subscriptions of `Adafruit_MQTT.cpp`

`subscriptions` is an array of pointers; a pointer is a value of the type `P`, and `objects` says
what it points to.

* `run_subscribed`: what is subscribed after a run of calls;
* `run_unsuback`: a subscription with acknowledgements stays for ever when the server answers by the
  rules.
-/

namespace D1Mini.Mqtt
open EventMachine SlotTable

/-- `MAXSUBSCRIPTIONS`. -/
def maxSubscriptions : Nat := 15

/-- `SUBSCRIPTIONDATALEN`. -/
def subscriptionDataLen : Nat := 100

/-- `Adafruit_MQTT_Subscribe`, without the callbacks. -/
structure Subscribe where
  topic : List UInt8
  qos : UInt8
  lastread : List UInt8
  datalen : UInt16
  topic_nul : 0 ∉ topic
  length_lastread : lastread.length = subscriptionDataLen
deriving DecidableEq, Repr

/-- The constructor, for an object that is zero at first. -/
def Subscribe.new (feed : List UInt8) (q : UInt8) (h : 0 ∉ feed) : Subscribe where
  topic := feed
  qos := q
  lastread := List.replicate subscriptionDataLen 0
  datalen := 0
  topic_nul := h
  length_lastread := List.length_replicate

/-- The members of `Adafruit_MQTT` that the calls on subscriptions use. -/
structure AdafruitMqtt (P : Type) where
  subscriptions : List (Option P)
  packetIdCounter : UInt16
  length_eq : subscriptions.length = maxSubscriptions
deriving DecidableEq, Repr

/-- The constructor resets the subscriptions. -/
def AdafruitMqtt.new : AdafruitMqtt P where
  subscriptions := List.replicate maxSubscriptions none
  packetIdCounter := 0
  length_eq := List.length_replicate

/-- No subscription is in the table twice. -/
def AdafruitMqtt.Single (c : AdafruitMqtt P) : Prop := (members c.subscriptions).Nodup

theorem AdafruitMqtt.single_new : (AdafruitMqtt.new : AdafruitMqtt P).Single := by
  have hnone : members (List.replicate maxSubscriptions (none : Option P)) = [] := rfl
  rw [AdafruitMqtt.Single, AdafruitMqtt.new, hnone]
  exact List.nodup_nil

/-! ### Packets with one byte for the length -/

/-- `packet[1] = len - 2;` -/
def shortPacket (header : UInt8) (body : List UInt8) : List UInt8 :=
  header :: UInt8.ofNat body.length :: body

/-- `MQTT_CTRL_SUBSCRIBE`. -/
def ctrlSubscribe : UInt8 := 8

/-- `MQTT_CTRL_UNSUBSCRIBE`. -/
def ctrlUnsubscribe : UInt8 := 0xA

/-- `MQTT_CTRL_UNSUBACK`. -/
def ctrlUnsuback : UInt8 := 0xB

/-- The packet, and the next `packet_id_counter`. -/
def subscribePacket (packetIdCounter : UInt16) (topic : List UInt8) (qos : UInt8) :
    List UInt8 × UInt16 :=
  (shortPacket (ctrlSubscribe <<< 4 ||| (1 : UInt8) <<< 1)
    (bytes16 packetIdCounter ++ stringprint topic ++ [qos]), packetIdCounter + 1)

def unsubscribePacket (packetIdCounter : UInt16) (topic : List UInt8) : List UInt8 × UInt16 :=
  (shortPacket (ctrlUnsubscribe <<< 4 ||| 1) (bytes16 packetIdCounter ++ stringprint topic),
    packetIdCounter + 1)

/-! ### The table -/

variable {P : Type} [DecidableEq P]

def subscribe (c : AdafruitMqtt P) (sub : P) : Bool × AdafruitMqtt P :=
  if some sub ∈ c.subscriptions then (true, c)
  else if none ∈ c.subscriptions then
    (true, { c with
      subscriptions := put c.subscriptions sub, length_eq := length_put.trans c.length_eq })
  else (false, c)

/-- The reply that `unsubscribe` asks for if `qos > 0`. -/
def unsubscribed (incoming : List UInt8) : Bool :=
  match readFullPacket incoming with
  | some (buffer, _) => buffer.length == 5 && buffer.headD 0 == ctrlUnsuback <<< 4
  | none => false

/-- The length of the packet is kept in a `uint8_t`. -/
def unsubscribe (objects : P → Subscribe) (rounds : Nat → Round) (incoming : List UInt8)
    (c : AdafruitMqtt P) (sub : P) : Bool × AdafruitMqtt P :=
  if some sub ∈ c.subscriptions then
    let (packet, packetIdCounter) := unsubscribePacket c.packetIdCounter (objects sub).topic
    let c := { c with packetIdCounter }
    if (sendPacket rounds packet 0 (packet.length % 256)).2 = false then (false, c)
    else if (objects sub).qos > 0 ∧ unsubscribed incoming = false then (false, c)
    else
      (true, { c with
        subscriptions := take c.subscriptions sub, length_eq := length_take.trans c.length_eq })
  else (true, c)

/-! ### Calls -/

inductive Call (P : Type)
  | subscribe (sub : P)
  | unsubscribe (sub : P) (rounds : Nat → Round) (incoming : List UInt8)

def Call.sub : Call P → P
  | .subscribe sub => sub
  | .unsubscribe sub _ _ => sub

def Call.isSubscribe : Call P → Bool
  | .subscribe _ => true
  | .unsubscribe .. => false

/-- The result of a call, and what it leaves. -/
def call (objects : P → Subscribe) (c : AdafruitMqtt P) : Call P → Bool × AdafruitMqtt P
  | .subscribe sub => subscribe c sub
  | .unsubscribe sub rounds incoming => unsubscribe objects rounds incoming c sub

def callStep (objects : P → Subscribe) (c : AdafruitMqtt P) (e : Call P) : AdafruitMqtt P :=
  (call objects c e).2

/-- The calls that returned `true`. -/
def accepted (objects : P → Subscribe) (c : AdafruitMqtt P) (es : List (Call P)) : List (Call P) :=
  trace (callStep objects) (fun c e => if (call objects c e).1 then [e] else []) c es

variable {objects : P → Subscribe} {c : AdafruitMqtt P} {e : Call P} {es fs : List (Call P)}
variable {sub p : P} {rounds : Nat → Round} {incoming : List UInt8}

/-- A call leaves the table alone, or puts the subscription into a free slot, or takes it out. -/
theorem call_cases (objects : P → Subscribe) (c : AdafruitMqtt P) (e : Call P) :
    ((callStep objects c e).subscriptions = c.subscriptions ∧
      ((call objects c e).1 → (some e.sub ∈ c.subscriptions ↔ e.isSubscribe))) ∨
    (e.isSubscribe ∧ (call objects c e).1 ∧ none ∈ c.subscriptions ∧
      some e.sub ∉ c.subscriptions ∧
      (callStep objects c e).subscriptions = put c.subscriptions e.sub) ∨
    (¬ e.isSubscribe ∧ (call objects c e).1 ∧ some e.sub ∈ c.subscriptions ∧
      (callStep objects c e).subscriptions = take c.subscriptions e.sub) := by
  cases e with
  | subscribe sub =>
    simp only [callStep, call, subscribe, Call.sub, Call.isSubscribe]
    split
    case isTrue h => exact .inl ⟨rfl, fun _ => iff_of_true h trivial⟩
    case isFalse h =>
      split
      case isTrue hfree => exact .inr (.inl ⟨trivial, rfl, hfree, h, rfl⟩)
      case isFalse => exact .inl ⟨rfl, fun hfalse => nomatch hfalse⟩
  | unsubscribe sub rounds incoming =>
    simp only [callStep, call, unsubscribe, Call.sub, Call.isSubscribe]
    split
    case isFalse h => exact .inl ⟨rfl, fun _ => iff_of_false h Bool.false_ne_true⟩
    case isTrue h =>
      split
      case isTrue => exact .inl ⟨rfl, fun hfalse => nomatch hfalse⟩
      case isFalse =>
        split
        case isTrue => exact .inl ⟨rfl, fun hfalse => nomatch hfalse⟩
        case isFalse => exact .inr (.inr ⟨Bool.false_ne_true, rfl, h, rfl⟩)

theorem callStep_single (h : c.Single) : (callStep objects c e).Single := by
  unfold AdafruitMqtt.Single at h ⊢
  obtain ⟨heq, -⟩ | ⟨-, -, hfree, hsub, heq⟩ | ⟨-, -, hsub, heq⟩ := call_cases objects c e
  · rw [heq]
    exact h
  · rw [heq]
    exact nodup_put hfree hsub h
  · rw [heq]
    exact nodup_take hsub h

/-- Only a call that returns `true` changes what is subscribed, and only for its own
subscription. -/
theorem callStep_subscribed (h : c.Single) : some p ∈ (callStep objects c e).subscriptions ↔
    if (call objects c e).1 ∧ e.sub = p then e.isSubscribe = true
    else some p ∈ c.subscriptions := by
  obtain ⟨heq, hkeep⟩ | ⟨hadd, hok, hfree, -, heq⟩ | ⟨hdrop, hok, hsub, heq⟩ :=
    call_cases objects c e
  · rw [heq]
    split
    case isTrue hp =>
      rw [← hp.2]
      exact hkeep hp.1
    case isFalse => rfl
  · rw [heq, mem_put hfree]
    split
    case isTrue hp => exact iff_of_true (.inl hp.2.symm) hadd
    case isFalse hp =>
      have hne : p ≠ e.sub := fun hp' => hp ⟨hok, hp'.symm⟩
      exact or_iff_right hne
  · rw [heq, mem_take hsub h]
    split
    case isTrue hp => exact iff_of_false (fun hne => hne.1 hp.2.symm) hdrop
    case isFalse hp =>
      have hne : p ≠ e.sub := fun hp' => hp ⟨hok, hp'.symm⟩
      exact and_iff_right hne

theorem run_single (h : c.Single) : (run (callStep objects) c es).Single :=
  run_invariant (I := AdafruitMqtt.Single) (fun _ _ => callStep_single) h

theorem run_accepted (h : c.Single) : (some p ∈ (run (callStep objects) c es).subscriptions) =
    run (fun s e => if e.sub = p then e.isSubscribe = true else s)
      (some p ∈ c.subscriptions) (accepted objects c es) := by
  apply run_refines (I := AdafruitMqtt.Single) (f := fun c => some p ∈ c.subscriptions)
    (fun _ _ => callStep_single) _ h
  intro c e h
  rw [callStep_subscribed h]
  split
  case isTrue hp =>
    rw [if_pos hp.1, run_cons, if_pos hp.2]
    rfl
  case isFalse hp =>
    split
    case isTrue hok =>
      rw [run_cons, if_neg fun hsub => hp ⟨hok, hsub⟩]
      rfl
    case isFalse => rfl

theorem subscribe_fst : (subscribe c sub).1 ↔
    some sub ∈ c.subscriptions ∨ (members c.subscriptions).length < maxSubscriptions := by
  rw [← c.length_eq, ← none_mem_iff, subscribe]
  split
  case isTrue h => exact iff_of_true rfl (.inl h)
  case isFalse h =>
    split
    case isTrue hfree => exact iff_of_true rfl (.inr hfree)
    case isFalse hfree =>
      exact iff_of_false Bool.false_ne_true fun hor => hor.elim h hfree

/-- A subscription is in the table after a run, and is there once, if the last call for it that
returned `true` was `subscribe`. That call returns `true` as long as there is room. -/
theorem run_subscribed (objects : P → Subscribe) (es : List (Call P)) (p : P) :
    let c := run (callStep objects) .new es
    (some p ∈ c.subscriptions ↔
      ((accepted objects .new es).filter (·.sub = p)).getLast?.elim False
        (·.isSubscribe = true)) ∧
    (members c.subscriptions).Nodup ∧
    ((subscribe c p).1 ↔
      some p ∈ c.subscriptions ∨ (members c.subscriptions).length < maxSubscriptions) := by
  refine ⟨?_, run_single AdafruitMqtt.single_new, subscribe_fst⟩
  have hnone : (some p ∈ (AdafruitMqtt.new : AdafruitMqtt P).subscriptions) = False := by
    simp [AdafruitMqtt.new]
  rw [run_accepted AdafruitMqtt.single_new, hnone, ← run_last]
  simp only [decide_eq_true_eq]

/-! ### Acknowledgements -/

/-- The call is answered by the rules, if it is to take the subscription out. -/
def Call.Answered (p : P) : Call P → Prop
  | .subscribe _ => True
  | .unsubscribe sub _ incoming => sub = p → ∃ hi lo rest,
    incoming = Packet.bytes ⟨ctrlUnsuback <<< 4, [hi, lo]⟩ ++ rest

/-- `unsubscribe` waits for five bytes, and an acknowledgement has four. -/
theorem unsubscribed_unsuback {hi lo : UInt8} {rest : List UInt8} :
    unsubscribed (Packet.bytes ⟨ctrlUnsuback <<< 4, [hi, lo]⟩ ++ rest) = false := by
  have hfits : Packet.Fits ⟨ctrlUnsuback <<< 4, [hi, lo]⟩ := Packet.fits_of_lt (by decide : 2 < 128)
  have hlen : (Packet.bytes ⟨ctrlUnsuback <<< 4, [hi, lo]⟩).length = 4 := by
    have hencode : VarLength.encode 2 = [2] := VarLength.encode_of_lt (by decide)
    rw [Packet.bytes, List.length_cons, List.length_cons, List.length_singleton, hencode]
    rfl
  rw [unsubscribed, readFullPacket_fits hfits]
  dsimp only
  rw [hlen]
  rfl

theorem unsubscribe_false (hp : some p ∈ c.subscriptions) (hqos : (objects p).qos > 0)
    (h : unsubscribed incoming = false) : (unsubscribe objects rounds incoming c p).1 = false := by
  unfold unsubscribe
  rw [if_pos hp]
  dsimp only
  split
  · rfl
  · rw [if_pos ⟨hqos, h⟩]

theorem call_answered (hqos : (objects p).qos > 0) (he : e.Answered p)
    (hp : some p ∈ c.subscriptions) (hok : (call objects c e).1) (hsub : e.sub = p) :
    e.isSubscribe := by
  cases e with
  | subscribe => rfl
  | unsubscribe sub rounds incoming =>
    obtain rfl : sub = p := hsub
    obtain ⟨hi, lo, rest, rfl⟩ := he rfl
    rw [call, unsubscribe_false hp hqos unsubscribed_unsuback] at hok
    cases hok

/-- A subscription with acknowledgements is never taken out when the server answers by the rules. -/
theorem run_unsuback (hqos : (objects p).qos > 0)
    (hp : some p ∈ (run (callStep objects) .new es).subscriptions)
    (hfs : ∀ e ∈ fs, e.Answered p) :
    some p ∈ (run (callStep objects) .new (es ++ fs)).subscriptions := by
  have hstep (c : AdafruitMqtt P) (e : Call P) (h : c.Single ∧ some p ∈ c.subscriptions)
      (he : e.Answered p) :
      (callStep objects c e).Single ∧ some p ∈ (callStep objects c e).subscriptions := by
    refine ⟨callStep_single h.1, ?_⟩
    rw [callStep_subscribed h.1]
    split
    case isTrue hok => exact call_answered hqos he h.2 hok.1 hok.2
    case isFalse => exact h.2
  have hstart : (run (callStep objects) .new es).Single := run_single AdafruitMqtt.single_new
  rw [run_append]
  exact (run_invariant_along hstep ⟨hstart, hp⟩ (along_of_mem fun _ e he => hfs e he)).2

theorem run_unsuback_one :
    let call : Call Unit :=
      .unsubscribe () (fun _ => ⟨true, 0⟩) (Packet.bytes ⟨ctrlUnsuback <<< 4, [0, 1]⟩ ++ [])
    some () ∈ (run (callStep fun _ => .new [97] 1 (by decide)) .new
      ([.subscribe ()] ++ [call])).subscriptions := by
  intro call
  apply run_unsuback (p := ()) (by decide) (by decide)
  exact List.forall_mem_singleton.mpr fun _ => ⟨0, 1, [], rfl⟩

end D1Mini.Mqtt
