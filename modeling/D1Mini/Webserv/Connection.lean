import D1Mini.Mqtt.Connect
import D1Mini.Webserv.Sketch

/-!
# The connection of `webserv.ino`

`loop()` begins with `MQTT_connect()`, which tries five times and then waits for the watchdog. No
subscription is in the table when it calls `connect`.
-/

namespace D1Mini.Webserv
open Mqtt

/-- The feed is made with the default quality of service. -/
def onoffbutton : Subscribe := .new (toBytes "vladi/switch_vlad".toList) 0 (by decide)

/-- `mqtt` is made with `AIO_USERNAME` and `AIO_KEY`, which is empty. -/
def account : Account where
  clientid := []
  username := toBytes "vladi".toList
  password := []
  willTopic := []
  willPayload := []
  willQos := 0
  willRetain := 0

-- The server learns the name of the client, and that is all.
example : decodeConnect (connectPacket account) = some
    { clientId := [], keepAlive := 300, will := none, username := some (toBytes "vladi".toList)
      password := none } := by decide

/-- What the calls of `connect` in an iteration meet. -/
structure Contact where
  server : Nat → Bool
  net : Nat → Nat → Exchange

/-- `mqtt.connect()`, for the `n`-th time. -/
def Contact.connect (k : Contact) (n : Nat) : Int8 :=
  (Mqtt.connect (k.server n) (fun _ => onoffbutton) (k.net n) account
    (.new : AdafruitMqtt Unit)).1

/-- The server is there, takes the packet whole, and accepts the client. -/
def Contact.Accepted (k : Contact) (n : Nat) : Prop :=
  k.server n = true ∧ (k.net n 0).sends (connectPacket account) = true ∧
    ∃ present rest, (k.net n 0).incoming = 0x20 :: 2 :: present :: 0 :: rest

/-- An iteration that meets this. -/
def Input.meeting (inp : Input) (k : Contact) : Input := { inp with connect := k.connect }

/-! ### `MQTT_connect` -/

theorem retryConnect_isSome {connect : Nat → Int8} {retries attempt : Nat} :
    (retryConnect connect retries attempt).isSome ↔
      ∃ n, attempt ≤ n ∧ n < attempt + retries ∧ connect n = 0 := by
  induction retries generalizing attempt with
  | zero =>
    constructor
    · intro h
      cases h
    · rintro ⟨n, h1, h2, -⟩
      omega
  | succ retries ih =>
    rw [retryConnect]
    split
    case isTrue h => exact ⟨fun _ => ⟨attempt, Nat.le_refl _, by omega, h⟩, fun _ => rfl⟩
    case isFalse h =>
      rw [Option.isSome_map, ih]
      constructor
      · rintro ⟨n, h1, h2, hn⟩
        exact ⟨n, by omega, by omega, hn⟩
      · rintro ⟨n, h1, h2, hn⟩
        have hne : n ≠ attempt := by
          rintro rfl
          exact h hn
        exact ⟨n, by omega, by omega, hn⟩

/-- `loop()` gets past `MQTT_connect` if there is a connection, or one of five attempts makes it. -/
theorem mqttConnect_isSome {connected : Bool} {connect : Nat → Int8} :
    (mqttConnect connected connect).isSome ↔ connected ∨ ∃ n < 5, connect n = 0 := by
  unfold mqttConnect
  split
  case isTrue h => simp [h]
  case isFalse h =>
    rw [Option.isSome_map, retryConnect_isSome]
    constructor
    · rintro ⟨n, -, hlt, hn⟩
      exact .inr ⟨n, by omega, hn⟩
    · rintro (hc | ⟨n, hlt, hn⟩)
      · exact absurd hc h
      · exact ⟨n, Nat.zero_le n, by omega, hn⟩

theorem Contact.connect_eq_zero {k : Contact} {n : Nat} : k.connect n = 0 ↔ k.Accepted n := by
  have hnone : SlotTable.members (AdafruitMqtt.new : AdafruitMqtt Unit).subscriptions = [] := rfl
  have hacked : (Mqtt.connect (k.server n) (fun _ => onoffbutton) (k.net n) account
      (.new : AdafruitMqtt Unit)).2.acked = [] := by
    rw [← List.prefix_nil, ← hnone]
    exact connect_acked_prefix
  rw [Contact.connect, Mqtt.connect_eq_zero, connectReply_eq_zero, hacked, hnone,
    and_iff_left rfl, Contact.Accepted]

section
variable {clock : Nat → Nat} {s : State} {contacts : List (Input × Contact)}

theorem loop_isSome {inp : Input} :
    (loop clock s inp).isSome ↔ inp.connected ∨ ∃ n < 5, inp.connect n = 0 := by
  rw [loop, Option.isSome_map, mqttConnect_isSome]

/-- A run gets through if in each iteration there is a connection, or the server accepts one of five
attempts to make it. -/
theorem runLoop_isSome :
    (runLoop clock s (contacts.map fun (inp, k) => inp.meeting k)).isSome ↔
      ∀ c ∈ contacts, c.1.connected ∨ ∃ n < 5, c.2.Accepted n := by
  induction contacts generalizing s with
  | nil => simp [runLoop]
  | cons c contacts ih =>
    have hfirst : (loop clock s (c.1.meeting c.2)).isSome ↔
        c.1.connected ∨ ∃ n < 5, c.2.Accepted n := by
      simp only [loop_isSome, Input.meeting, Contact.connect_eq_zero]
    rw [List.map_cons, List.forall_mem_cons, ← hfirst, runLoop]
    cases loop clock s (c.1.meeting c.2) with
    | none => exact iff_of_false Bool.false_ne_true fun h => Bool.false_ne_true h.1
    | some pair =>
      dsimp only
      rw [Option.isSome_map, ih]
      exact (and_iff_right rfl).symm

end

end D1Mini.Webserv
