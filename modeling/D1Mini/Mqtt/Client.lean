import D1Mini.Mqtt.Packet

/-!
# `publish` of the MQTT client

`sendPacket` of `Adafruit_MQTT_Client.cpp` writes a packet to the connection, and `publish` of
`Adafruit_MQTT.cpp` waits for an acknowledgement where the quality of service asks for one.

* `publish_ok`: when the call reports success;
* `publish_delivers`: what a receiver has then.
-/

namespace D1Mini.Mqtt
open VarLength

/-- What `client->connected()` and `client->write(buffer, sendlen)` return in a round. -/
structure Round where
  connected : Bool
  ret : Nat
deriving DecidableEq, Repr

/-- The bytes that are written, and the result. -/
def sendPacket (rounds : Nat → Round) (buffer : List UInt8) (round len : Nat) :
    List UInt8 × Bool :=
  if _h : len > 0 then
    if (rounds round).connected then
      let sendlen := if len > 250 then 250 else len
      if _hret : (rounds round).ret ≠ sendlen then (buffer.take (rounds round).ret, false)
      else
        -- `buffer` is not moved on
        let (sent, ok) := sendPacket rounds buffer (round + 1) (len - (rounds round).ret)
        (buffer.take (rounds round).ret ++ sent, ok)
    else ([], false)
  else ([], true)
termination_by len
decreasing_by
  have : (rounds round).ret = if len > 250 then 250 else len := not_not.mp _hret
  split at this <;> omega

/-- `MQTT_CTRL_PUBACK`. -/
def ctrlPuback : UInt8 := 4

def pubackPacket (packetid : UInt16) : List UInt8 :=
  [ctrlPuback <<< 4, 2, (packetid >>> 8).toUInt8, packetid.toUInt8]

/-- The reply that `publish` asks for if `qos > 0`. -/
def verifyReply (packetIdCounter : UInt16) (incoming : List UInt8) : Bool :=
  match readFullPacket incoming with
  | some ([header, _, hi, lo], _) =>
    let packnum := hi.toUInt16 <<< 8 ||| lo.toUInt16
    header >>> 4 == ctrlPuback && packnum + 1 == packetIdCounter
  | _ => false

/-- What was written, the next `packet_id_counter`, and the result. -/
structure Publishing where
  sent : List UInt8
  packetIdCounter : UInt16
  ok : Bool
deriving DecidableEq, Repr

def publish (rounds : Nat → Round) (incoming : List UInt8) (packetIdCounter : UInt16)
    (topic data : List UInt8) (qos : UInt8) : Publishing :=
  let (packet, packetIdCounter) := publishPacket packetIdCounter topic data qos
  let (sent, ok) := sendPacket rounds packet 0 packet.length
  { sent, packetIdCounter, ok := ok && (qos == 0 || verifyReply packetIdCounter incoming) }

variable {rounds : Nat → Round} {buffer incoming topic data rest : List UInt8}
variable {round len : Nat} {qos : UInt8} {id packetid : UInt16}

/-! ### Sending -/

/-- In what is written, the first 250 bytes stand for every 250 bytes. -/
theorem sendPacket_sent (h : (sendPacket rounds buffer round len).2) :
    (sendPacket rounds buffer round len).1 =
      (List.replicate (len / 250) (buffer.take 250)).flatten ++ buffer.take (len % 250) := by
  fun_induction sendPacket rounds buffer round len with
  | case1 => cases h
  | case2 round len hpos _ sendlen hret sent ok heq ih =>
    rw [heq] at ih
    have hret : (rounds round).ret = if len > 250 then 250 else len := not_not.mp hret
    have hsent := ih h
    dsimp only at hsent ⊢
    rw [hsent, hret]
    split
    case isTrue hbig =>
      have hdiv : len / 250 = (len - 250) / 250 + 1 := by omega
      have hmod : len % 250 = (len - 250) % 250 := by omega
      rw [hdiv, hmod, List.replicate_succ, List.flatten_cons, List.append_assoc]
    case isFalse hsmall =>
      rw [Nat.sub_self]
      rcases Nat.lt_or_eq_of_le (Nat.not_lt.mp hsmall) with hlt | rfl
      · rw [Nat.div_eq_of_lt hlt, Nat.mod_eq_of_lt hlt]
        simp
      · simp
  | case3 => cases h
  | case4 round len hpos =>
    rw [Nat.eq_zero_of_not_pos hpos]
    rfl

/-- A packet for the library's buffer takes one round. -/
theorem sendPacket_short (hpos : 0 < len) (hlen : len ≤ 250) :
    (sendPacket rounds buffer round len).2 ↔
      (rounds round).connected ∧ (rounds round).ret = len := by
  have hsendlen : (if len > 250 then 250 else len) = len := if_neg (by omega)
  have hdone : sendPacket rounds buffer (round + 1) 0 = ([], true) := by
    rw [sendPacket, dif_neg (Nat.lt_irrefl 0)]
  rw [sendPacket, dif_pos hpos]
  simp only [hsendlen]
  split
  case isTrue hconn =>
    split
    case isTrue hret => simp [hconn, hret]
    case isFalse hret =>
      have hret : (rounds round).ret = len := not_not.mp hret
      rw [hret, Nat.sub_self, hdone]
      simp [hconn]
  case isFalse hconn => simp [hconn]

theorem sendPacket_whole (h : (sendPacket rounds buffer 0 buffer.length).2)
    (hlen : buffer.length ≤ 250) : (sendPacket rounds buffer 0 buffer.length).1 = buffer := by
  rw [sendPacket_sent h]
  rcases Nat.lt_or_eq_of_le hlen with hlt | heq
  · rw [Nat.div_eq_of_lt hlt, Nat.mod_eq_of_lt hlt, List.take_length]
    rfl
  · rw [heq, ← heq, List.take_length, heq]
    simp

/-! ### The acknowledgement -/

theorem toNat_packnum {hi lo : UInt8} :
    (hi.toUInt16 <<< 8 ||| lo.toUInt16).toNat = value16 hi lo := by
  have hshift : (8 : UInt16).toNat % 16 = 8 := rfl
  have hlo : lo.toNat < 2 ^ 8 := lo.toNat_lt
  have hhi : hi.toNat <<< 8 = hi.toNat * 256 := Nat.shiftLeft_eq _ _
  have hfit : hi.toNat * 256 % 2 ^ 16 = hi.toNat * 256 := by
    have := hi.toNat_lt
    omega
  rw [UInt16.toNat_or, UInt16.toNat_shiftLeft, hshift, UInt8.toNat_toUInt16, UInt8.toNat_toUInt16,
    hhi, hfit, ← hhi, ← Nat.shiftLeft_add_eq_or_of_lt hlo, hhi]
  rfl

theorem value16_puback : value16 (packetid >>> 8).toUInt8 packetid.toUInt8 = packetid.toNat := by
  have hlow : packetid.toUInt8.toNat = packetid.toNat % 256 := UInt16.toNat_toUInt8 _
  rw [value16, toNat_high, hlow, Nat.mul_comm, Nat.div_add_mod]

theorem pubackPacket_eq : pubackPacket packetid =
    Packet.bytes ⟨ctrlPuback <<< 4, [(packetid >>> 8).toUInt8, packetid.toUInt8]⟩ := by
  have hencode : encode 2 = [2] := encode_of_lt (by decide)
  unfold pubackPacket Packet.bytes
  rw [List.length_cons, List.length_singleton, hencode, List.singleton_append]

/-- An acknowledgement is accepted if it is for the packet that was sent last. -/
theorem verifyReply_pubackPacket :
    verifyReply (id + 1) (pubackPacket packetid ++ rest) ↔ packetid = id := by
  have hread : readFullPacket (pubackPacket packetid ++ rest) =
      some (pubackPacket packetid, rest) := by
    have hshort : (pubackPacket packetid).length < maxBufferSize := (by decide : 4 < 150)
    rw [pubackPacket_eq] at hshort ⊢
    exact readFullPacket_fits hshort
  have hid : (packetid >>> 8).toUInt8.toUInt16 <<< 8 ||| packetid.toUInt8.toUInt16 = packetid := by
    rw [← UInt16.toNat_inj, toNat_packnum, value16_puback]
  have htype : (ctrlPuback <<< 4) >>> 4 = ctrlPuback := rfl
  rw [verifyReply, hread]
  simp only [pubackPacket, hid, htype, beq_self_eq_true, Bool.true_and, beq_iff_eq,
    UInt16.add_left_inj]

/-! ### Publishing -/

/-- Success is reported if the packet went out in one write and the reply, where one is expected,
acknowledges it. -/
theorem publish_ok (h : (publishPacket id topic data qos).1.length ≤ maxBufferSize) :
    (publish rounds incoming id topic data qos).ok ↔
      ((rounds 0).connected ∧ (rounds 0).ret = (publishPacket id topic data qos).1.length) ∧
        (qos > 0 → verifyReply (id + 1) incoming) := by
  have hpos : 0 < (publishPacket id topic data qos).1.length := Nat.succ_pos _
  have hlen : (publishPacket id topic data qos).1.length ≤ 250 := Nat.le_trans h (by decide)
  have hok : (publish rounds incoming id topic data qos).ok =
      ((sendPacket rounds (publishPacket id topic data qos).1 0
        (publishPacket id topic data qos).1.length).2 &&
      (qos == 0 || verifyReply (publishPacket id topic data qos).2 incoming)) := rfl
  rw [hok, Bool.and_eq_true, Bool.or_eq_true, beq_iff_eq, sendPacket_short hpos hlen]
  apply and_congr_right'
  rcases Decidable.em (qos = 0) with rfl | hq
  · simp
  · have hqos : qos > 0 := UInt8.pos_iff_ne_zero.mpr hq
    have hcounter : (publishPacket id topic data qos).2 = id + 1 := if_pos hqos
    simp [hq, hqos, hcounter]

theorem publish_sent (hok : (publish rounds incoming id topic data qos).ok)
    (h : (publishPacket id topic data qos).1.length ≤ maxBufferSize) :
    (publish rounds incoming id topic data qos).sent = (publishPacket id topic data qos).1 :=
  sendPacket_whole (Bool.and_eq_true_iff.mp hok).1 (Nat.le_trans h (by decide))

/-- What is reported as published is on its way to the receiver, whole. -/
theorem publish_delivers (hok : (publish rounds incoming id topic data qos).ok)
    (h : (publishPacket id topic data qos).1.length ≤ maxBufferSize)
    (hlen : topic.length + data.length + 4 < 2 ^ 16) (hqos : qos ≤ 2) :
    decodePublish (publish rounds incoming id topic data qos).sent = some
      { topic, payload := data, qos, packetId := if qos > 0 then some id.toNat else none } := by
  rw [publish_sent hok h]
  exact decodePublish_publishPacket hlen hqos

end D1Mini.Mqtt
