import D1Mini.Mqtt.Client
import D1Mini.Webserv.Publish

/-!
# From `publish_mqtt` to the receiver

What `publish_mqtt` hands to `mqtt_channel` goes out as one packet. `received_iff` compares what the
sketch prints with what the receiver of the packet learns: after `OK!` a message that was cut is
lost.
-/

namespace D1Mini.Webserv
open Mqtt VarLength

/-- `AIO_CHANNEL`. -/
def aioChannel : List Char := "domoticz/in".toList

/-- `mqtt_channel.publish`; the feed is made with the default quality of service. -/
def mqttChannelPublish (rounds : Nat → Round) (incoming : List UInt8) (packetIdCounter : UInt16)
    (payload : List Char) : Publishing :=
  Mqtt.publish rounds incoming packetIdCounter (toBytes aioChannel) (toBytes payload) 0

/-- What a subscriber of the channel makes of a packet. -/
def receive (packet : List UInt8) : Option Report :=
  (decodePublish packet).bind fun m =>
    if ofBytes m.topic = aioChannel then readBack (ofBytes m.payload) else none

namespace Reading

variable {r : Reading} {rounds : Nat → Round} {incoming rest : List UInt8} {id : UInt16}
variable {published : Bool}

theorem ascii_message : Ascii r.message := by
  have hsvalue : Ascii r.svalue := by
    unfold svalue
    split
    · exact ascii_floatText
    · exact ((ascii_floatText.append (by decide)).append ascii_floatText).append (by decide)
  unfold message
  refine ((((?_ : Ascii _).append ascii_intText).append ?_).append hsvalue).append ?_
  all_goals decide

theorem length_payload : (r.publish published).payload.length ≤ 49 := by
  rw [publish_payload]
  exact List.length_take_le _ _

theorem length_topic_payload :
    (toBytes aioChannel).length + (toBytes (r.publish published).payload).length + 4 < 2 ^ 16 := by
  have hchannel : (toBytes aioChannel).length = 11 := rfl
  have hpayload : (r.publish published).payload.length ≤ 49 := r.length_payload
  rw [hchannel, length_toBytes]
  omega

theorem length_packet : (publishPacket id (toBytes aioChannel)
    (toBytes (r.publish published).payload) 0).1.length ≤ 64 := by
  have hchannel : (toBytes aioChannel).length = 11 := rfl
  have hpayload : (r.publish published).payload.length ≤ 49 := r.length_payload
  have hbody : (publishBody id (toBytes aioChannel)
      (toBytes (r.publish published).payload) 0).length =
      11 + (r.publish published).payload.length + 2 := by
    rw [length_publishBody, hchannel, length_toBytes]
    rfl
  have hshort : (publishBody id (toBytes aioChannel)
      (toBytes (r.publish published).payload) 0).length < 128 := by omega
  rw [publishPacket_eq r.length_topic_payload, Packet.bytes, List.length_cons, List.length_append,
    encode_of_lt hshort, List.length_singleton, hbody]
  omega

/-- The buffer of the library has room for the packet of a publication. -/
theorem packet_fits : (publishPacket id (toBytes aioChannel)
    (toBytes (r.publish published).payload) 0).1.length < maxBufferSize :=
  Nat.lt_of_le_of_lt length_packet (by decide)

/-- The call prints `OK!` if the packet was written at once. -/
theorem channelPublish_ok :
    (mqttChannelPublish rounds incoming id (r.publish published).payload).ok ↔
    (rounds 0).connected ∧ (rounds 0).ret = (publishPacket id (toBytes aioChannel)
      (toBytes (r.publish published).payload) 0).1.length := by
  rw [mqttChannelPublish, publish_ok (Nat.le_of_lt packet_fits), and_iff_left_iff_imp]
  intro _ hqos
  exact absurd hqos (by decide)

theorem receive_sent
    (hok : (mqttChannelPublish rounds incoming id (r.publish published).payload).ok) :
    receive (mqttChannelPublish rounds incoming id (r.publish published).payload).sent =
      readBack (r.publish published).payload := by
  have htopic : ofBytes (toBytes aioChannel) = aioChannel := ofBytes_toBytes (by decide)
  have hascii : Ascii (r.publish published).payload := by
    rw [publish_payload]
    exact r.ascii_message.take 49
  unfold mqttChannelPublish at hok ⊢
  rw [receive, publish_delivers hok (Nat.le_of_lt packet_fits) r.length_topic_payload (by decide),
    Option.bind_some, if_pos htopic, ofBytes_toBytes hascii]

/-- After `OK!` the receiver has the report if the message fitted the array, and nothing
otherwise. -/
theorem received_iff
    (hok : (mqttChannelPublish rounds incoming id (r.publish published).payload).ok) :
    receive (mqttChannelPublish rounds incoming id (r.publish published).payload).sent =
      some r.report ↔ r.Fits := by
  rw [receive_sent hok, readBack_payload, fits_iff]
  split
  case isTrue h => exact iff_of_true rfl h
  case isFalse h => exact iff_of_false (fun hnone => nomatch hnone) h

/-- Publications that follow one another in a stream do not run into each other. -/
theorem readFullPacket_sent
    (hok : (mqttChannelPublish rounds incoming id (r.publish published).payload).ok) :
    readFullPacket
        ((mqttChannelPublish rounds incoming id (r.publish published).payload).sent ++ rest) =
      some ((mqttChannelPublish rounds incoming id (r.publish published).payload).sent, rest) := by
  rw [mqttChannelPublish] at hok ⊢
  rw [publish_sent hok (Nat.le_of_lt packet_fits)]
  exact readFullPacket_publishPacket r.length_topic_payload packet_fits

end Reading

/-! ### The publications of a run -/

/-- The packets of a stream, one after the other. -/
def splitPackets (stream : List UInt8) : List (List UInt8) :=
  match _h : readFullPacket stream with
  | none => []
  | some (packet, rest) => packet :: splitPackets rest
termination_by stream.length
decreasing_by exact readFullPacket_length _h

theorem splitPackets_cons {stream packet rest : List UInt8}
    (h : readFullPacket stream = some (packet, rest)) :
    splitPackets stream = packet :: splitPackets rest := by
  rw [splitPackets]
  split
  case h_1 hnone =>
    rw [hnone] at h
    cases h
  case h_2 packet' rest' hsome =>
    rw [hsome] at h
    cases h
    rfl

/-- A call of `publish_mqtt`, with what the connection does and what is printed. -/
structure PublishCall where
  reading : Reading
  published : Bool
  rounds : Nat → Round
  incoming : List UInt8
  packetId : UInt16

def PublishCall.publishing (x : PublishCall) : Publishing :=
  mqttChannelPublish x.rounds x.incoming x.packetId (x.reading.publish x.published).payload

instance {r : Reading} : Decidable r.Fits :=
  decidable_of_iff (r.message.length ≤ 49) r.fits_iff.symm

theorem receive_publishing {x : PublishCall} (hok : x.publishing.ok) :
    receive x.publishing.sent = if x.reading.Fits then some x.reading.report else none := by
  unfold PublishCall.publishing at hok ⊢
  rw [Reading.receive_sent hok, Reading.readBack_payload]
  simp only [Reading.fits_iff]

/-- A call whose packet is written at once. -/
def PublishCall.atOnce (r : Reading) : PublishCall where
  reading := r
  published := true
  rounds := fun _ =>
    ⟨true, (publishPacket 1 (toBytes aioChannel) (toBytes (r.publish true).payload) 0).1.length⟩
  incoming := []
  packetId := 1

end D1Mini.Webserv
