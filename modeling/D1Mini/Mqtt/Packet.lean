import D1Mini.Lib.BitStream
import D1Mini.Lib.VarLength

/-!
# PUBLISH packets of `Adafruit_MQTT.cpp`

`publishPacket` is how the library writes a message into its buffer, and `readFullPacket` how it
takes a packet out of a stream of bytes. `decodePublish` is what a receiver makes of a packet by the
rules of MQTT 3.1.1; it is written from these rules, not from the library.

* `decodePublish_publishPacket`: the receiver recovers the message;
* `readFullPacket_publishPacket`: the reader finds the end of the packet;
* `processPacketsUntil_bytes`: the packets of a stream are handled one by one.
-/

namespace D1Mini.Mqtt
open VarLength

/-- `MQTT_CTRL_PUBLISH`. -/
def ctrlPublish : UInt8 := 3

/-! ### Writing -/

/-- The loop `do { .. } while (len > 0);`, of which a `uint16_t` takes at most three rounds. -/
def lengthBytes : Nat → UInt16 → List UInt8
  | 0, _ => []
  | rounds + 1, len =>
    let encodedByte := (len % 128).toUInt8
    let len := len / 128
    if len > 0 then (encodedByte ||| 0x80) :: lengthBytes rounds len else [encodedByte]

/-- A `uint16_t` as two bytes, the high one first. -/
def bytes16 (n : UInt16) : List UInt8 := [(n >>> 8).toUInt8, (n &&& 0xFF).toUInt8]

/-- `stringprint(p, s)` for a `s` that holds no zero byte. -/
def stringprint (s : List UInt8) : List UInt8 :=
  let len := UInt16.ofNat s.length
  bytes16 len ++ s.take len.toNat

/-- The packet, and the next `packet_id_counter`. -/
def publishPacket (packetIdCounter : UInt16) (topic data : List UInt8) (qos : UInt8) :
    List UInt8 × UInt16 :=
  let bLen := UInt16.ofNat data.length
  let len := 2 + UInt16.ofNat topic.length + (if qos > 0 then 2 else 0) + bLen
  let header := ctrlPublish <<< 4 ||| qos <<< 1
  let packetId := if qos > 0 then bytes16 packetIdCounter else []
  (header :: (lengthBytes 3 len ++ stringprint topic ++ packetId ++ data.take bLen.toNat),
    if qos > 0 then packetIdCounter + 1 else packetIdCounter)

/-! ### Reading -/

/-- The loop over the bytes of the remaining length: its value, these bytes, and what follows. -/
def readLength (value multiplier : UInt32) :
    List UInt8 → Option (UInt32 × List UInt8 × List UInt8)
  | [] => none
  | encodedByte :: stream =>
    let value := value + (encodedByte &&& 0x7F).toUInt32 * multiplier
    let multiplier := multiplier * 128
    if multiplier > 128 * 128 * 128 then none
    else if encodedByte &&& 0x80 ≠ 0 then
      (readLength value multiplier stream).map fun (value, bytes, rest) =>
        (value, encodedByte :: bytes, rest)
    else some (value, [encodedByte], stream)

/-- `MAXBUFFERSIZE`. -/
def maxBufferSize : Nat := 150

/-- A packet and what follows it. No read is of more than 148 bytes, so that the `uint8_t` holds
what `readPacket` returns. -/
def readFullPacket : List UInt8 → Option (List UInt8 × List UInt8)
  | [] => none
  | packetType :: stream =>
    (readLength 0 1 stream).map fun (value, bytes, rest) =>
      let room := maxBufferSize - (1 + bytes.length) - 1
      let len := if value.toNat > room then room else value.toNat
      (packetType :: bytes ++ rest.take len, rest.drop len)

theorem readLength_length {value multiplier v : UInt32} {stream bytes rest : List UInt8}
    (h : readLength value multiplier stream = some (v, bytes, rest)) :
    rest.length ≤ stream.length := by
  induction stream generalizing value multiplier bytes with
  | nil => cases h
  | cons b stream ih =>
    rw [readLength] at h
    split at h
    · cases h
    split at h
    · obtain ⟨⟨v', bytes', rest'⟩, hread, heq⟩ := Option.map_eq_some_iff.mp h
      cases heq
      exact Nat.le_succ_of_le (ih hread)
    · cases h
      exact Nat.le_succ _

theorem readFullPacket_length {stream buffer rest : List UInt8}
    (h : readFullPacket stream = some (buffer, rest)) : rest.length < stream.length := by
  cases stream with
  | nil => cases h
  | cons packetType stream =>
    obtain ⟨⟨v, bytes, after⟩, hread, heq⟩ := Option.map_eq_some_iff.mp h
    have hrest : rest = after.drop _ := (Prod.mk.inj heq).2.symm
    have := readLength_length hread
    rw [hrest, List.length_drop, List.length_cons]
    omega

/-- `buffer[0] >> 4`. -/
def packetType (buffer : List UInt8) : UInt8 := buffer.headD 0 >>> 4

/-- The packets that `handleSubscriptionPacket` was called for, and the packet that was waited for
with what follows it. -/
structure Processed where
  handled : List (List UInt8)
  found : Option (List UInt8 × List UInt8)
deriving DecidableEq, Repr

def processPacketsUntil (waitforpackettype : UInt8) (stream : List UInt8) : Processed :=
  match _h : readFullPacket stream with
  | none => { handled := [], found := none }
  | some (buffer, rest) =>
    if packetType buffer = waitforpackettype then { handled := [], found := some (buffer, rest) }
    else
      let later := processPacketsUntil waitforpackettype rest
      { later with
        handled := (if packetType buffer = ctrlPublish then [buffer] else []) ++ later.handled }
termination_by stream.length
decreasing_by exact readFullPacket_length _h

/-! ### The receiver -/

structure Message where
  topic : List UInt8
  payload : List UInt8
  qos : UInt8
  packetId : Option Nat
deriving DecidableEq, Repr

def value16 (hi lo : UInt8) : Nat := hi.toNat * 256 + lo.toNat

/-- The topic, the identifier and the payload. -/
def decodeBody (qos : UInt8) : List UInt8 → Option Message
  | hi :: lo :: body =>
    let topic := body.take (value16 hi lo)
    let rest := body.drop (value16 hi lo)
    if body.length < value16 hi lo then none
    else if qos = 0 then some { topic, payload := rest, qos, packetId := none }
    else match rest with
      | hi :: lo :: payload => some { topic, payload, qos, packetId := some (value16 hi lo) }
      | _ => none
  | _ => none

def decodePublish : List UInt8 → Option Message
  | [] => none
  | header :: bytes =>
    let qos := (header >>> 1) &&& 3
    if header >>> 4 ≠ ctrlPublish ∨ qos = 3 then none
    else (decode bytes).bind fun (len, body) =>
      if body.length = len then decodeBody qos body else none

/-! ### Packets -/

/-- What is in front of the length, and what follows it. -/
structure Packet where
  header : UInt8
  body : List UInt8
deriving DecidableEq, Repr

def Packet.bytes (p : Packet) : List UInt8 := p.header :: (encode p.body.length ++ p.body)

/-- `readFullPacket` leaves a byte of its buffer free. -/
def Packet.Fits (p : Packet) : Prop := p.bytes.length < maxBufferSize

/-! ### Bytes -/

theorem toNat_low (n : UInt16) : (n &&& 0xFF).toUInt8.toNat = n.toNat % 256 := by
  have hmask : (0xFF : UInt16).toNat = 2 ^ 8 - 1 := rfl
  rw [UInt16.toNat_toUInt8, UInt16.toNat_and, hmask, Nat.and_two_pow_sub_one_eq_mod]
  omega

theorem toNat_high (n : UInt16) : (n >>> 8).toUInt8.toNat = n.toNat / 256 := by
  have hshift : (8 : UInt16).toNat % 16 = 8 := rfl
  rw [UInt16.toNat_toUInt8, UInt16.toNat_shiftRight, hshift, Nat.shiftRight_eq_div_pow]
  have := n.toNat_lt
  omega

theorem value16_bytes16 (n : UInt16) :
    value16 (n >>> 8).toUInt8 (n &&& 0xFF).toUInt8 = n.toNat := by
  rw [value16, toNat_low, toNat_high, Nat.mul_comm, Nat.div_add_mod]

theorem toNat_or_128 {b : UInt8} (h : b.toNat < 128) : (b ||| 0x80).toNat = b.toNat + 128 := by
  have hbit : (0x80 : UInt8).toNat = 2 ^ 7 * 1 := rfl
  rw [UInt8.toNat_or, hbit, Nat.or_comm, ← Nat.two_pow_add_eq_or_of_lt h]
  omega

theorem toNat_ofNat16 {n : Nat} (h : n < 2 ^ 16) : (UInt16.ofNat n).toNat = n := by
  rw [UInt16.toNat_ofNat']
  exact Nat.mod_eq_of_lt h

/-- The loop writes the length in base 128. -/
theorem lengthBytes_eq {rounds : Nat} {len : UInt16} (h : len.toNat < 128 ^ (rounds + 1)) :
    lengthBytes (rounds + 1) len = encode len.toNat := by
  have h128 : (128 : UInt16).toNat = 128 := rfl
  have hbyte (len : UInt16) : (len % 128).toUInt8.toNat = len.toNat % 128 := by
    rw [UInt16.toNat_toUInt8, UInt16.toNat_mod, h128]
    omega
  have hdiv (len : UInt16) : (len / 128).toNat = len.toNat / 128 := by
    rw [UInt16.toNat_div, h128]
  have hpos (len : UInt16) : len / 128 > 0 ↔ 128 ≤ len.toNat := by
    rw [gt_iff_lt, UInt16.lt_iff_toNat_lt, hdiv, UInt16.toNat_zero]
    omega
  have hlast {len : UInt16} (hlt : len.toNat < 128) :
      [(len % 128).toUInt8] = encode len.toNat := by
    rw [encode_of_lt hlt, List.singleton_inj, ← UInt8.toNat_inj, hbyte, toNat_ofNat (by omega)]
    omega
  induction rounds generalizing len with
  | zero =>
    rw [lengthBytes, if_neg (by rw [hpos]; omega)]
    exact hlast (by omega)
  | succ rounds ih =>
    rw [lengthBytes]
    split
    case isTrue hlen =>
      rw [hpos] at hlen
      have hrest : (len / 128).toNat < 128 ^ (rounds + 1) := by
        rw [hdiv, Nat.div_lt_iff_lt_mul (by decide), ← Nat.pow_succ]
        exact h
      have hor : (len % 128).toUInt8 ||| 0x80 = UInt8.ofNat (len.toNat % 128 + 128) := by
        rw [← UInt8.toNat_inj, toNat_or_128 (by rw [hbyte]; omega), hbyte, toNat_ofNat (by omega)]
      rw [ih hrest, hdiv, hor, ← encode_of_le hlen]
    case isFalse hlen =>
      rw [hpos] at hlen
      exact hlast (by omega)

section
variable {topic data rest : List UInt8} {qos : UInt8} {id : UInt16}

/-- The bytes after the length. -/
def publishBody (id : UInt16) (topic data : List UInt8) (qos : UInt8) : List UInt8 :=
  bytes16 (UInt16.ofNat topic.length) ++ topic ++ (if qos > 0 then bytes16 id else []) ++ data

theorem length_publishBody : (publishBody id topic data qos).length =
    topic.length + data.length + (if qos > 0 then 4 else 2) := by
  unfold publishBody bytes16
  split <;> simp only [List.length_append, List.length_cons, List.length_nil] <;> omega

/-- The layout of a packet whose length a `uint16_t` holds. -/
theorem publishPacket_eq (h : topic.length + data.length + 4 < 2 ^ 16) :
    (publishPacket id topic data qos).1 =
      Packet.bytes ⟨ctrlPublish <<< 4 ||| qos <<< 1, publishBody id topic data qos⟩ := by
  have htopic : (UInt16.ofNat topic.length).toNat = topic.length := toNat_ofNat16 (by omega)
  have hdata : (UInt16.ofNat data.length).toNat = data.length := toNat_ofNat16 (by omega)
  have hlen : (2 + UInt16.ofNat topic.length + (if qos > 0 then 2 else 0) +
      UInt16.ofNat data.length : UInt16).toNat = (publishBody id topic data qos).length := by
    rw [length_publishBody]
    split <;> simp only [UInt16.toNat_add, htopic, hdata, UInt16.reduceToNat] <;> omega
  have hround : (2 + UInt16.ofNat topic.length + (if qos > 0 then 2 else 0) +
      UInt16.ofNat data.length : UInt16).toNat < 128 ^ 3 := by
    have := UInt16.toNat_lt (2 + UInt16.ofNat topic.length + (if qos > 0 then 2 else 0) +
      UInt16.ofNat data.length)
    omega
  simp only [publishPacket, stringprint, lengthBytes_eq hround, hlen, htopic, hdata,
    List.take_length, Packet.bytes, publishBody, List.append_assoc]

/-! ### What a receiver makes of a packet -/

theorem decodeBody_publishBody (htopic : topic.length < 2 ^ 16) :
    decodeBody qos (publishBody id topic data qos) = some
      { topic, payload := data, qos, packetId := if qos > 0 then some id.toNat else none } := by
  have hlen : value16 (UInt16.ofNat topic.length >>> 8).toUInt8
      (UInt16.ofNat topic.length &&& 0xFF).toUInt8 = topic.length := by
    rw [value16_bytes16, toNat_ofNat16 htopic]
  unfold publishBody bytes16
  simp only [List.append_assoc, List.cons_append, List.nil_append]
  rw [decodeBody]
  simp only [hlen, List.length_append, List.take_left', List.drop_left']
  rw [if_neg (by omega)]
  by_cases hq : qos = 0
  · simp [hq]
  · have hpos : qos > 0 := UInt8.pos_iff_ne_zero.mpr hq
    rw [if_neg hq, if_pos hpos, if_pos hpos]
    simp only [List.cons_append, List.nil_append, value16_bytes16]

theorem header_eq (hqos : qos ≤ 2) :
    (ctrlPublish <<< 4 ||| qos <<< 1) >>> 4 = ctrlPublish ∧
      ((ctrlPublish <<< 4 ||| qos <<< 1) >>> 1) &&& 3 = qos ∧ qos ≠ 3 := by
  have hle : qos.toNat ≤ 2 := hqos
  obtain h | h | h : qos = 0 ∨ qos = 1 ∨ qos = 2 := by
    simp only [← UInt8.toNat_inj, UInt8.reduceToNat]
    omega
  all_goals
    subst h
    decide

/-- The receiver recovers what was published. -/
theorem decodePublish_publishPacket (h : topic.length + data.length + 4 < 2 ^ 16) (hqos : qos ≤ 2) :
    decodePublish (publishPacket id topic data qos).1 = some
      { topic, payload := data, qos, packetId := if qos > 0 then some id.toNat else none } := by
  obtain ⟨htype, hflags, hthree⟩ := header_eq hqos
  rw [publishPacket_eq h, Packet.bytes, decodePublish]
  simp only [htype, hflags, decode_encode, Option.bind_some, if_true]
  rw [if_neg (by rintro (h | h); exacts [h rfl, hthree h])]
  exact decodeBody_publishBody (by omega)

/-! ### Packets in a stream -/

theorem and_128_ne_zero {b : UInt8} : b &&& 0x80 ≠ 0 ↔ 128 ≤ b.toNat := by
  have hbit : (0x80 : UInt8).toNat = 2 ^ 7 := rfl
  rw [ne_eq, ← UInt8.toNat_inj, UInt8.toNat_and, hbit, UInt8.toNat_zero]
  exact BitStream.and_two_pow_ne_zero b.toNat_lt

theorem toUInt32_and_127 {b : UInt8} :
    (b &&& 0x7F).toUInt32 = UInt32.ofNat (b.toNat % 128) := by
  have hmask : (0x7F : UInt8).toNat = 2 ^ 7 - 1 := rfl
  rw [← UInt32.toNat_inj, UInt8.toNat_toUInt32, UInt8.toNat_and, hmask,
    Nat.and_two_pow_sub_one_eq_mod, UInt32.toNat_ofNat']
  omega

section
variable {value multiplier : UInt32} {k n : Nat} {b : UInt8}

theorem toNat_multiplier (h : multiplier.toNat * 128 ≤ 128 ^ 3) :
    (multiplier * 128).toNat = multiplier.toNat * 128 := by
  have h128 : (128 : UInt32).toNat = 128 := rfl
  rw [UInt32.toNat_mul, h128]
  omega

/-- A byte of the length, while the multiplier is in its range. -/
theorem readLength_cons (h : multiplier.toNat * 128 ≤ 128 ^ 3) :
    readLength value multiplier (b :: rest) =
      if 128 ≤ b.toNat then
        (readLength (value + UInt32.ofNat (b.toNat % 128) * multiplier) (multiplier * 128) rest).map
          fun (value, bytes, rest) => (value, b :: bytes, rest)
      else some (value + UInt32.ofNat (b.toNat % 128) * multiplier, [b], rest) := by
  have hbound : (128 * 128 * 128 : UInt32).toNat = 128 ^ 3 := rfl
  have hrange : ¬ multiplier * 128 > 128 * 128 * 128 := by
    rw [gt_iff_lt, UInt32.lt_iff_toNat_lt, hbound, toNat_multiplier h]
    omega
  rw [readLength, if_neg hrange, toUInt32_and_127]
  simp only [and_128_ne_zero]

theorem readLength_encode (hn : n < 128 ^ (k + 1))
    (hm : multiplier.toNat * 128 ^ (k + 1) ≤ 128 ^ 3) :
    readLength value multiplier (encode n ++ rest) =
      some (value + UInt32.ofNat n * multiplier, encode n, rest) := by
  have hle {k : Nat} {multiplier : UInt32} (hm : multiplier.toNat * 128 ^ (k + 1) ≤ 128 ^ 3) :
      multiplier.toNat * 128 ≤ 128 ^ 3 :=
    Nat.le_trans (Nat.mul_le_mul_left _ (Nat.le_self_pow (Nat.succ_ne_zero k) 128)) hm
  have hlast {n : Nat} {value multiplier : UInt32} (h : n < 128)
      (hm : multiplier.toNat * 128 ≤ 128 ^ 3) : readLength value multiplier (encode n ++ rest) =
        some (value + UInt32.ofNat n * multiplier, encode n, rest) := by
    have hb : (UInt8.ofNat n).toNat = n := toNat_ofNat (by omega)
    rw [encode_of_lt h, List.singleton_append, readLength_cons hm, hb, if_neg (by omega),
      Nat.mod_eq_of_lt h]
  induction k generalizing n value multiplier with
  | zero => exact hlast (by omega) (hle hm)
  | succ k ih =>
    rcases Nat.lt_or_ge n 128 with h | h
    · exact hlast h (hle hm)
    have hb : (UInt8.ofNat (n % 128 + 128)).toNat = n % 128 + 128 := toNat_ofNat (by omega)
    have hdigits : n / 128 < 128 ^ (k + 1) := by
      rw [Nat.div_lt_iff_lt_mul (by decide), ← Nat.pow_succ]
      exact hn
    have hnext : (multiplier * 128).toNat * 128 ^ (k + 1) ≤ 128 ^ 3 := by
      rw [toNat_multiplier (hle hm), Nat.mul_assoc, ← Nat.pow_succ']
      exact hm
    have hsum : UInt32.ofNat (n % 128) + UInt32.ofNat (n / 128) * 128 = UInt32.ofNat n := by
      have h128 : (128 : UInt32) = UInt32.ofNat 128 := rfl
      rw [h128, ← UInt32.ofNat_mul, ← UInt32.ofNat_add, Nat.mul_comm, Nat.mod_add_div]
    rw [encode_of_le h, List.cons_append, readLength_cons (hle hm), hb, if_pos (by omega),
      ih hdigits hnext, Nat.add_mod_right, Nat.mod_mod, ← hsum]
    simp only [Option.map_some, Option.some.injEq, Prod.mk.injEq, and_true]
    grind

/-- A packet that does not fit the buffer is cut, and its end is left in the stream. -/
theorem readFullPacket_bytes {p : Packet} (h : p.body.length < 128 ^ 3) :
    readFullPacket (p.bytes ++ rest) = some (p.bytes.take 149, p.bytes.drop 149 ++ rest) := by
  obtain ⟨header, body⟩ := p
  dsimp only at h
  have hdigits : (encode body.length).length ≤ 3 := length_encode_le.mpr h
  have hlen : (0 + UInt32.ofNat body.length * 1).toNat = body.length := by
    rw [UInt32.mul_one, UInt32.zero_add, UInt32.toNat_ofNat']
    omega
  have hread : readLength 0 1 (encode body.length ++ (body ++ rest)) =
      some (0 + UInt32.ofNat body.length * 1, encode body.length, body ++ rest) :=
    readLength_encode h (by decide)
  unfold Packet.bytes
  rw [List.cons_append, List.append_assoc, readFullPacket, hread]
  simp only [Option.map_some, hlen, maxBufferSize]
  generalize encode body.length = bytes at hdigits ⊢
  have htake : (header :: (bytes ++ body)).take 149 =
      header :: bytes ++ body.take (148 - bytes.length) := by
    rw [List.take_succ_cons, List.take_append, List.take_of_length_le (by omega), List.cons_append]
  have hdrop : (header :: (bytes ++ body)).drop 149 = body.drop (148 - bytes.length) := by
    rw [List.drop_succ_cons, List.drop_append, List.drop_eq_nil_of_le (by omega), List.nil_append]
  have hroom : 150 - (1 + bytes.length) - 1 = 148 - bytes.length := by omega
  rw [htake, hdrop, hroom]
  split
  case isTrue hbig =>
    rw [List.take_append_of_le_length (Nat.le_of_lt hbig),
      List.drop_append_of_le_length (Nat.le_of_lt hbig)]
  case isFalse hfits =>
    rw [List.take_left, List.drop_left, List.take_of_length_le (by omega),
      List.drop_eq_nil_of_le (by omega), List.nil_append]

theorem Packet.Fits.body_lt {p : Packet} (h : p.Fits) : p.body.length < 128 ^ 3 := by
  unfold Packet.Fits Packet.bytes maxBufferSize at h
  rw [List.length_cons, List.length_append] at h
  omega

theorem Packet.fits_of_lt {p : Packet} (h : p.body.length < 128) : p.Fits := by
  rw [Packet.Fits, Packet.bytes, encode_of_lt h, List.length_cons, List.length_append,
    List.length_singleton, maxBufferSize]
  omega

theorem readFullPacket_fits {p : Packet} (h : p.Fits) :
    readFullPacket (p.bytes ++ rest) = some (p.bytes, rest) := by
  have hle : p.bytes.length ≤ 149 := Nat.le_of_lt_succ h
  rw [readFullPacket_bytes h.body_lt, List.take_of_length_le hle, List.drop_eq_nil_of_le hle,
    List.nil_append]

/-- A reader that finds a published packet goes on after its end. -/
theorem readFullPacket_publishPacket (h : topic.length + data.length + 4 < 2 ^ 16)
    (hfits : (publishPacket id topic data qos).1.length < maxBufferSize) :
    readFullPacket ((publishPacket id topic data qos).1 ++ rest) =
      some ((publishPacket id topic data qos).1, rest) := by
  rw [publishPacket_eq h] at hfits ⊢
  exact readFullPacket_fits hfits

theorem packetType_bytes {p : Packet} : packetType p.bytes = p.header >>> 4 := rfl

/-- Until the packet that is waited for, packets are taken out of the stream one by one. -/
theorem processPacketsUntil_bytes {wait : UInt8} {ps : List Packet} {p : Packet}
    (hps : ∀ q ∈ ps, q.Fits ∧ q.header >>> 4 ≠ wait) (hp : p.Fits) (htype : p.header >>> 4 = wait) :
    processPacketsUntil wait (ps.flatMap Packet.bytes ++ (p.bytes ++ rest)) =
      { handled := (ps.map Packet.bytes).filter (packetType · = ctrlPublish)
        found := some (p.bytes, rest) } := by
  induction ps with
  | nil =>
    rw [List.flatMap_nil, List.nil_append, processPacketsUntil]
    split
    case h_1 h =>
      rw [readFullPacket_fits hp] at h
      cases h
    case h_2 buffer after h =>
      rw [readFullPacket_fits hp] at h
      cases h
      rw [packetType_bytes, if_pos htype]
      rfl
  | cons q ps ih =>
    obtain ⟨⟨hfits, hne⟩, hps⟩ := List.forall_mem_cons.mp hps
    rw [List.flatMap_cons, List.append_assoc, processPacketsUntil]
    split
    case h_1 h =>
      rw [readFullPacket_fits hfits] at h
      cases h
    case h_2 buffer after h =>
      rw [readFullPacket_fits hfits] at h
      cases h
      rw [packetType_bytes, if_neg hne, ih hps, List.map_cons, List.filter_cons, packetType_bytes]
      split <;> simp_all

/-- A publication comes before the acknowledgement, and a ping reply after it. -/
theorem processPacketsUntil_bytes_puback :
    let p : Packet := ⟨0x40, [0, 7]⟩
    processPacketsUntil 4
        ([⟨0x30, [0, 1, 97, 98]⟩].flatMap Packet.bytes ++ (p.bytes ++ [0xD0, 0])) =
      { handled := ([⟨0x30, [0, 1, 97, 98]⟩].map Packet.bytes).filter (packetType · = ctrlPublish)
        found := some (p.bytes, [0xD0, 0]) } :=
  processPacketsUntil_bytes
    (List.forall_mem_singleton.mpr ⟨Packet.fits_of_lt (by decide), by decide⟩)
    (Packet.fits_of_lt (by decide)) rfl

end

end

end D1Mini.Mqtt
