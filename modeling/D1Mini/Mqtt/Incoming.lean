import D1Mini.Mqtt.Subscriptions
import Mathlib.Logic.Function.Iterate

/-!
# The publications that come in

`readSubscription` of `Adafruit_MQTT.cpp` takes a packet out of the stream and stores its data with
the first subscription of that topic. The packet lies at the start of `buffer`; what is behind it is
left from the packets before.

* `iterate_readSubscription`: what a stream of publications leaves, and what is acknowledged;
* `publish_acknowledged`: what a publisher learns from the acknowledgement.
-/

namespace D1Mini.Mqtt
open EventMachine SlotTable VarLength

/-- The memory from `buffer` on, when `bytes` have been written to its start. -/
def overlay (bytes : List UInt8) (buffer : Nat → UInt8) : Nat → UInt8 :=
  fun i => bytes.getD i (buffer i)

/-! ### `strncasecmp` -/

def tolower (c : UInt8) : UInt8 := if 65 ≤ c ∧ c ≤ 90 then c + 32 else c

def strncasecmp (str1 str2 : Nat → UInt8) : Nat → Int
  | 0 => 0
  | len + 1 =>
    let c1 := tolower (str1 0)
    let c2 := tolower (str2 0)
    let d : Int := c1.toNat - c2.toNat
    if d ≠ 0 ∨ c2 = 0 then d
    else strncasecmp (fun i => str1 (i + 1)) (fun i => str2 (i + 1)) len

/-- The text that a `const char *` points to. -/
def chars (s : List UInt8) : Nat → UInt8 := fun i => s.getD i 0

/-! ### `handleSubscriptionPacket` -/

/-- `SUBSCRIPTIONDATALEN - 1` bytes are kept of data that are too long. -/
def cutDatalen (datalen : UInt16) : UInt16 := if datalen > 100 then 99 else datalen

theorem cutDatalen_le {datalen : UInt16} : (cutDatalen datalen).toNat ≤ subscriptionDataLen := by
  unfold cutDatalen
  split
  case isTrue => decide
  case isFalse h => exact UInt16.not_lt.mp h

/-- The data of a packet that begin at `start`. -/
def Subscribe.store (s : Subscribe) (buffer : Nat → UInt8) (start : Nat) (datalen : UInt16) :
    Subscribe :=
  let datalen := cutDatalen datalen
  { s with
    lastread := (List.range datalen.toNat).map (fun i => buffer (start + i)) ++
      List.replicate (subscriptionDataLen - datalen.toNat) 0
    datalen
    length_lastread := by
      rw [List.length_append, List.length_map, List.length_range, List.length_replicate]
      exact Nat.add_sub_cancel' cutDatalen_le }

/-- What a packet leaves, the subscription that is returned, and the packet that is sent. -/
structure Handled (P : Type) where
  objects : P → Subscribe
  sub : Option P
  ack : List UInt8

variable {P : Type}

/-- The length of the topic is looked up first. -/
def topicMatches (objects : P → Subscribe) (buffer : Nat → UInt8) (topiclen : UInt16) (sub : P) :
    Bool :=
  (objects sub).topic.length == topiclen.toNat &&
    strncasecmp (fun i => buffer (4 + i)) (chars (objects sub).topic) topiclen.toNat == 0

/-- The length of the identifier: there is one if the quality of service is 1. -/
def packetIdLen (buffer : Nat → UInt8) : UInt16 := if buffer 0 &&& 6 = 2 then 2 else 0

def handleSubscriptionPacket [DecidableEq P] (c : AdafruitMqtt P) (objects : P → Subscribe)
    (buffer : Nat → UInt8) (len : UInt16) : Handled P :=
  if len < 3 then { objects, sub := none, ack := [] }
  else if buffer 0 &&& (0xF0 : UInt8) ≠ ctrlPublish <<< 4 then { objects, sub := none, ack := [] }
  else
    let topiclen := (buffer 3).toUInt16
    match (c.subscriptions.find? (Option.any (topicMatches objects buffer topiclen))).join with
    | none => { objects, sub := none, ack := [] }
    | some sub =>
      let packetid := (buffer (topiclen.toNat + 4)).toUInt16 <<< 8 |||
        (buffer (topiclen.toNat + 5)).toUInt16
      let datalen := len - topiclen - packetIdLen buffer - 4
      let start := 4 + topiclen.toNat + (packetIdLen buffer).toNat
      { objects := Function.update objects sub ((objects sub).store buffer start datalen)
        sub := some sub
        ack := if buffer 0 &&& 6 = 2 then pubackPacket packetid else [] }

/-! ### Reading one packet after the other -/

/-- The state of a client that reads: the subscriptions, its buffer, the bytes that come in, and the
packets it has sent. -/
structure Reader (P : Type) where
  objects : P → Subscribe
  buffer : Nat → UInt8
  stream : List UInt8
  sent : List UInt8

/-- The packet in `buffer` and its length; a packet without an end leaves its first bytes there. -/
def readPacketInto (buffer : Nat → UInt8) (stream : List UInt8) :
    (Nat → UInt8) × UInt16 × List UInt8 :=
  match readFullPacket stream with
  | some (packet, rest) => (overlay packet buffer, UInt16.ofNat packet.length, rest)
  | none => (overlay (stream.take 5) buffer, 0, stream.drop 5)

def readSubscription [DecidableEq P] (c : AdafruitMqtt P) (s : Reader P) : Reader P :=
  let (buffer, len, stream) := readPacketInto s.buffer s.stream
  let handled := handleSubscriptionPacket c s.objects buffer len
  { objects := handled.objects, buffer, stream, sent := s.sent ++ handled.ack }

/-! ### What a publication should do -/

/-- A message as its sender hands it to `publishPacket`. -/
structure Sent where
  topic : List UInt8
  data : List UInt8
  qos : UInt8
  id : UInt16
deriving DecidableEq, Repr

def Sent.body (m : Sent) : List UInt8 := publishBody m.id m.topic m.data m.qos

def Sent.packet (m : Sent) : Packet := ⟨ctrlPublish <<< 4 ||| m.qos <<< 1, m.body⟩

/-- The packet fits the buffer, and its quality of service is one that is supported. -/
structure Sent.Supported (m : Sent) : Prop where
  fits : m.packet.Fits
  qos_le : m.qos ≤ 1

/-- What is kept of the data. -/
def cutData (data : List UInt8) : List UInt8 := if data.length > 100 then data.take 99 else data

theorem length_cutData_le {data : List UInt8} : (cutData data).length ≤ subscriptionDataLen := by
  unfold cutData
  split
  case isTrue => exact Nat.le_trans (List.length_take_le _ _) (by decide)
  case isFalse h => exact Nat.not_lt.mp h

def Subscribe.receive (s : Subscribe) (data : List UInt8) : Subscribe :=
  { s with
    lastread := cutData data ++ List.replicate (subscriptionDataLen - (cutData data).length) 0
    datalen := UInt16.ofNat (cutData data).length
    length_lastread := by
      rw [List.length_append, List.length_replicate]
      exact Nat.add_sub_cancel' length_cutData_le }

/-- The first subscription of the topic, in whatever case its letters are. -/
def AdafruitMqtt.subscriber (c : AdafruitMqtt P) (objects : P → Subscribe) (topic : List UInt8) :
    Option P :=
  (members c.subscriptions).find? fun sub =>
    (objects sub).topic.map tolower = topic.map tolower

def deliver [DecidableEq P] (c : AdafruitMqtt P) (objects : P → Subscribe) (m : Sent) :
    Handled P :=
  match c.subscriber objects m.topic with
  | none => { objects, sub := none, ack := [] }
  | some sub =>
    { objects := Function.update objects sub ((objects sub).receive m.data)
      sub := some sub
      ack := if m.qos = 1 then pubackPacket m.id else [] }

section
variable {s t r : List UInt8} {buffer : Nat → UInt8} {i : Nat} {a b : UInt8}

/-! ### The buffer -/

theorem overlay_of_lt (h : i < s.length) : overlay s buffer i = s.getD i 0 := by
  unfold overlay
  rw [List.getD_eq_getElem _ _ h, List.getD_eq_getElem _ _ h]

theorem overlay_append (i : Nat) :
    overlay (s ++ r) buffer (s.length + i) = overlay r (fun i => buffer (s.length + i)) i := by
  unfold overlay
  rw [List.getD_append_right _ _ _ _ (Nat.le_add_right _ _), Nat.add_sub_cancel_left]

theorem tolower_ne_zero (h : a ≠ 0) : tolower a ≠ 0 := by
  unfold tolower
  split
  case isFalse => exact h
  case isTrue hrange =>
    obtain ⟨hlow, hhigh⟩ := hrange
    have hlow : 65 ≤ a.toNat := hlow
    have hhigh : a.toNat ≤ 90 := hhigh
    have h32 : (32 : UInt8).toNat = 32 := rfl
    rw [ne_eq, ← UInt8.toNat_inj, UInt8.toNat_add, h32, UInt8.toNat_zero]
    omega

theorem toNat_sub_eq_zero : (a.toNat : Int) - b.toNat = 0 ↔ a = b := by
  rw [← UInt8.toNat_inj]
  omega

/-- The comparison is that of the letters, for texts of one length. -/
theorem strncasecmp_eq_zero (h : s.length = t.length) (ht : 0 ∉ t) :
    strncasecmp (overlay (s ++ r) buffer) (chars t) t.length = 0 ↔
      s.map tolower = t.map tolower := by
  induction t generalizing s buffer with
  | nil =>
    obtain rfl : s = [] := List.length_eq_zero_iff.mp h
    exact iff_of_true rfl rfl
  | cons b t ih =>
    obtain ⟨a, s, rfl⟩ := List.exists_cons_of_length_eq_add_one h
    rw [List.mem_cons, not_or] at ht
    have hb : tolower b ≠ 0 := tolower_ne_zero (Ne.symm ht.1)
    have htail : strncasecmp (overlay (a :: s ++ r) buffer) (chars (b :: t)) (b :: t).length =
        if (tolower a).toNat - (tolower b).toNat ≠ (0 : Int) ∨ tolower b = 0 then
          ((tolower a).toNat - (tolower b).toNat : Int)
        else strncasecmp (overlay (s ++ r) fun i => buffer (i + 1)) (chars t) t.length := rfl
    rw [htail, List.map_cons, List.map_cons, List.cons.injEq]
    split
    case isTrue hstop =>
      have hne := hstop.resolve_right hb
      exact iff_of_false hne fun heq => hne (toNat_sub_eq_zero.mpr heq.1)
    case isFalse hgo =>
      rw [not_or, not_not, toNat_sub_eq_zero] at hgo
      rw [ih (Nat.succ.inj h) ht.2, and_iff_right hgo.1]

/-! ### Storing -/

theorem toNat_cutDatalen (h : s.length < 2 ^ 16) :
    (cutDatalen (UInt16.ofNat s.length)).toNat = (cutData s).length := by
  have hlen : (UInt16.ofNat s.length).toNat = s.length := toNat_ofNat16 h
  have hmax : (UInt16.ofNat s.length) > 100 ↔ s.length > 100 := by
    rw [gt_iff_lt, UInt16.lt_iff_toNat_lt, hlen]
    rfl
  unfold cutDatalen cutData
  simp only [hmax]
  split
  case isTrue hlong =>
    rw [List.length_take, Nat.min_eq_left (by omega)]
    rfl
  case isFalse => exact hlen

theorem cutData_prefix : cutData s <+: s := by
  unfold cutData
  split
  case isTrue => exact List.take_prefix _ _
  case isFalse => exact List.prefix_rfl

/-- The data are stored from where they begin. -/
theorem store_eq {start : Nat} {o : Subscribe} (h : s.length < 2 ^ 16)
    (hbuffer : ∀ i < s.length, buffer (start + i) = s.getD i 0) :
    o.store buffer start (UInt16.ofNat s.length) = o.receive s := by
  have hlen := toNat_cutDatalen h
  have hlast : cutDatalen (UInt16.ofNat s.length) = UInt16.ofNat (cutData s).length := by
    rw [← hlen, UInt16.ofNat_toNat]
  have hdata : (List.range (cutData s).length).map (fun i => buffer (start + i)) = cutData s := by
    apply List.ext_getElem
    · rw [List.length_map, List.length_range]
    · intro i hi hi'
      have his : i < s.length := Nat.lt_of_lt_of_le hi' cutData_prefix.length_le
      rw [List.getElem_map, List.getElem_range, hbuffer i his, List.getD_eq_getElem _ _ his,
        cutData_prefix.getElem hi']
  rw [hlast] at hlen
  unfold Subscribe.store Subscribe.receive
  simp only [hlast, hlen, hdata]

end

/-! ### A publication in the buffer -/

section
variable {c : AdafruitMqtt P} {objects : P → Subscribe} {buffer : Nat → UInt8} {m : Sent} {sub : P}

/-- The identifier, if there is one, and the data. -/
def Sent.rest (m : Sent) : List UInt8 := (if m.qos > 0 then bytes16 m.id else []) ++ m.data

theorem Sent.body_eq : m.body = (UInt16.ofNat m.topic.length >>> 8).toUInt8 ::
    (UInt16.ofNat m.topic.length &&& 0xFF).toUInt8 :: (m.topic ++ m.rest) := by
  rw [Sent.body, publishBody, Sent.rest, bytes16, List.append_assoc, List.append_assoc]
  rfl

theorem Sent.length_body : m.body.length = 2 + m.topic.length + m.rest.length := by
  rw [Sent.body_eq, List.length_cons, List.length_cons, List.length_append]
  omega

/-- A short packet has its topic at the fifth byte. -/
theorem Sent.bytes_short (h : m.body.length < 128) : m.packet.bytes =
    (ctrlPublish <<< 4 ||| m.qos <<< 1) :: UInt8.ofNat m.body.length ::
      (UInt16.ofNat m.topic.length >>> 8).toUInt8 ::
      (UInt16.ofNat m.topic.length &&& 0xFF).toUInt8 :: (m.topic ++ m.rest) := by
  have hbody : m.packet.body = m.body := rfl
  rw [Packet.bytes, hbody, encode_of_lt h, List.singleton_append, Sent.body_eq]
  rfl

theorem overlay_five {a b c d : UInt8} {s : List UInt8} {i : Nat} :
    overlay (a :: b :: c :: d :: s) buffer (4 + i) = overlay s (fun i => buffer (i + 4)) i := by
  rw [Nat.add_comm]
  rfl

theorem toUInt16_low {n : Nat} (h : n < 128) :
    ((UInt16.ofNat n &&& 0xFF).toUInt8).toUInt16 = UInt16.ofNat n := by
  rw [← UInt16.toNat_inj, UInt8.toNat_toUInt16, toNat_low, toNat_ofNat16 (by omega)]
  omega

theorem topicMatches_eq (h : m.body.length < 128) :
    topicMatches objects (overlay m.packet.bytes buffer) (UInt16.ofNat m.topic.length) sub =
      decide ((objects sub).topic.map tolower = m.topic.map tolower) := by
  have hlen := m.length_body
  have htopic : (UInt16.ofNat m.topic.length).toNat = m.topic.length := toNat_ofNat16 (by omega)
  rw [Bool.eq_iff_iff, decide_eq_true_iff, topicMatches, Bool.and_eq_true, beq_iff_eq, beq_iff_eq,
    htopic, m.bytes_short h]
  simp only [overlay_five]
  constructor
  · rintro ⟨hsub, hcmp⟩
    rw [← hsub, strncasecmp_eq_zero hsub.symm (objects sub).topic_nul] at hcmp
    exact hcmp.symm
  · intro hmap
    have hsub : (objects sub).topic.length = m.topic.length := by
      simpa only [List.length_map] using congrArg List.length hmap
    refine ⟨hsub, ?_⟩
    rw [← hsub, strncasecmp_eq_zero hsub.symm (objects sub).topic_nul]
    exact hmap.symm

theorem find_eq_subscriber (h : m.body.length < 128) :
    (c.subscriptions.find? (Option.any (topicMatches objects (overlay m.packet.bytes buffer)
      (UInt16.ofNat m.topic.length)))).join = c.subscriber objects m.topic := by
  have hmatches : topicMatches objects (overlay m.packet.bytes buffer)
      (UInt16.ofNat m.topic.length) =
        fun sub => decide ((objects sub).topic.map tolower = m.topic.map tolower) :=
    funext fun sub => topicMatches_eq h
  rw [hmatches, AdafruitMqtt.subscriber, members, List.find?_filterMap]
  rfl

theorem Sent.Supported.qos_cases (h : m.Supported) : m.qos = 0 ∨ m.qos = 1 := by
  have hle : m.qos.toNat ≤ 1 := h.qos_le
  simp only [← UInt8.toNat_inj, UInt8.reduceToNat]
  omega

theorem header_supported (h : m.Supported) :
    (ctrlPublish <<< 4 ||| m.qos <<< 1) &&& (0xF0 : UInt8) = ctrlPublish <<< 4 ∧
      ((ctrlPublish <<< 4 ||| m.qos <<< 1) &&& 6 = 2 ↔ m.qos = 1) := by
  obtain hq | hq := h.qos_cases
  all_goals
    rw [hq]
    decide

theorem packetid_eq (h : m.qos = 1) {buffer : Nat → UInt8} :
    (overlay m.rest buffer 0).toUInt16 <<< 8 ||| (overlay m.rest buffer 1).toUInt16 = m.id := by
  have hpos : m.qos > 0 := h ▸ (by decide)
  have hrest : m.rest = (m.id >>> 8).toUInt8 :: (m.id &&& 0xFF).toUInt8 :: m.data := by
    rw [Sent.rest, if_pos hpos]
    rfl
  have hhigh : overlay m.rest buffer 0 = (m.id >>> 8).toUInt8 := by
    rw [hrest]
    rfl
  have hlow : overlay m.rest buffer 1 = (m.id &&& 0xFF).toUInt8 := by
    rw [hrest]
    rfl
  rw [hhigh, hlow, ← UInt16.toNat_inj, toNat_packnum, value16_bytes16]

theorem first_short (h : m.body.length < 128) :
    overlay m.packet.bytes buffer 0 = ctrlPublish <<< 4 ||| m.qos <<< 1 := by
  rw [m.bytes_short h]
  rfl

theorem packetIdLen_eq (buffer : Nat → UInt8) (h : m.Supported) (hshort : m.body.length < 128) :
    ∃ ids, m.rest = ids ++ m.data ∧
      (packetIdLen (overlay m.packet.bytes buffer)).toNat = ids.length := by
  refine ⟨if m.qos > 0 then bytes16 m.id else [], rfl, ?_⟩
  rw [packetIdLen, first_short hshort]
  obtain hq | hq := h.qos_cases
  all_goals
    rw [hq]
    rfl

/-- The data begin behind the topic and the identifier. -/
theorem store_data (h : m.Supported) (hshort : m.body.length < 128) :
    (objects sub).store (overlay m.packet.bytes buffer) (4 + (UInt16.ofNat m.topic.length).toNat +
        (packetIdLen (overlay m.packet.bytes buffer)).toNat)
      (UInt16.ofNat m.packet.bytes.length - UInt16.ofNat m.topic.length -
        packetIdLen (overlay m.packet.bytes buffer) - 4) = (objects sub).receive m.data := by
  obtain ⟨ids, hrest, hids⟩ := packetIdLen_eq buffer h hshort
  generalize packetIdLen (overlay m.packet.bytes buffer) = idLen at hids ⊢
  have hbody := m.length_body
  have hlength : m.rest.length = idLen.toNat + m.data.length := by
    rw [hrest, List.length_append, hids]
  have htopic : (UInt16.ofNat m.topic.length).toNat = m.topic.length := toNat_ofNat16 (by omega)
  have hlen : m.packet.bytes.length = 4 + (m.topic.length + (idLen.toNat + m.data.length)) := by
    rw [m.bytes_short hshort]
    simp only [List.length_cons, List.length_append, hlength]
    omega
  have hdatalen : UInt16.ofNat m.packet.bytes.length - UInt16.ofNat m.topic.length - idLen - 4 =
      UInt16.ofNat m.data.length := by
    rw [hlen, UInt16.ofNat_add, UInt16.ofNat_add, UInt16.ofNat_add, UInt16.ofNat_toNat]
    have h4 : UInt16.ofNat 4 = 4 := rfl
    grind
  rw [hdatalen, htopic]
  apply store_eq (by omega)
  intro i hi
  have hindex : 4 + m.topic.length + idLen.toNat + i = 4 + (m.topic.length + (ids.length + i)) := by
    omega
  rw [hindex, m.bytes_short hshort, overlay_five, overlay_append, hrest, overlay_append,
    overlay_of_lt hi]

/-- The identifier is behind the topic. -/
theorem packetid_short (h : m.qos = 1) (hshort : m.body.length < 128) :
    (overlay m.packet.bytes buffer ((UInt16.ofNat m.topic.length).toNat + 4)).toUInt16 <<< 8 |||
      (overlay m.packet.bytes buffer ((UInt16.ofNat m.topic.length).toNat + 5)).toUInt16 =
        m.id := by
  have hbody := m.length_body
  have htopic : (UInt16.ofNat m.topic.length).toNat = m.topic.length := toNat_ofNat16 (by omega)
  have h4 : m.topic.length + 4 = 4 + (m.topic.length + 0) := by omega
  have h5 : m.topic.length + 5 = 4 + (m.topic.length + 1) := by omega
  rw [htopic, h4, h5, m.bytes_short hshort, overlay_five, overlay_five, overlay_append,
    overlay_append]
  exact packetid_eq h

/-- A short publication is delivered. -/
theorem handleSubscriptionPacket_short [DecidableEq P] (h : m.Supported)
    (hshort : m.body.length < 128) :
    handleSubscriptionPacket c objects (overlay m.packet.bytes buffer)
      (UInt16.ofNat m.packet.bytes.length) = deliver c objects m := by
  obtain ⟨hheader, hqos⟩ := header_supported h
  have hfind : (c.subscriptions.find? (Option.any (topicMatches objects
      (overlay m.packet.bytes buffer) (UInt16.ofNat m.topic.length)))).join =
        c.subscriber objects m.topic := find_eq_subscriber hshort
  have hbody := m.length_body
  have hlen : m.packet.bytes.length = 4 + m.topic.length + m.rest.length := by
    rw [m.bytes_short hshort]
    simp only [List.length_cons, List.length_append]
    omega
  have htopic : (overlay m.packet.bytes buffer 3).toUInt16 = UInt16.ofNat m.topic.length := by
    rw [m.bytes_short hshort]
    exact toUInt16_low (by omega)
  have hstart : ¬ UInt16.ofNat m.packet.bytes.length < 3 := by
    rw [UInt16.lt_iff_toNat_lt, toNat_ofNat16 (by omega)]
    show ¬ m.packet.bytes.length < 3
    omega
  unfold handleSubscriptionPacket deliver
  rw [if_neg hstart, first_short hshort, if_neg (not_not_intro hheader), htopic]
  dsimp only
  rw [hfind]
  cases c.subscriber objects m.topic with
  | none => rfl
  | some sub =>
    dsimp only
    rw [store_data h hshort]
    simp only [hqos]
    split
    case isTrue hq => rw [packetid_short hq hshort]
    case isFalse => rfl

/-- A longer publication is not: the length of its topic is looked up a byte too early. -/
theorem handleSubscriptionPacket_long [DecidableEq P] (h : m.Supported)
    (hlong : 128 ≤ m.body.length)
    (hne : ∀ sub, some sub ∈ c.subscriptions → (objects sub).topic ≠ []) :
    handleSubscriptionPacket c objects (overlay m.packet.bytes buffer)
      (UInt16.ofNat m.packet.bytes.length) = { objects, sub := none, ack := [] } := by
  obtain ⟨hheader, -⟩ := header_supported h
  have hbody := m.length_body
  have hfits : m.packet.bytes.length < 150 := h.fits
  have hbytes : m.packet.bytes = (ctrlPublish <<< 4 ||| m.qos <<< 1) ::
      (encode m.body.length ++ m.body) := rfl
  rw [hbytes, List.length_cons, List.length_append] at hfits
  have hencode : encode m.body.length =
      [UInt8.ofNat (m.body.length % 128 + 128), UInt8.ofNat (m.body.length / 128)] := by
    rw [encode_of_le hlong, encode_of_lt (by omega)]
  have hlen : m.packet.bytes.length = m.body.length + 3 := by
    rw [hbytes, hencode]
    rfl
  have hfirst : overlay m.packet.bytes buffer 0 = ctrlPublish <<< 4 ||| m.qos <<< 1 := rfl
  have htopic : (overlay m.packet.bytes buffer 3).toUInt16 = 0 := by
    rw [hbytes, hencode, Sent.body_eq]
    show (UInt16.ofNat m.topic.length >>> 8).toUInt8.toUInt16 = 0
    rw [← UInt16.toNat_inj, UInt8.toNat_toUInt16, toNat_high, toNat_ofNat16 (by omega)]
    exact Nat.div_eq_of_lt (by omega)
  have hstart : ¬ UInt16.ofNat m.packet.bytes.length < 3 := by
    rw [UInt16.lt_iff_toNat_lt, toNat_ofNat16 (by omega)]
    show ¬ m.packet.bytes.length < 3
    omega
  have hfind : c.subscriptions.find?
      (Option.any (topicMatches objects (overlay m.packet.bytes buffer) 0)) = none := by
    rw [List.find?_eq_none]
    rintro (_ | sub) hsub
    · exact Bool.false_ne_true
    · have hlength : (objects sub).topic.length ≠ 0 := by
        rw [ne_eq, List.length_eq_zero_iff]
        exact hne sub hsub
      simp [topicMatches, hlength]
  unfold handleSubscriptionPacket
  rw [if_neg hstart, hfirst, if_neg (not_not_intro hheader), htopic]
  dsimp only
  rw [hfind]
  rfl

end

/-! ### A stream of publications -/

/-- The subscription gets the message. -/
def AdafruitMqtt.Takes [DecidableEq P] (c : AdafruitMqtt P) (objects : P → Subscribe) (sub : P)
    (m : Sent) : Prop :=
  m.body.length < 128 ∧ c.subscriber objects m.topic = some sub

instance [DecidableEq P] {c : AdafruitMqtt P} {objects : P → Subscribe} {sub : P} {m : Sent} :
    Decidable (c.Takes objects sub m) := inferInstanceAs (Decidable (_ ∧ _))

/-- The message is acknowledged. -/
def AdafruitMqtt.Acks (c : AdafruitMqtt P) (objects : P → Subscribe) (m : Sent) : Prop :=
  m.qos = 1 ∧ m.body.length < 128 ∧ (c.subscriber objects m.topic).isSome

instance {c : AdafruitMqtt P} {objects : P → Subscribe} {m : Sent} :
    Decidable (c.Acks objects m) := inferInstanceAs (Decidable (_ ∧ _))

/-- The subscriptions are made with the same arguments. -/
def SameTopics (objects objects' : P → Subscribe) : Prop :=
  ∀ sub, (objects sub).topic = (objects' sub).topic ∧ (objects sub).qos = (objects' sub).qos

theorem receive_congr {o o' : Subscribe} (htopic : o.topic = o'.topic) (hqos : o.qos = o'.qos)
    (data : List UInt8) : o.receive data = o'.receive data := by
  cases o
  cases o'
  cases htopic
  cases hqos
  rfl

theorem subscriber_congr {c : AdafruitMqtt P} {objects objects' : P → Subscribe}
    (h : SameTopics objects objects') (topic : List UInt8) :
    c.subscriber objects topic = c.subscriber objects' topic := by
  unfold AdafruitMqtt.subscriber
  simp only [fun sub => (h sub).1]

section
variable [DecidableEq P] {c : AdafruitMqtt P} {objects objects' : P → Subscribe} {m : Sent}
variable {ms : List Sent} {s : Reader P} {rest : List UInt8} {sub : P}

/-- What a packet in the stream leaves. -/
def handled (c : AdafruitMqtt P) (objects : P → Subscribe) (m : Sent) : Handled P :=
  if m.body.length < 128 then deliver c objects m else { objects, sub := none, ack := [] }

theorem readSubscription_eq (h : m.Supported)
    (hne : ∀ sub, some sub ∈ c.subscriptions → (s.objects sub).topic ≠ [])
    (hs : s.stream = m.packet.bytes ++ rest) :
    (readSubscription c s).objects = (handled c s.objects m).objects ∧
      (readSubscription c s).stream = rest ∧
      (readSubscription c s).sent = s.sent ++ (handled c s.objects m).ack := by
  have hread : readPacketInto s.buffer s.stream =
      (overlay m.packet.bytes s.buffer, UInt16.ofNat m.packet.bytes.length, rest) := by
    rw [readPacketInto, hs, readFullPacket_fits h.fits]
  have hhandle : handleSubscriptionPacket c s.objects (overlay m.packet.bytes s.buffer)
      (UInt16.ofNat m.packet.bytes.length) = handled c s.objects m := by
    unfold handled
    split
    case isTrue hshort => exact handleSubscriptionPacket_short h hshort
    case isFalse hlong => exact handleSubscriptionPacket_long h (Nat.not_lt.mp hlong) hne
  unfold readSubscription
  rw [hread]
  dsimp only
  rw [hhandle]
  exact ⟨rfl, rfl, rfl⟩

theorem handled_ack (h : SameTopics objects objects') :
    (handled c objects m).ack = if c.Acks objects' m then pubackPacket m.id else [] := by
  unfold handled deliver AdafruitMqtt.Acks
  rw [subscriber_congr h]
  split
  case isFalse hlong => simp [hlong]
  case isTrue hshort =>
    obtain hsub | ⟨sub, hsub⟩ := Option.eq_none_or_eq_some (c.subscriber objects' m.topic)
    · simp [hsub]
    · simp [hsub, hshort]

theorem handled_objects (h : SameTopics objects objects') : (handled c objects m).objects sub =
    if c.Takes objects' sub m then (objects' sub).receive m.data else objects sub := by
  unfold handled deliver AdafruitMqtt.Takes
  rw [subscriber_congr h]
  split
  case isFalse hlong => simp [hlong]
  case isTrue hshort =>
    obtain hsub | ⟨sub', hsub⟩ := Option.eq_none_or_eq_some (c.subscriber objects' m.topic)
    · simp [hsub]
    · rcases Decidable.em (sub' = sub) with rfl | hne
      · simp [hsub, hshort, receive_congr (h sub').1 (h sub').2]
      · simp [hsub, hne, Function.update_of_ne (Ne.symm hne)]

theorem handled_same (h : SameTopics objects objects') :
    SameTopics (handled c objects m).objects objects' := by
  intro sub
  rw [handled_objects h]
  split
  case isTrue => exact ⟨rfl, rfl⟩
  case isFalse => exact h sub

/-- After a stream of publications a subscription holds the last message that it takes. -/
theorem readSubscriptions_eq (hms : ∀ m ∈ ms, m.Supported)
    (hne : ∀ sub, some sub ∈ c.subscriptions → (objects sub).topic ≠ [])
    (h : SameTopics s.objects objects) (hs : s.stream = (ms.flatMap (·.packet.bytes)) ++ rest) :
    let s' := (readSubscription c)^[ms.length] s
    (∀ sub, s'.objects sub = (ms.filter (c.Takes objects sub)).getLast?.elim (s.objects sub)
      fun m => (objects sub).receive m.data) ∧
    s'.stream = rest ∧
    s'.sent = s.sent ++ (ms.filter (c.Acks objects)).flatMap fun m => pubackPacket m.id := by
  induction ms generalizing s with
  | nil => exact ⟨fun _ => rfl, hs, (List.append_nil _).symm⟩
  | cons m ms ih =>
    obtain ⟨hm, hms⟩ := List.forall_mem_cons.mp hms
    rw [List.flatMap_cons, List.append_assoc] at hs
    have hne' (sub : P) (hsub : some sub ∈ c.subscriptions) : (s.objects sub).topic ≠ [] := by
      rw [(h sub).1]
      exact hne sub hsub
    obtain ⟨hobjects, hstream, hsent⟩ := readSubscription_eq hm hne' hs
    have hsame : SameTopics (readSubscription c s).objects objects := by
      rw [hobjects]
      exact handled_same h
    obtain ⟨ihobjects, ihstream, ihsent⟩ := ih hms hsame hstream
    refine ⟨fun sub => ?_, ihstream, ?_⟩
    · rw [List.length_cons, Function.iterate_succ_apply, ihobjects, hobjects, handled_objects h,
        ← run_last, ← run_last, run_cons]
      simp only [decide_eq_true_eq]
    · rw [List.length_cons, Function.iterate_succ_apply, ihsent, hsent, handled_ack h,
        List.append_assoc, List.filter_cons]
      simp only [decide_eq_true_eq]
      split <;> rfl

theorem publishPacket_sent (h : m.Supported) :
    (publishPacket m.id m.topic m.data m.qos).1 = m.packet.bytes := by
  have hbody := h.fits.body_lt
  have hfits : m.packet.bytes.length < 150 := h.fits
  have hlen : m.packet.body.length = m.topic.length + m.data.length + if m.qos > 0 then 4 else 2 :=
    length_publishBody
  rw [Packet.bytes, List.length_cons, List.length_append] at hfits
  exact publishPacket_eq (by split at hlen <;> omega)

end

/-! ### Packets that end too early -/

/-- Where the data of the packet in the buffer begin. -/
def dataStart (buffer : Nat → UInt8) : Nat := 4 + (buffer 3).toNat + (packetIdLen buffer).toNat

theorem packetIdLen_le {buffer : Nat → UInt8} : (packetIdLen buffer).toNat ≤ 2 := by
  unfold packetIdLen
  split <;> decide

theorem toNat_cutDatalen_sub {len start : UInt16} (h : start.toNat ≤ 261) :
    (cutDatalen (len - start)).toNat =
      if len.toNat < start.toNat ∨ start.toNat + 100 < len.toNat then 99
      else len.toNat - start.toNat := by
  have hlen := len.toNat_lt
  have hsub : (len - start).toNat = (2 ^ 16 - start.toNat + len.toNat) % 2 ^ 16 :=
    UInt16.toNat_sub _ _
  have hmax : len - start > 100 ↔ 100 < (len - start).toNat := UInt16.lt_iff_toNat_lt
  have h99 : (99 : UInt16).toNat = 99 := rfl
  unfold cutDatalen
  simp only [hmax]
  split <;> split <;> omega

/-- For a packet that ends before its data the length of the data wraps around, and 99 bytes are
stored that were not sent with it. -/
theorem handleSubscriptionPacket_datalen [DecidableEq P] {c : AdafruitMqtt P}
    {objects : P → Subscribe} {buffer : Nat → UInt8} {len : UInt16} {sub : P}
    (h : sub ∈ (handleSubscriptionPacket c objects buffer len).sub) :
    ((handleSubscriptionPacket c objects buffer len).objects sub).datalen.toNat =
      if len.toNat < dataStart buffer ∨ dataStart buffer + 100 < len.toNat then 99
      else len.toNat - dataStart buffer := by
  revert h
  unfold handleSubscriptionPacket
  split
  · intro h
    cases h
  split
  · intro h
    cases h
  dsimp only
  split
  · intro h
    cases h
  case h_2 sub' _ =>
    intro h
    obtain rfl := Option.some.inj h
    have htopic := (buffer 3).toNat_lt
    have hid : (packetIdLen buffer).toNat ≤ 2 := packetIdLen_le
    have hstart : ((buffer 3).toUInt16 + packetIdLen buffer + 4).toNat = dataStart buffer := by
      have h4 : (4 : UInt16).toNat = 4 := rfl
      rw [dataStart, UInt16.toNat_add, UInt16.toNat_add, UInt8.toNat_toUInt16, h4]
      omega
    have hle : ((buffer 3).toUInt16 + packetIdLen buffer + 4).toNat ≤ 261 := by
      rw [hstart, dataStart]
      omega
    have hlen : len - (buffer 3).toUInt16 - packetIdLen buffer - 4 =
        len - ((buffer 3).toUInt16 + packetIdLen buffer + 4) := by grind
    rw [← hstart, ← toNat_cutDatalen_sub hle, ← hlen]
    dsimp only
    rw [Function.update_self]
    rfl

end D1Mini.Mqtt
