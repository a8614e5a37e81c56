import D1Mini.Mqtt.Subscriptions

/-!
# Connecting to the server

`connectPacket` of `Adafruit_MQTT.cpp` says who the client is, and `connect` sends it and then
subscribes to what is in the table. `decodeConnect` and `decodeSubscribe` are what a server makes of
these packets by the rules of MQTT 3.1.1; they are written from these rules, not from the library.

* `decodeConnect_connectPacket`: when the server learns what the client wants;
* `decodeSubscribe_subscribePacket`: the same for a subscription;
* `connect_succeeds`: when `connect` reports success.
-/

namespace D1Mini.Mqtt
open SlotTable VarLength

/-! ### Packets -/

/-- The members of `Adafruit_MQTT` that `connectPacket` uses; a `will_topic` of 0 is the empty
text. -/
structure Account where
  clientid : List UInt8
  username : List UInt8
  password : List UInt8
  willTopic : List UInt8
  willPayload : List UInt8
  willQos : UInt8
  willRetain : UInt8
deriving DecidableEq, Repr

/-- `MQTT_CONN_KEEPALIVE`. -/
def connKeepalive : UInt16 := 300

/-- `p[0]`, with the answers to what is asked for the will, the name and the password. -/
def connectFlags (will : Bool) (willQos : UInt8) (retain user pass : Bool) : UInt8 :=
  let flags : UInt8 := 0x02
  let flags :=
    if will then
      let flags := flags ||| 0x04
      let flags :=
        if willQos = 1 then flags ||| 0x08
        else if willQos = 2 then flags ||| 0x18
        else flags
      if retain then flags ||| 0x20 else flags
    else flags
  let flags := if user then flags ||| 0x80 else flags
  if pass then flags ||| 0x40 else flags

def Account.flags (a : Account) : UInt8 :=
  connectFlags (a.willTopic ≠ []) a.willQos (a.willRetain = 1) (a.username ≠ []) (a.password ≠ [])

/-- `"MQTT"`. -/
def protocolName : List UInt8 := [77, 81, 84, 84]

/-- What follows the keep-alive time. -/
def connectPayload (a : Account) : List UInt8 :=
  (if a.clientid ≠ [] then stringprint a.clientid else [0, 0]) ++
    (if a.willTopic ≠ [] then stringprint a.willTopic ++ stringprint a.willPayload else []) ++
    (if a.username ≠ [] then stringprint a.username else []) ++
    (if a.password ≠ [] then stringprint a.password else [])

def connectBody (a : Account) : List UInt8 :=
  stringprint protocolName ++ [4, a.flags] ++ bytes16 connKeepalive ++ connectPayload a

/-- `MQTT_CTRL_CONNECT`. -/
def ctrlConnect : UInt8 := 1

def connectPacket (a : Account) : List UInt8 := shortPacket (ctrlConnect <<< 4) (connectBody a)

/-! ### The server -/

structure Will where
  topic : List UInt8
  payload : List UInt8
  qos : UInt8
  retain : Bool
deriving DecidableEq, Repr

structure ConnectRequest where
  clientId : List UInt8
  keepAlive : Nat
  will : Option Will
  username : Option (List UInt8)
  password : Option (List UInt8)
deriving DecidableEq, Repr

def decodeString : List UInt8 → Option (List UInt8 × List UInt8)
  | hi :: lo :: bytes =>
    if bytes.length < value16 hi lo then none
    else some (bytes.take (value16 hi lo), bytes.drop (value16 hi lo))
  | _ => none

/-- A text that is there if its flag is set. -/
def decodeOptional (flag : Bool) (bytes : List UInt8) : Option (Option (List UInt8) × List UInt8) :=
  if flag then (decodeString bytes).map fun (s, rest) => (some s, rest) else some (none, bytes)

/-- The flags of the will are zero if there is none, and its quality of service is at most 2. -/
def decodeWill (flags : UInt8) (bytes : List UInt8) : Option (Option Will × List UInt8) :=
  let qos := flags >>> 3 &&& 3
  if flags &&& 4 = 0 then
    if qos = 0 ∧ flags &&& 0x20 = 0 then some (none, bytes) else none
  else if qos = 3 then none
  else (decodeString bytes).bind fun (topic, bytes) =>
    (decodeString bytes).map fun (payload, rest) =>
      (some { topic, payload, qos, retain := flags &&& 0x20 ≠ 0 }, rest)

/-- What follows the flags: there is no password without a name, and nothing behind them. -/
def decodePayload (flags : UInt8) (keepAlive : Nat) (bytes : List UInt8) : Option ConnectRequest :=
  if flags &&& 1 ≠ 0 ∨ flags &&& 0x40 ≠ 0 ∧ flags &&& 0x80 = 0 then none
  else (decodeString bytes).bind fun (clientId, bytes) =>
    (decodeWill flags bytes).bind fun (will, bytes) =>
      (decodeOptional (flags &&& 0x80 ≠ 0) bytes).bind fun (username, bytes) =>
        (decodeOptional (flags &&& 0x40 ≠ 0) bytes).bind fun (password, bytes) =>
          if bytes = [] then some { clientId, keepAlive, will, username, password } else none

/-- The body of a packet with this header whose length is right. -/
def decodeShort (header : UInt8) : List UInt8 → Option (List UInt8)
  | [] => none
  | h :: bytes =>
    if h ≠ header then none
    else (decode bytes).bind fun (len, body) => if body.length = len then some body else none

def decodeConnect (packet : List UInt8) : Option ConnectRequest :=
  (decodeShort 0x10 packet).bind fun body =>
    (decodeString body).bind fun (name, body) =>
      match body with
      | level :: flags :: hi :: lo :: body =>
        if name ≠ protocolName ∨ level ≠ 4 then none
        else decodePayload flags (value16 hi lo) body
      | _ => none

/-- The identifier, the topic and the quality of service. -/
def decodeSubscribe (packet : List UInt8) : Option (Nat × List UInt8 × UInt8) :=
  (decodeShort 0x82 packet).bind fun body =>
    match body with
    | hi :: lo :: body =>
      (decodeString body).bind fun (topic, body) =>
        match body with
        | [qos] => if qos ≤ 2 then some (value16 hi lo, topic, qos) else none
        | _ => none
    | _ => none

/-! ### Packets that are too long -/

variable {header : UInt8} {body s rest : List UInt8} {a : Account}

theorem decodeShort_short (h : body.length < 128) :
    decodeShort header (shortPacket header body) = some body := by
  have hdecode : decode (UInt8.ofNat body.length :: body) = some (body.length, body) := by
    have hencode : decode (encode body.length ++ body) = some (body.length, body) := decode_encode
    rwa [encode_of_lt h, List.singleton_append] at hencode
  rw [shortPacket, decodeShort, if_neg (not_not_intro rfl), hdecode, Option.bind_some]
  exact if_pos rfl

/-- The length of the body has to be less than 128. -/
theorem decodeShort_long {i : Nat} (hlong : 128 ≤ body.length) (hlen : body.length < 256)
    (hi : i < 126) (hb : (body.getD i 0).toNat < 128) :
    decodeShort header (shortPacket header body) = none := by
  rw [shortPacket, decodeShort, if_neg (not_not_intro rfl), Option.bind_eq_none_iff]
  rintro ⟨len, rest⟩ hdecode
  exact if_neg (decode_one_byte hdecode hlong hlen hi hb)

/-! ### Flags -/

/-- The quality of service 2 sets both of its bits. -/
theorem connectFlags_spec {will retain user pass : Bool} {qos : UInt8} (h : qos ≤ 2) :
    let flags := connectFlags will qos retain user pass
    flags &&& 1 = 0 ∧ decide (flags &&& 0x80 ≠ 0) = user ∧ decide (flags &&& 0x40 ≠ 0) = pass ∧
      (flags &&& 4 = 0 ↔ will = false) ∧
      flags >>> 3 &&& 3 = (if will then if qos = 2 then 3 else qos else 0) ∧
      decide (flags &&& 0x20 ≠ 0) = (will && retain) := by
  obtain hq | hq | hq : qos = 0 ∨ qos = 1 ∨ qos = 2 := by
    have hle : qos.toNat ≤ 2 := h
    simp only [← UInt8.toNat_inj, UInt8.reduceToNat]
    omega
  all_goals
    rw [hq]
    revert will retain user pass
    decide

/-! ### Texts -/

theorem decodeString_stringprint (h : s.length < 2 ^ 16) :
    decodeString (stringprint s ++ rest) = some (s, rest) := by
  have hlen : (UInt16.ofNat s.length).toNat = s.length := toNat_ofNat16 h
  unfold stringprint bytes16
  simp only [hlen, List.take_length, List.cons_append, List.nil_append]
  rw [decodeString, value16_bytes16, hlen, List.length_append, if_neg (by omega),
    List.take_left, List.drop_left]

theorem decodeString_nil : decodeString ([0, 0] ++ rest) = some ([], rest) :=
  decodeString_stringprint (s := []) (by decide)

/-- The text of an account that is not empty, or nothing. -/
def given (s : List UInt8) : Option (List UInt8) := if s ≠ [] then some s else none

theorem decodeOptional_given (h : s.length < 2 ^ 16) :
    decodeOptional (s ≠ []) ((if s ≠ [] then stringprint s else []) ++ rest) =
      some (given s, rest) := by
  unfold decodeOptional given
  simp only [decide_eq_true_eq]
  split
  case isTrue => rw [decodeString_stringprint h, Option.map_some]
  case isFalse => rfl

/-! ### The request -/

def Account.will (a : Account) : Option Will :=
  if a.willTopic ≠ [] then
    some { topic := a.willTopic, payload := a.willPayload, qos := a.willQos,
           retain := a.willRetain = 1 }
  else none

/-- What the client wants the server to know. -/
def Account.request (a : Account) : ConnectRequest where
  clientId := a.clientid
  keepAlive := 300
  will := a.will
  username := given a.username
  password := given a.password

/-- The lengths of the texts can be written, the packet fits the buffer, and there is such a quality
of service. -/
structure Account.Fits (a : Account) : Prop where
  texts : ∀ s ∈ [a.clientid, a.username, a.password, a.willTopic, a.willPayload],
    s.length < 2 ^ 16
  packet : (connectPacket a).length ≤ maxBufferSize
  qos : a.willQos ≤ 2

/-- There is no password without a name, and no will of the quality of service 2. -/
def Account.Regular (a : Account) : Prop :=
  (a.password ≠ [] → a.username ≠ []) ∧ ¬ (a.willTopic ≠ [] ∧ a.willQos = 2)

instance : Decidable a.Regular := inferInstanceAs (Decidable (_ ∧ _))

theorem decodeString_clientid (h : a.clientid.length < 2 ^ 16) :
    decodeString ((if a.clientid ≠ [] then stringprint a.clientid else [0, 0]) ++ rest) =
      some (a.clientid, rest) := by
  split
  case isTrue => exact decodeString_stringprint h
  case isFalse hnil =>
    rw [not_not.mp hnil]
    exact decodeString_nil

theorem flags_spec (h : a.Fits) :
    a.flags &&& 1 = 0 ∧ decide (a.flags &&& 0x80 ≠ 0) = decide (a.username ≠ []) ∧
      decide (a.flags &&& 0x40 ≠ 0) = decide (a.password ≠ []) ∧
      (a.flags &&& 4 = 0 ↔ decide (a.willTopic ≠ []) = false) ∧
      a.flags >>> 3 &&& 3 =
        (if decide (a.willTopic ≠ []) then if a.willQos = 2 then 3 else a.willQos else 0) ∧
      decide (a.flags &&& 0x20 ≠ 0) =
        (decide (a.willTopic ≠ []) && decide (a.willRetain = 1)) :=
  connectFlags_spec h.qos

theorem decodeWill_will (h : a.Fits) : decodeWill a.flags
    ((if a.willTopic ≠ [] then stringprint a.willTopic ++ stringprint a.willPayload else []) ++
      rest) = if a.willTopic ≠ [] ∧ a.willQos = 2 then none else some (a.will, rest) := by
  have htexts := h.texts
  simp only [List.forall_mem_cons] at htexts
  obtain ⟨-, -, -, htopic, hpayload, -⟩ := htexts
  obtain ⟨-, -, -, hwill, hqos, hretain⟩ := flags_spec h
  unfold decodeWill Account.will
  rcases Decidable.em (a.willTopic = []) with hnil | htopic'
  · have hzero : a.flags &&& 0x20 = 0 := by simpa [hnil] using hretain
    have hqos : a.flags >>> 3 &&& 3 = 0 := by simpa [hnil] using hqos
    have hwill : a.flags &&& 4 = 0 := by simpa [hnil] using hwill
    simp [hnil, hzero, hqos, hwill]
  · have hwill : ¬ a.flags &&& 4 = 0 := by simpa [htopic'] using hwill
    have hqos : a.flags >>> 3 &&& 3 = if a.willQos = 2 then 3 else a.willQos := by
      simpa [htopic'] using hqos
    have hretain : decide (a.flags &&& 0x20 ≠ 0) = decide (a.willRetain = 1) := by
      simpa [htopic'] using hretain
    rw [if_neg hwill, hqos]
    rcases Decidable.em (a.willQos = 2) with htwo | htwo
    · simp [htwo, htopic']
    · have hthree : ¬ a.willQos = 3 := by
        intro heq
        have := heq ▸ h.qos
        exact absurd this (by decide)
      have hregular : ¬ (a.willTopic ≠ [] ∧ a.willQos = 2) := fun h => htwo h.2
      simp only [if_neg htwo, if_neg hthree, if_pos htopic', if_neg hregular, List.append_assoc,
        decodeString_stringprint htopic, decodeString_stringprint hpayload,
        Option.bind_some, Option.map_some, hretain]

theorem decodePayload_payload (h : a.Fits) : decodePayload a.flags 300 (connectPayload a) =
    if a.Regular then some a.request else none := by
  have htexts := h.texts
  simp only [List.forall_mem_cons] at htexts
  obtain ⟨hclient, huser, hpass, -⟩ := htexts
  obtain ⟨hreserved, hname, hword, -⟩ := flags_spec h
  have hend : connectPayload a = (if a.clientid ≠ [] then stringprint a.clientid else [0, 0]) ++
      ((if a.willTopic ≠ [] then stringprint a.willTopic ++ stringprint a.willPayload else []) ++
      ((if a.username ≠ [] then stringprint a.username else []) ++
      ((if a.password ≠ [] then stringprint a.password else []) ++ []))) := by
    simp only [connectPayload, List.append_assoc, List.append_nil]
  have hrefused : a.flags &&& 1 ≠ 0 ∨ a.flags &&& 0x40 ≠ 0 ∧ a.flags &&& 0x80 = 0 ↔
      ¬ (a.password ≠ [] → a.username ≠ []) := by
    rw [decide_eq_decide] at hname hword
    rw [or_iff_right (not_not_intro hreserved), hword, Classical.not_imp,
      ← hname, not_not]
  unfold decodePayload
  simp only [hrefused]
  split
  case isTrue hno => exact (if_neg fun hregular => hno hregular.1).symm
  case isFalse hyes =>
    rw [hend, decodeString_clientid hclient, Option.bind_some, decodeWill_will h]
    rcases Decidable.em (a.willTopic ≠ [] ∧ a.willQos = 2) with hbad | hwill
    · rw [if_pos hbad]
      exact (if_neg fun hregular => hregular.2 hbad).symm
    · rw [if_neg hwill, Option.bind_some, hname, decodeOptional_given huser, Option.bind_some,
        hword, decodeOptional_given hpass, Option.bind_some]
      exact (if_pos ⟨not_not.mp hyes, hwill⟩).symm

theorem connectBody_eq : connectBody a =
    stringprint protocolName ++ (4 :: a.flags :: 1 :: 44 :: connectPayload a) := by
  simp only [connectBody, List.append_assoc]
  rfl

theorem connectBody_head : ((connectBody a).getD 0 0).toNat < 128 := by
  have hzero : (connectBody a).getD 0 0 = 0 := by
    rw [connectBody_eq]
    rfl
  rw [hzero]
  decide

/-- What the server makes of the first packet. -/
theorem decodeConnect_eq (h : a.Fits) : decodeConnect (connectPacket a) =
    if (connectBody a).length < 128 ∧ a.Regular then some a.request else none := by
  have hfits : (connectBody a).length + 2 ≤ 150 := h.packet
  unfold decodeConnect connectPacket
  rcases Nat.lt_or_ge (connectBody a).length 128 with hshort | hlong
  · have hheader : (0x10 : UInt8) = ctrlConnect <<< 4 := rfl
    simp only [hshort, true_and]
    rw [hheader, decodeShort_short hshort, Option.bind_some, connectBody_eq,
      decodeString_stringprint (by decide), Option.bind_some]
    exact decodePayload_payload h
  · have hlong' : decodeShort 0x10 (shortPacket (ctrlConnect <<< 4) (connectBody a)) = none :=
      decodeShort_long hlong (by omega) (by omega) connectBody_head
    rw [hlong', if_neg fun hand => absurd hand.1 (Nat.not_lt.mpr hlong)]
    rfl

theorem length_stringprint (h : s.length < 2 ^ 16) : (stringprint s).length = s.length + 2 := by
  have hlen : (UInt16.ofNat s.length).toNat = s.length := toNat_ofNat16 h
  unfold stringprint bytes16
  simp only [hlen, List.take_length, List.length_append, List.length_cons, List.length_nil]
  omega

/-- The server learns of a subscription if its topic is not too long for one byte. -/
theorem decodeSubscribe_subscribePacket {id : UInt16} {qos : UInt8} (h : s.length < 2 ^ 16)
    (hfits : (subscribePacket id s qos).1.length ≤ maxBufferSize) (hqos : qos ≤ 2) :
    decodeSubscribe (subscribePacket id s qos).1 = some (id.toNat, s, qos) ↔ s.length < 123 := by
  have hbody : (bytes16 id ++ stringprint s ++ [qos]).length = s.length + 5 := by
    rw [List.length_append, List.length_append, length_stringprint h, List.length_singleton]
    show 2 + (s.length + 2) + 1 = s.length + 5
    omega
  have hroom : (bytes16 id ++ stringprint s ++ [qos]).length + 2 ≤ 150 := hfits
  have hheader : ctrlSubscribe <<< 4 ||| (1 : UInt8) <<< 1 = 0x82 := rfl
  unfold decodeSubscribe subscribePacket
  rw [hheader]
  rcases Nat.lt_or_ge s.length 123 with hshort | hlong
  · apply iff_of_true _ hshort
    rw [decodeShort_short (by omega), Option.bind_some]
    show ((decodeString (stringprint s ++ [qos])).bind _) = _
    rw [decodeString_stringprint h, Option.bind_some]
    show (if qos ≤ 2 then some (value16 _ _, s, qos) else none) = _
    rw [if_pos hqos, value16_bytes16]
  · have htopic : ((bytes16 id ++ stringprint s ++ [qos]).getD 2 0).toNat < 128 := by
      show (UInt16.ofNat s.length >>> 8).toUInt8.toNat < 128
      rw [toNat_high, toNat_ofNat16 h]
      omega
    have hlong' :
        decodeShort 0x82 (shortPacket 0x82 (bytes16 id ++ stringprint s ++ [qos])) = none :=
      decodeShort_long (by omega) (by omega) (by omega) htopic
    rw [hlong']
    exact iff_of_false (fun hnone => nomatch hnone) (Nat.not_lt.mpr hlong)

/-! ### `connect` -/

/-- How a packet is taken by the connection, and what comes in until the reply is there or late. -/
structure Exchange where
  rounds : Nat → Round
  incoming : List UInt8

/-- `MQTT_CTRL_CONNECTACK`. -/
def ctrlConnectack : UInt8 := 2

/-- `MQTT_CTRL_SUBACK`. -/
def ctrlSuback : UInt8 := 9

/-- What the reply to the first packet says; `connect` goes on after a 0. -/
def connectReply (incoming : List UInt8) : Int8 :=
  match readFullPacket incoming with
  | some ([type, len, _, code], _) =>
    if type ≠ ctrlConnectack <<< 4 ∨ len ≠ 2 then -1 else code.toInt8
  | _ => -1

/-- The packet is written; its length is kept in a `uint8_t`. -/
def Exchange.sends (e : Exchange) (packet : List UInt8) : Bool :=
  (sendPacket e.rounds packet 0 (packet.length % 256)).2

/-- The number of the next exchange, the next `packet_id_counter`, and the packets that were sent
for subscriptions so far, with whether they were acknowledged. -/
structure Session (P : Type) where
  exchange : Nat
  packetIdCounter : UInt16
  attempts : List (P × Bool)
deriving DecidableEq, Repr

variable {P : Type}

/-- The loop over `retry`. -/
def connectSubscription (objects : P → Subscribe) (net : Nat → Exchange) (sub : P) :
    Nat → Session P → Int8 × Session P
  | 0, s => (-2, s)
  | retries + 1, s =>
    let (packet, packetIdCounter) :=
      subscribePacket s.packetIdCounter (objects sub).topic (objects sub).qos
    let ok := (net s.exchange).sends packet
    let acked := ok && (processPacketsUntil ctrlSuback (net s.exchange).incoming).found.isSome
    let s :=
      { exchange := s.exchange + 1, packetIdCounter, attempts := s.attempts ++ [(sub, acked)] }
    if ok = false then (-1, s)
    else if acked then (0, s)
    else connectSubscription objects net sub retries s

/-- The loop over the table. -/
def connectSubscriptions (objects : P → Subscribe) (net : Nat → Exchange) :
    List P → Session P → Int8 × Session P
  | [], s => (0, s)
  | sub :: subs, s =>
    let (code, s) := connectSubscription objects net sub 3 s
    if code = 0 then connectSubscriptions objects net subs s else (code, s)

/-- `server` is what `connectServer()` returns. -/
def connect (server : Bool) (objects : P → Subscribe) (net : Nat → Exchange) (a : Account)
    (c : AdafruitMqtt P) : Int8 × Session P :=
  let s : Session P := { exchange := 0, packetIdCounter := c.packetIdCounter, attempts := [] }
  if server = false then (-1, s)
  else
    let s := { s with exchange := 1 }
    if (net 0).sends (connectPacket a) = false then (-1, s)
    else if connectReply (net 0).incoming ≠ 0 then (connectReply (net 0).incoming, s)
    else connectSubscriptions objects net (members c.subscriptions) s

/-- The subscriptions that were acknowledged. -/
def Session.acked (s : Session P) : List P := (s.attempts.filter Prod.snd).map Prod.fst

variable {objects : P → Subscribe} {net : Nat → Exchange} {sub : P} {subs : List P}
variable {session : Session P} {retries : Nat} {server : Bool} {c : AdafruitMqtt P}

theorem connectSubscription_acked :
    (connectSubscription objects net sub retries session).2.acked =
      session.acked ++
        if (connectSubscription objects net sub retries session).1 = 0 then [sub] else [] := by
  induction retries generalizing session with
  | zero => exact (List.append_nil _).symm
  | succ retries ih =>
    rw [connectSubscription]
    dsimp only
    split
    case isTrue hok => simp [Session.acked, hok]
    case isFalse hok =>
      split
      case isTrue hacked => simp [Session.acked, hacked]
      case isFalse hacked =>
        rw [ih]
        simp [Session.acked, hacked]

theorem connectSubscriptions_acked (objects : P → Subscribe) (net : Nat → Exchange) (subs : List P)
    (session : Session P) : ∃ done, done <+: subs ∧
    (connectSubscriptions objects net subs session).2.acked = session.acked ++ done ∧
      ((connectSubscriptions objects net subs session).1 = 0 ↔ done = subs) := by
  induction subs generalizing session with
  | nil => exact ⟨[], List.prefix_rfl, (List.append_nil _).symm, iff_of_true rfl rfl⟩
  | cons sub subs ih =>
    have hacked : (connectSubscription objects net sub 3 session).2.acked = session.acked ++
        if (connectSubscription objects net sub 3 session).1 = 0 then [sub] else [] :=
      connectSubscription_acked
    rw [connectSubscriptions]
    dsimp only
    split
    case isTrue hzero =>
      obtain ⟨done, hpre, hdone, hcode⟩ := ih (connectSubscription objects net sub 3 session).2
      refine ⟨sub :: done, List.cons_prefix_cons.mpr ⟨rfl, hpre⟩, ?_, ?_⟩
      · rw [hdone, hacked, if_pos hzero, List.append_assoc, List.singleton_append]
      · rw [hcode, List.cons.injEq, and_iff_right rfl]
    case isFalse hfail =>
      refine ⟨[], List.nil_prefix, ?_, ?_⟩
      · rw [hacked, if_neg hfail]
      · exact iff_of_false hfail (List.cons_ne_nil sub subs).symm

/-- However `connect` ends, the subscriptions are acknowledged in the order of the table. -/
theorem connect_acked_prefix :
    (connect server objects net a c).2.acked <+: members c.subscriptions := by
  unfold connect
  dsimp only
  split
  case isTrue => exact List.nil_prefix
  case isFalse =>
    split
    case isTrue => exact List.nil_prefix
    case isFalse =>
      split
      case isTrue => exact List.nil_prefix
      case isFalse =>
        obtain ⟨done, hpre, hdone, -⟩ := connectSubscriptions_acked objects net
          (members c.subscriptions) ⟨1, c.packetIdCounter, []⟩
        rw [hdone]
        exact hpre

theorem connect_eq_zero : (connect server objects net a c).1 = 0 ↔
    server = true ∧ (net 0).sends (connectPacket a) = true ∧ connectReply (net 0).incoming = 0 ∧
      (connect server objects net a c).2.acked = members c.subscriptions := by
  unfold connect
  dsimp only
  split
  case isTrue hserver =>
    exact iff_of_false (by decide : ¬ (-1 : Int8) = 0) fun h => absurd h.1 (by simp [hserver])
  case isFalse hserver =>
    split
    case isTrue hsend =>
      exact iff_of_false (by decide : ¬ (-1 : Int8) = 0) fun h => absurd h.2.1 (by simp [hsend])
    case isFalse hsend =>
      split
      case isTrue hreply => exact iff_of_false hreply fun h => hreply h.2.2.1
      case isFalse hreply =>
        obtain ⟨done, -, hdone, hcode⟩ := connectSubscriptions_acked objects net
          (members c.subscriptions) ⟨1, c.packetIdCounter, []⟩
        rw [hcode, hdone]
        simp [hserver, hsend, not_not.mp hreply, Session.acked]

/-- A packet of four bytes whose length is 2 is what the stream begins with. -/
theorem eq_of_readFullPacket {incoming : List UInt8} {type present code : UInt8}
    (h : readFullPacket incoming = some ([type, 2, present, code], rest)) :
    incoming = type :: 2 :: present :: code :: rest := by
  cases incoming with
  | nil => cases h
  | cons b stream =>
    obtain ⟨⟨value, bytes, behind⟩, hlength, heq⟩ := Option.map_eq_some_iff.mp h
    dsimp only at heq
    cases stream with
    | nil => cases hlength
    | cons len stream =>
      rw [readLength_cons (by decide)] at hlength
      obtain ⟨hpacket, hrest⟩ := Prod.mk.inj heq
      split at hlength
      case isTrue hbig =>
        obtain ⟨⟨v, more, behind'⟩, -, heq'⟩ := Option.map_eq_some_iff.mp hlength
        cases heq'
        obtain ⟨-, hlen, -⟩ : b = type ∧ len = 2 ∧ _ := by
          simpa only [List.cons_append, List.cons.injEq] using hpacket
        rw [hlen] at hbig
        exact absurd hbig (by decide)
      case isFalse =>
        cases hlength
        obtain ⟨rfl, rfl, htake⟩ : b = type ∧ len = 2 ∧ _ := by
          simpa only [List.cons_append, List.cons.injEq, List.nil_append] using hpacket
        have hvalue : (0 + UInt32.ofNat ((2 : UInt8).toNat % 128) * 1).toNat = 2 := rfl
        rw [hvalue, if_neg (by decide)] at htake hrest
        have hsplit : behind = behind.take 2 ++ behind.drop 2 :=
          (List.take_append_drop 2 behind).symm
        rw [hsplit, htake, hrest]
        rfl

/-- The reply is good if it begins with an acknowledgement whose code is 0. -/
theorem connectReply_eq_zero {incoming : List UInt8} : connectReply incoming = 0 ↔
    ∃ present rest, incoming = 0x20 :: 2 :: present :: 0 :: rest := by
  constructor
  · intro h
    unfold connectReply at h
    split at h
    case h_2 => exact absurd h (by decide)
    case h_1 type len present code rest hread =>
      split at h
      case isTrue => exact absurd h (by decide)
      case isFalse hbytes =>
        rw [not_or, not_not, not_not] at hbytes
        obtain ⟨rfl, rfl⟩ := hbytes
        obtain rfl : code = 0 := congrArg Int8.toUInt8 h
        exact ⟨present, rest, eq_of_readFullPacket hread⟩
  · rintro ⟨present, rest, rfl⟩
    have hbytes : Packet.bytes ⟨0x20, [present, 0]⟩ = [0x20, 2, present, 0] := by
      have hencode : encode 2 = [2] := encode_of_lt (by decide)
      rw [Packet.bytes, List.length_cons, List.length_singleton, hencode]
      rfl
    have hfits : Packet.Fits ⟨0x20, [present, 0]⟩ := Packet.fits_of_lt (by decide : 2 < 128)
    have hread : readFullPacket ([0x20, 2, present, 0] ++ rest) =
        some ([0x20, 2, present, 0], rest) := hbytes ▸ readFullPacket_fits hfits
    change connectReply ([0x20, 2, present, 0] ++ rest) = 0
    rw [connectReply, hread]
    rfl

/-- `connect` reports success if it got a connection and a good reply, and then an acknowledgement
for each subscription in the table, in its order. -/
theorem connect_succeeds : (connect server objects net a c).1 = 0 ↔
    server = true ∧ (net 0).sends (connectPacket a) = true ∧
      (∃ present rest, (net 0).incoming = 0x20 :: 2 :: present :: 0 :: rest) ∧
      (connect server objects net a c).2.acked = members c.subscriptions := by
  rw [connect_eq_zero, connectReply_eq_zero]

end D1Mini.Mqtt
