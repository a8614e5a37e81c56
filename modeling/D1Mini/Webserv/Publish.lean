import D1Mini.Arduino.Text
import D1Mini.Lib.FlatJson

/-!
# `publish_mqtt` of `webserv.ino`

The message for Domoticz is built in a `String`, and sent from an array of 50 characters. A message
that does not fit loses its end, and the call reports the result of `mqtt_channel.publish` all the
same.
-/

namespace D1Mini.Webserv
open Decimal FlatJson

/-- What a call of `publish_mqtt` prints, and the text it hands to `mqtt_channel.publish`. -/
structure Publication where
  serial : List Char
  payload : List Char
deriving DecidableEq, Repr

/-- The debug output. -/
def debugText (temp humidity : Int) : List Char :=
  "\x7b".toList
  ++ (if humidity > 0 then "\"humidity\": ".toList ++ floatText humidity ++ ", ".toList else [])
  ++ "\"temp\": ".toList ++ floatText temp
  ++ "\x7d\n".toList

/-- The `String` that the message is built in. -/
def disTempDht (idx : Int32) (temp humidity : Int) : List Char :=
  "\x7b\"idx\":".toList
  ++ intText idx
  ++ ", \"nvalue\":0, \"svalue\":\"".toList
  ++ floatText temp
  ++ (if humidity > 0 then ";".toList ++ floatText humidity ++ ";".toList ++ "1".toList else [])
  ++ "\"\x7d".toList

/-- `published` is what `mqtt_channel.publish` returns. -/
def publishMqtt (published : Bool) (idx : Int32) (temp : Int) (humidity : Int := -100) :
    Publication where
  serial := debugText temp humidity ++ disTempDht idx temp humidity
    ++ (if ¬ published then "Failed\r\n".toList else "OK!\r\n".toList)
  payload := cString (toCharArray (disTempDht idx temp humidity) 50)

/-! ### The message and its reader -/

/-- A call of `publish_mqtt` in the range of the sensors; without humidity the argument is omitted.
-/
structure Reading where
  idx : Int32
  temp : Int
  humidity : Option Int
  idx_nonneg : 0 ≤ idx
  temp_range : -5500 ≤ temp ∧ temp ≤ 12500
  humidity_range : ∀ h ∈ humidity, 1 ≤ h ∧ h ≤ 10000

/-- What a reader learns from a message. -/
structure Report where
  idx : Int
  temp : Int
  humidity : Option Int
deriving DecidableEq, Repr

def readSvalue (idx : Int) (svalue : List Char) : Option Report :=
  match svalue.splitOn ';' with
  | [t] => (parseFixed 2 t).map fun temp => ⟨idx, temp, none⟩
  | [t, h, _] => do return ⟨idx, ← parseFixed 2 t, some (← parseFixed 2 h)⟩
  | _ => none

def readBack (text : List Char) : Option Report :=
  (parse text).bind fun obj =>
    match obj.get? "idx".toList, obj.get? "svalue".toList with
    | some (.int idx), some (.str svalue) => readSvalue idx svalue
    | _, _ => none

namespace Reading

def publish (published : Bool) (r : Reading) : Publication :=
  match r.humidity with
  | none => publishMqtt published r.idx r.temp
  | some h => publishMqtt published r.idx r.temp h

def svalue (r : Reading) : List Char :=
  match r.humidity with
  | none => floatText r.temp
  | some h => floatText r.temp ++ ";".toList ++ floatText h ++ ";1".toList

/-- The complete message. -/
def message (r : Reading) : List Char :=
  "\x7b\"idx\":".toList ++ intText r.idx ++ ", \"nvalue\":0, \"svalue\":\"".toList ++ r.svalue
  ++ "\"\x7d".toList

def report (r : Reading) : Report := ⟨r.idx.toInt, r.temp, r.humidity⟩

/-- The whole message is published, and reading it back recovers the arguments. -/
def PublishesWhole (r : Reading) : Prop :=
  ∀ published, (r.publish published).payload = r.message ∧
    readBack (r.publish published).payload = some r.report

/-- At most 7 characters are in front of the two points and in the index, unless the humidity is
omitted. -/
def Fits (r : Reading) : Prop :=
  ∀ h ∈ r.humidity, numDigits r.idx.toInt.natAbs + wholeWidth 2 r.temp + wholeWidth 2 h ≤ 7

variable {r : Reading} {published : Bool} {c : Char}

/-! ### Reading a message -/

theorem notMem_svalue (h : c ∉ ['-', '.', ';']) (hd : c.isDigit = false) : c ∉ r.svalue := by
  have hfloat (x : Int) : c ∉ floatText x := by
    apply notMem_floatText _ hd
    simp at h ⊢
    exact ⟨h.1, h.2.1⟩
  have hone : c ≠ '1' := by
    rintro rfl
    cases hd
  unfold svalue
  split
  · exact hfloat _
  · simp only [List.mem_append, not_or]
    simp at h
    exact ⟨⟨⟨hfloat _, by simp [h]⟩, hfloat _⟩, by simp [h, hone]⟩

theorem svalue_plain : Plain r.svalue := by
  intro c hc
  constructor <;> rintro rfl <;> exact notMem_svalue (by decide) (by decide) hc

theorem message_eq_render : r.message = render
    [("idx".toList, .int r.idx.toInt), ("nvalue".toList, .int 0),
      ("svalue".toList, .str r.svalue)] := by
  have hzero : renderInt 0 = ['0'] := rfl
  unfold Reading.message FlatJson.render
  simp only [List.map_cons, List.map_nil, List.intercalate_cons_cons, List.intercalate_singleton,
    member, quoted, Value.render, intText, hzero, List.append_assoc, List.cons_append,
    List.nil_append]
  simp

theorem readSvalue_svalue : readSvalue r.idx.toInt r.svalue = some r.report := by
  have hsemi (x : Int) : ';' ∉ floatText x := notMem_floatText (by decide) (by decide)
  have hparse (x : Int) : parseFixed 2 (floatText x) = some x := parseFixed_renderFixed (by decide)
  unfold svalue report
  cases r.humidity with
  | none =>
    have hsplit : (floatText r.temp).splitOn ';' = [floatText r.temp] :=
      List.splitOn_eq_singleton (hsemi _)
    simp only [readSvalue, hsplit, hparse, Option.map_some]
  | some h =>
    have hsplit : (floatText r.temp ++ ";".toList ++ floatText h ++ ";1".toList).splitOn ';' =
        [floatText r.temp, floatText h, ['1']] := by
      have hcons : floatText r.temp ++ ";".toList ++ floatText h ++ ";1".toList =
          floatText r.temp ++ ';' :: (floatText h ++ ';' :: ['1']) := by simp
      rw [hcons, List.splitOn_append_cons_self_of_not_mem (hsemi _),
        List.splitOn_append_cons_self_of_not_mem (hsemi _)]
      rfl
    simp only [readSvalue, hsplit, hparse]
    rfl

theorem readBack_message : readBack r.message = some r.report := by
  have hplain : ∀ m ∈ [("idx".toList, Value.int r.idx.toInt), ("nvalue".toList, .int 0),
      ("svalue".toList, .str r.svalue)], Plain m.1 ∧ m.2.Plain := by
    simp only [List.forall_mem_cons]
    refine ⟨⟨by decide, trivial⟩, ⟨by decide, trivial⟩, ⟨by decide, svalue_plain⟩, by simp⟩
  rw [message_eq_render, readBack, parse_render hplain]
  exact readSvalue_svalue

/-! ### Publishing a message -/

theorem publish_payload : (r.publish published).payload = r.message.take 49 := by
  have hbuf (humidity : Int) (h : disTempDht r.idx r.temp humidity = r.message) :
      (publishMqtt published r.idx r.temp humidity).payload = r.message.take 49 := by
    have hnul : nul ∉ r.message := by
      have : nul ∉ r.svalue := notMem_svalue (by decide) (by decide)
      unfold message
      simp only [List.mem_append, not_or]
      exact ⟨⟨⟨⟨by decide, notMem_intText (by decide) (by decide)⟩, by decide⟩, this⟩, by decide⟩
    rw [publishMqtt, h, cString_toCharArray hnul]
  unfold publish
  cases hh : r.humidity with
  | none =>
    apply hbuf
    have hdefault : ¬ (-100 : Int) > 0 := by decide
    unfold disTempDht message svalue
    rw [if_neg hdefault, List.append_nil, hh]
  | some h =>
    apply hbuf
    have hpos : h > 0 := (r.humidity_range h hh).1
    unfold disTempDht message svalue
    rw [if_pos hpos, hh]
    simp

theorem length_message : r.message.length =
    36 + numDigits r.idx.toInt.natAbs + wholeWidth 2 r.temp +
    (r.humidity.elim 0 fun h => 6 + wholeWidth 2 h) := by
  have hidx : (intText r.idx).length = numDigits r.idx.toInt.natAbs :=
    length_renderInt (Int32.le_iff_toInt_le.mp r.idx_nonneg)
  have hfloat (x : Int) : (floatText x).length = wholeWidth 2 x + 3 :=
    length_renderFixed (by decide)
  have h1 : "\x7b\"idx\":".toList.length = 7 := rfl
  have h2 : ", \"nvalue\":0, \"svalue\":\"".toList.length = 24 := rfl
  have h3 : "\"\x7d".toList.length = 2 := rfl
  unfold message svalue
  simp only [List.length_append, hidx, h1, h2, h3]
  cases r.humidity with
  | none =>
    simp only [hfloat, Option.elim]
    omega
  | some h =>
    have h4 : ";".toList.length = 1 := rfl
    have h5 : ";1".toList.length = 2 := rfl
    simp only [List.length_append, hfloat, h4, h5, Option.elim]
    omega

theorem numDigits_idx : numDigits r.idx.toInt.natAbs ≤ 10 := by
  rw [numDigits_le_iff (by decide)]
  have := r.idx.toInt_lt
  have := r.idx.le_toInt
  omega

theorem wholeWidth_temp : wholeWidth 2 r.temp ≤ 3 := by
  obtain ⟨hlow, hhigh⟩ := r.temp_range
  unfold wholeWidth
  split
  · have : numDigits (r.temp.natAbs / 10 ^ 2) ≤ 2 := (numDigits_le_iff (by decide)).mpr (by omega)
    omega
  · have : numDigits (r.temp.natAbs / 10 ^ 2) ≤ 3 := (numDigits_le_iff (by decide)).mpr (by omega)
    omega

theorem fits_iff : r.Fits ↔ r.message.length ≤ 49 := by
  have hidx := r.numDigits_idx
  have htemp := r.wholeWidth_temp
  rw [length_message, Fits]
  cases r.humidity with
  | none =>
    simp only [Option.elim]
    exact ⟨fun _ => by omega, fun _ h hh => by cases hh⟩
  | some h =>
    simp only [Option.elim, Option.mem_some_iff, forall_eq']
    omega

theorem message_brace : ∃ body, r.message = body ++ ['\x7d'] ∧ '\x7d' ∉ body := by
  refine ⟨"\x7b\"idx\":".toList ++ intText r.idx ++ ", \"nvalue\":0, \"svalue\":\"".toList ++
    r.svalue ++ ['"'], ?_, ?_⟩
  · unfold message
    simp
  · have : '\x7d' ∉ r.svalue := notMem_svalue (by decide) (by decide)
    simp only [List.mem_append, not_or]
    exact ⟨⟨⟨⟨by decide, notMem_intText (by decide) (by decide)⟩, by decide⟩, this⟩, by decide⟩

/-- Without its closing brace a message is not a JSON object. -/
theorem readBack_take {n : Nat} (h : n < r.message.length) :
    readBack (r.message.take n) = none := by
  obtain ⟨body, hbody, hbrace⟩ := r.message_brace
  have hle : n ≤ body.length := by
    rw [hbody, List.length_append, List.length_singleton] at h
    omega
  have hnone : parse (r.message.take n) = none := by
    rw [Option.eq_none_iff_forall_ne_some]
    intro obj hobj
    have := brace_mem hobj
    rw [hbody, List.take_append_of_le_length hle] at this
    exact hbrace (List.mem_of_mem_take this)
  rw [readBack, hnone]
  rfl

/-- A message that is cut is rejected by its reader, not misread. -/
theorem readBack_payload :
    readBack (r.publish published).payload =
      if r.message.length ≤ 49 then some r.report else none := by
  rw [publish_payload]
  split
  case isTrue h => rw [List.take_of_length_le h, readBack_message]
  case isFalse h => exact readBack_take (by omega)

theorem publishesWhole_iff : r.PublishesWhole ↔ r.Fits := by
  rw [fits_iff]
  constructor
  · intro h
    have hcut := congrArg List.length (h true).1
    rw [publish_payload, List.length_take] at hcut
    omega
  · intro h published
    rw [publish_payload, List.take_of_length_le h]
    exact ⟨rfl, readBack_message⟩

/-- A frosty morning with saturated air. -/
def frost : Reading where
  idx := 43
  temp := -1000
  humidity := some 10000
  idx_nonneg := by decide
  temp_range := by decide
  humidity_range := by decide

theorem not_publishesWhole_frost : ¬ frost.PublishesWhole := by
  intro h
  have hcut := (h true).1
  revert hcut
  decide

end Reading

end D1Mini.Webserv
