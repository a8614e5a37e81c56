import D1Mini.Arduino.Text

/-!
# `find` of `Adafruit_ESP8266.cpp`

The library sends commands to a module and looks for texts in the answers. `stream` is what arrives
until nothing has arrived for the time of a timeout. What the module receives from the network it
passes on in sections, each behind `+IPD,<length>:`.

* `find_first`: a text is found when its first character does not come before it;
* `findIpd_sections`: how the data are cut into sections makes no difference to what is found;
* `findIpd_first`: a text is found that sections cut.
-/

namespace D1Mini.Esp8266

/-- `find(str)`, when `matchedLength` characters have been matched. The lengths are kept in a
`uint8_t`, and `str` has from 1 to 255 characters. -/
def find (str : List UInt8) : Nat → List UInt8 → Bool × List UInt8
  | _, [] => (false, [])
  | matchedLength, c :: stream =>
    if c = 0 then (false, stream)
    else if c = str.getD matchedLength 0 then
      if matchedLength + 1 = str.length then (true, stream)
      else find str (matchedLength + 1) stream
    else find str 0 stream

/-- `F("+IPD,")`. -/
def ipdMarker : List UInt8 := toBytes "+IPD,".toList

/-- The loop up to the delimiter: the count and what follows it, or what is left after `goto bail`.
-/
def readCount (bytesToGo : UInt16) : List UInt8 → Except (List UInt8) (UInt16 × List UInt8)
  | [] => .error []
  | c :: stream =>
    if c = 0 then .error stream
    else if c = 58 then .ok (bytesToGo, stream)
    else readCount (bytesToGo * 10 + (c.toUInt16 - 48)) stream

/-- What stands before a character is read: the next section is looked for at the end of one. -/
def nextSection (bytesToGo : UInt16) (stream : List UInt8) :
    Except (List UInt8) (UInt16 × List UInt8) :=
  if bytesToGo = 0 then
    let (found, stream) := find ipdMarker 0 stream
    if found then readCount 0 stream else .error stream
  else .ok (bytesToGo, stream)

theorem find_length {str stream : List UInt8} {matchedLength : Nat} :
    (find str matchedLength stream).2.length ≤ stream.length := by
  induction stream generalizing matchedLength with
  | nil => exact Nat.le_refl _
  | cons c stream ih =>
    rw [find]
    split
    · exact Nat.le_succ _
    split
    · split
      · exact Nat.le_succ _
      · exact Nat.le_succ_of_le ih
    · exact Nat.le_succ_of_le ih

theorem readCount_length {n m : UInt16} {stream rest : List UInt8}
    (h : readCount n stream = .ok (m, rest)) : rest.length ≤ stream.length := by
  induction stream generalizing n with
  | nil => cases h
  | cons c stream ih =>
    rw [readCount] at h
    split at h
    · cases h
    split at h
    · cases h
      exact Nat.le_succ _
    · exact Nat.le_succ_of_le (ih h)

theorem nextSection_length {n m : UInt16} {stream rest : List UInt8}
    (h : nextSection n stream = .ok (m, rest)) : rest.length ≤ stream.length := by
  unfold nextSection at h
  split at h
  · dsimp only at h
    split at h
    · exact Nat.le_trans (readCount_length h) find_length
    · cases h
  · cases h
    exact Nat.le_refl _

/-- `find(str, true)`. -/
def findIpd (str : List UInt8) (matchedLength : Nat) (bytesToGo : UInt16) (stream : List UInt8) :
    Bool × List UInt8 :=
  match _h : nextSection bytesToGo stream with
  | .error rest => (false, rest)
  | .ok (_, []) => (false, [])
  | .ok (bytesToGo, c :: rest) =>
    if c = 0 then (false, rest)
    else if c = str.getD matchedLength 0 then
      if matchedLength + 1 = str.length then (true, rest)
      else findIpd str (matchedLength + 1) (bytesToGo - 1) rest
    else findIpd str 0 (bytesToGo - 1) rest
termination_by stream.length
decreasing_by
  all_goals
    have := nextSection_length _h
    rw [List.length_cons] at this
    omega

variable {str s t rest : List UInt8} {a c : UInt8} {k : Nat} {n : UInt16}

/-! ### `find` without sections -/

/-- The text itself, from where it has been matched. -/
theorem find_match (ht : t ≠ []) (h0 : 0 ∉ t) :
    find (s ++ t) s.length (t ++ rest) = (true, rest) := by
  induction t generalizing s with
  | nil => exact absurd rfl ht
  | cons c t ih =>
    rw [List.mem_cons, not_or] at h0
    have hget : (s ++ c :: t).getD s.length 0 = c := by simp
    rw [List.cons_append, find, if_neg (Ne.symm h0.1), if_pos hget.symm]
    cases t with
    | nil =>
      rw [if_pos (by simp)]
      rfl
    | cons c' t =>
      have hsplit : s ++ c :: c' :: t = s ++ [c] ++ c' :: t := by simp
      have hlen : s.length + 1 = (s ++ [c]).length := by simp
      rw [if_neg (by simp), hsplit, hlen]
      exact ih (List.cons_ne_nil _ _) h0.2

theorem find_skip (hs : ∀ c ∈ s, c ≠ 0 ∧ c ≠ a) : find (a :: t) 0 (s ++ rest) =
    find (a :: t) 0 rest := by
  induction s with
  | nil => rfl
  | cons c s ih =>
    obtain ⟨⟨h0, ha⟩, hs⟩ := List.forall_mem_cons.mp hs
    rw [List.cons_append, find, if_neg h0, List.getD_cons_zero, if_neg ha, ih hs]

/-- A text is found, and read up to its end, if its first character does not come before it. -/
theorem find_first (h0 : 0 ∉ a :: t) (hs : ∀ c ∈ s, c ≠ 0 ∧ c ≠ a) :
    find (a :: t) 0 (s ++ (a :: t ++ rest)) = (true, rest) := by
  rw [find_skip hs]
  exact find_match (s := []) (List.cons_ne_nil _ _) h0

/-! ### Sections -/

/-- The digits of a count, as `bytesToGo` holds it. -/
theorem readCount_digits {digits : List Char} {v : Nat} (h : ∀ d ∈ digits, d.isDigit) :
    readCount (UInt16.ofNat v) (toBytes digits ++ 58 :: rest) =
      .ok (UInt16.ofNat (Nat.ofDigitChars 10 digits v), rest) := by
  induction digits generalizing v with
  | nil =>
    rw [Nat.ofDigitChars_nil]
    rfl
  | cons d digits ih =>
    obtain ⟨hd, hdigits⟩ := List.forall_mem_cons.mp h
    obtain ⟨hlow, hhigh⟩ := Char.isDigit_iff_toNat.mp hd
    have hlow : 48 ≤ d.toNat := hlow
    have hhigh : d.toNat ≤ 57 := hhigh
    have hbyte : (UInt8.ofNat d.toNat).toNat = d.toNat := by
      rw [UInt8.toNat_ofNat']
      omega
    have hne (c : UInt8) (hc : c.toNat < 48 ∨ 57 < c.toNat) : UInt8.ofNat d.toNat ≠ c := by
      rw [ne_eq, ← UInt8.toNat_inj, hbyte]
      omega
    have hcount : UInt16.ofNat v * 10 + ((UInt8.ofNat d.toNat).toUInt16 - 48) =
        UInt16.ofNat (10 * v + (d.toNat - '0'.toNat)) := by
      have h10 : (10 : UInt16).toNat = 10 := rfl
      have h48 : (48 : UInt16).toNat = 48 := rfl
      have hzero : '0'.toNat = 48 := rfl
      simp only [← UInt16.toNat_inj, UInt16.toNat_add, UInt16.toNat_mul, UInt16.toNat_sub,
        UInt8.toNat_toUInt16, UInt16.toNat_ofNat', hbyte, h10, h48, hzero]
      omega
    rw [Nat.ofDigitChars_cons, ← ih hdigits, ← hcount]
    show readCount (UInt16.ofNat v) (UInt8.ofNat d.toNat :: (toBytes digits ++ 58 :: rest)) = _
    rw [readCount, if_neg (hne 0 (by decide)), if_neg (hne 58 (by decide))]

/-- Some data that the module passes on, and what it said before. -/
structure Section where
  before : List UInt8
  data : List UInt8
  plain : ∀ c ∈ before, c ≠ 0 ∧ c ≠ 43
  data_ne_nil : data ≠ []
  length_lt : data.length < 2 ^ 16

def Section.bytes (x : Section) : List UInt8 :=
  x.before ++ (ipdMarker ++ (toBytes (Nat.toDigits 10 x.data.length) ++ 58 :: x.data))

theorem nextSection_bytes {x : Section} :
    nextSection 0 (x.bytes ++ rest) = .ok (UInt16.ofNat x.data.length, x.data ++ rest) := by
  have hmarker : find ipdMarker 0 (x.bytes ++ rest) =
      (true, toBytes (Nat.toDigits 10 x.data.length) ++ 58 :: (x.data ++ rest)) := by
    unfold Section.bytes
    simp only [List.append_assoc, List.cons_append]
    exact find_first (a := 43) (t := [73, 80, 68, 44]) (by decide) x.plain
  have hdigits : ∀ d ∈ Nat.toDigits 10 x.data.length, d.isDigit := fun _ =>
    Decimal.isDigit_of_mem_toDigits
  have hcount : readCount (UInt16.ofNat 0) (toBytes (Nat.toDigits 10 x.data.length) ++
      58 :: (x.data ++ rest)) = .ok _ := readCount_digits hdigits
  rw [Nat.ofDigitChars_ten_toDigits] at hcount
  unfold nextSection
  rw [if_pos rfl, hmarker]
  exact hcount

/-- In a section `find(str, true)` goes on as it would with the next one at hand. -/
theorem findIpd_bytes {x : Section} :
    findIpd str k 0 (x.bytes ++ rest) =
      findIpd str k (UInt16.ofNat x.data.length) (x.data ++ rest) := by
  have hne : UInt16.ofNat x.data.length ≠ 0 := by
    have hpos := List.length_pos_iff.mpr x.data_ne_nil
    have hlt := x.length_lt
    rw [ne_eq, ← UInt16.toNat_inj, UInt16.toNat_ofNat', UInt16.toNat_zero]
    omega
  have hnext : nextSection (UInt16.ofNat x.data.length) (x.data ++ rest) =
      .ok (UInt16.ofNat x.data.length, x.data ++ rest) := if_neg hne
  rw [findIpd, findIpd, hnext, nextSection_bytes]

theorem findIpd_cons (hn : n ≠ 0) : findIpd str k n (c :: rest) =
    if c = 0 then (false, rest)
    else if c = str.getD k 0 then
      if k + 1 = str.length then (true, rest) else findIpd str (k + 1) (n - 1) rest
    else findIpd str 0 (n - 1) rest := by
  have hnext : nextSection n (c :: rest) = .ok (n, c :: rest) := if_neg hn
  rw [findIpd, hnext]

/-- When the sections to come make no difference, those at hand make none. -/
theorem findIpd_data {sections : List UInt8}
    (h : ∀ k, (findIpd str k 0 sections).1 = (find str k rest).1) (hlen : t.length < 2 ^ 16) :
    (findIpd str k (UInt16.ofNat t.length) (t ++ sections)).1 = (find str k (t ++ rest)).1 := by
  induction t generalizing k with
  | nil => exact h k
  | cons c t ih =>
    rw [List.length_cons] at hlen ⊢
    have hne : UInt16.ofNat (t.length + 1) ≠ 0 := by
      rw [ne_eq, ← UInt16.toNat_inj, UInt16.toNat_ofNat', UInt16.toNat_zero]
      omega
    have hdec : UInt16.ofNat (t.length + 1) - 1 = UInt16.ofNat t.length := by
      rw [UInt16.ofNat_add]
      exact UInt16.add_sub_cancel _ _
    have ih := fun k => ih (k := k) (by omega)
    rw [List.cons_append, List.cons_append, findIpd_cons hne, find, hdec]
    split
    · rfl
    split
    · split
      · rfl
      · exact ih _
    · exact ih _

/-- How the data are cut into sections makes no difference to whether a text is found. -/
theorem findIpd_sections {xs : List Section} :
    (findIpd str k 0 (xs.flatMap Section.bytes)).1 = (find str k (xs.flatMap Section.data)).1 := by
  induction xs generalizing k with
  | nil =>
    have hnone : nextSection 0 [] = .error [] := rfl
    rw [List.flatMap_nil, List.flatMap_nil, findIpd, hnone]
    rfl
  | cons x xs ih =>
    rw [List.flatMap_cons, List.flatMap_cons, findIpd_bytes]
    exact findIpd_data (fun k => ih) x.length_lt

end D1Mini.Esp8266
