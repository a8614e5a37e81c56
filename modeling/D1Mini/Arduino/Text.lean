import D1Mini.Lib.Decimal

/-! Text of the Arduino core: what `String(..)` and `print` make of a number, and the `char` arrays
a `String` is copied into. A `float` that is printed is the integer of its hundredths. -/

namespace D1Mini
open Decimal

def nul : Char := Char.ofNat 0

def intText (n : Int32) : List Char := renderInt n.toInt

def floatText (hundredths : Int) : List Char := renderFixed 2 hundredths

/-- `s.toCharArray(buf, size)` leaves room for the final `nul`. -/
def toCharArray (s : List Char) (size : Nat) : List Char := s.take (size - 1) ++ [nul]

/-- The text that a `char *` stands for. -/
def cString (buf : List Char) : List Char := buf.takeWhile (· ≠ nul)

/-- The bytes that a text is sent as. -/
def toBytes (s : List Char) : List UInt8 := s.map fun c => UInt8.ofNat c.toNat

def ofBytes (bytes : List UInt8) : List Char := bytes.map fun b => Char.ofNat b.toNat

def Ascii (s : List Char) : Prop := s.all fun c => c.toNat < 128

instance (s : List Char) : Decidable (Ascii s) :=
  inferInstanceAs (Decidable (s.all (fun c => c.toNat < 128) = true))

variable {s s' : List Char} {size : Nat} {c : Char}

theorem cString_toCharArray (h : nul ∉ s) : cString (toCharArray s size) = s.take (size - 1) := by
  have hmem : ∀ c ∈ s.take (size - 1), decide (c ≠ nul) = true := by
    intro c hc
    apply decide_eq_true
    rintro rfl
    exact h (List.mem_of_mem_take hc)
  rw [cString, toCharArray, List.takeWhile_append_of_pos hmem]
  simp

theorem notMem_intText {n : Int32} (h : c ≠ '-') (h' : c.isDigit = false) : c ∉ intText n := by
  intro hc
  rcases mem_renderInt hc with hc | hc
  · exact h hc
  · rw [h'] at hc
    cases hc

theorem notMem_floatText {x : Int} (h : c ∉ ['-', '.']) (h' : c.isDigit = false) :
    c ∉ floatText x := by
  intro hc
  rcases mem_renderFixed hc with rfl | rfl | hc
  · exact h (by decide)
  · exact h (by decide)
  · rw [h'] at hc
    cases hc

/-! ### Bytes -/

theorem length_toBytes : (toBytes s).length = s.length := List.length_map _

theorem ofBytes_toBytes (h : Ascii s) : ofBytes (toBytes s) = s := by
  have hchar (c : Char) (hc : c ∈ s) :
      ((fun b : UInt8 => Char.ofNat b.toNat) ∘ fun c : Char => UInt8.ofNat c.toNat) c = c := by
    have hlt : c.toNat < 128 := of_decide_eq_true (List.all_eq_true.mp h c hc)
    have hbyte : (UInt8.ofNat c.toNat).toNat = c.toNat := by
      rw [UInt8.toNat_ofNat']
      omega
    rw [Function.comp_apply, hbyte, Char.ofNat_toNat]
  rw [ofBytes, toBytes, List.map_map, List.map_congr_left hchar, List.map_id']

theorem Ascii.append (h : Ascii s) (h' : Ascii s') : Ascii (s ++ s') := by
  unfold Ascii at h h' ⊢
  rw [List.all_append, h, h', Bool.and_self]

theorem Ascii.take (h : Ascii s) (n : Nat) : Ascii (s.take n) := by
  unfold Ascii at h ⊢
  rw [List.all_eq_true] at h ⊢
  intro c hc
  exact h c (List.mem_of_mem_take hc)

theorem toNat_of_isDigit (h : c.isDigit) : c.toNat < 128 := by
  have hle : c.toNat ≤ '9'.toNat := (Char.isDigit_iff_toNat.mp h).2
  exact Nat.lt_of_le_of_lt hle (by decide)

theorem ascii_intText {n : Int32} : Ascii (intText n) := by
  unfold Ascii
  rw [List.all_eq_true]
  intro c hc
  apply decide_eq_true
  rcases mem_renderInt hc with rfl | hc
  · decide
  · exact toNat_of_isDigit hc

theorem ascii_floatText {x : Int} : Ascii (floatText x) := by
  unfold Ascii
  rw [List.all_eq_true]
  intro c hc
  apply decide_eq_true
  rcases mem_renderFixed hc with rfl | rfl | hc
  · decide
  · decide
  · exact toNat_of_isDigit hc

end D1Mini
