import Mathlib.Algebra.Group.Nat.Defs

/-! Lengths in base 128, the lowest digit first: a byte holds seven bits of the length, and its
eighth bit says that another byte follows. -/

namespace VarLength

def encode (n : Nat) : List UInt8 :=
  if n < 128 then [UInt8.ofNat n] else UInt8.ofNat (n % 128 + 128) :: encode (n / 128)

/-- The length that a text begins with, and what follows it. -/
def decode : List UInt8 → Option (Nat × List UInt8)
  | [] => none
  | b :: bs =>
    if b.toNat < 128 then some (b.toNat, bs)
    else (decode bs).map fun r => (b.toNat - 128 + 128 * r.1, r.2)

variable {n k i : Nat} {b : UInt8} {bytes rest : List UInt8}

theorem toNat_ofNat (h : n < 256) : (UInt8.ofNat n).toNat = n := by
  rw [UInt8.toNat_ofNat']
  exact Nat.mod_eq_of_lt h

theorem encode_of_lt (h : n < 128) : encode n = [UInt8.ofNat n] := by
  rw [encode, if_pos h]

theorem encode_of_le (h : 128 ≤ n) :
    encode n = UInt8.ofNat (n % 128 + 128) :: encode (n / 128) := by
  rw [encode, if_neg (Nat.not_lt.mpr h)]

theorem decode_encode : decode (encode n ++ rest) = some (n, rest) := by
  induction n using encode.induct with
  | case1 n h =>
    have hb : (UInt8.ofNat n).toNat = n := toNat_ofNat (by omega)
    rw [encode_of_lt h, List.singleton_append, decode, if_pos (by rw [hb]; exact h), hb]
  | case2 n h ih =>
    have hn : 128 ≤ n := Nat.not_lt.mp h
    have hb : (UInt8.ofNat (n % 128 + 128)).toNat = n % 128 + 128 := toNat_ofNat (by omega)
    rw [encode_of_le hn, List.cons_append, decode, if_neg (by rw [hb]; omega), ih, hb]
    simp only [Option.map_some, Nat.add_sub_cancel]
    rw [Nat.mod_add_div]

theorem length_encode_pos : 0 < (encode n).length := by
  rw [encode]
  split <;> exact Nat.succ_pos _

theorem length_encode_le : (encode n).length ≤ k + 1 ↔ n < 128 ^ (k + 1) := by
  induction k generalizing n with
  | zero =>
    rcases Nat.lt_or_ge n 128 with h | h
    · simp [encode_of_lt h, h]
    · rw [encode_of_le h, List.length_cons]
      have := length_encode_pos (n := n / 128)
      constructor <;> intro h <;> omega
  | succ k ih =>
    rcases Nat.lt_or_ge n 128 with h | h
    · have hpow : 128 ≤ 128 ^ (k + 1 + 1) := Nat.le_self_pow (by omega) 128
      rw [encode_of_lt h, List.length_singleton]
      constructor <;> intro <;> omega
    · rw [encode_of_le h, List.length_cons, Nat.add_le_add_iff_right, ih,
        Nat.div_lt_iff_lt_mul (by decide), ← Nat.pow_succ]

/-! ### Lengths that are not read as they were meant -/

theorem decode_cons (h : decode (b :: bytes) = some (n, rest)) :
    (b.toNat < 128 ∧ n = b.toNat ∧ rest = bytes) ∨
    (128 ≤ b.toNat ∧ ∃ m, decode bytes = some (m, rest) ∧ n = b.toNat - 128 + 128 * m) := by
  rw [decode] at h
  split at h
  case isTrue hb =>
    cases h
    exact .inl ⟨hb, rfl, rfl⟩
  case isFalse hb =>
    obtain ⟨⟨m, rest'⟩, hm, heq⟩ := Option.map_eq_some_iff.mp h
    cases heq
    exact .inr ⟨Nat.not_lt.mp hb, m, hm, rfl⟩

/-- A length ends no later than at a byte that has no other behind it. -/
theorem decode_length (h : decode bytes = some (n, rest)) (hi : i < bytes.length)
    (hb : (bytes.getD i 0).toNat < 128) :
    rest.length < bytes.length ∧ bytes.length ≤ rest.length + i + 1 := by
  induction bytes generalizing n i with
  | nil => cases h
  | cons b bytes ih =>
    rw [List.length_cons] at hi ⊢
    obtain ⟨-, -, rfl⟩ | ⟨hbig, m, hm, -⟩ := decode_cons h
    · omega
    · cases i with
      | zero => exact absurd hb (Nat.not_lt.mpr hbig)
      | succ i =>
        obtain ⟨h1, h2⟩ := ih hm (Nat.lt_of_succ_lt_succ hi) hb
        omega

/-- A text whose length is from 128 to 255, but written in one byte, does not have the length that
is read from it. -/
theorem decode_one_byte (h : decode (UInt8.ofNat bytes.length :: bytes) = some (n, rest))
    (hlong : 128 ≤ bytes.length) (hlen : bytes.length < 256) (hi : i < 126)
    (hb : (bytes.getD i 0).toNat < 128) : rest.length ≠ n := by
  have hbyte : (UInt8.ofNat bytes.length).toNat = bytes.length := toNat_ofNat hlen
  obtain ⟨hsmall, -⟩ | ⟨-, m, hm, rfl⟩ := decode_cons h
  · omega
  · obtain ⟨h1, h2⟩ := decode_length hm (by omega) hb
    omega

end VarLength
