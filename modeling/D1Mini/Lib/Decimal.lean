import Mathlib.Algebra.Group.Nat.Defs
import Mathlib.Data.Nat.Log

/-! Decimal text of integers and of fixed-point numbers, written without superfluous zeros in front
and read back. A fixed-point number with `d` decimals is the integer of its units `10 ^ -d`. -/

namespace Decimal

def signed (x : Int) (cs : List Char) : List Char := if x < 0 then '-' :: cs else cs

def renderInt (x : Int) : List Char := signed x (Nat.toDigits 10 x.natAbs)

def renderFixed (d : Nat) (x : Int) : List Char :=
  signed x (Nat.toDigits 10 (x.natAbs / 10 ^ d) ++
    '.' :: (Nat.toDigits 10 (x.natAbs % 10 ^ d)).leftpad d '0')

def parseNat (cs : List Char) : Option Nat :=
  if cs ≠ [] ∧ cs.all Char.isDigit then some (Nat.ofDigitChars 10 cs 0) else none

def parseFixedNat (d : Nat) (cs : List Char) : Option Nat :=
  match cs.dropWhile Char.isDigit with
  | '.' :: frac =>
    if frac.length = d then do
      let n ← parseNat (cs.takeWhile Char.isDigit)
      let f ← parseNat frac
      return n * 10 ^ d + f
    else none
  | _ => none

def parseSigned (parse : List Char → Option Nat) : List Char → Option Int
  | '-' :: cs => (parse cs).map fun n : Nat => -(n : Int)
  | cs => (parse cs).map fun n : Nat => (n : Int)

def parseInt : List Char → Option Int := parseSigned parseNat

def parseFixed (d : Nat) : List Char → Option Int := parseSigned (parseFixedNat d)

/-- The number of decimal digits. -/
def numDigits (n : Nat) : Nat := Nat.log 10 n + 1

/-- The number of characters in front of the point. -/
def wholeWidth (d : Nat) (x : Int) : Nat :=
  (if x < 0 then 1 else 0) + numDigits (x.natAbs / 10 ^ d)

variable {d n : Nat} {x : Int} {c : Char}

/-! ### Widths -/

theorem numDigits_le_iff (hd : 0 < d) : numDigits n ≤ d ↔ n < 10 ^ d := by
  rw [numDigits, Nat.succ_le_iff]
  exact ⟨Nat.lt_pow_of_log_lt (by decide), Nat.log_lt_of_lt_pow' (Nat.ne_of_gt hd)⟩

theorem length_toDigits : (Nat.toDigits 10 n).length = numDigits n := by
  have h (k : Nat) (hk : 0 < k) : (Nat.toDigits 10 n).length ≤ k ↔ numDigits n ≤ k := by
    rw [Nat.length_toDigits_le_iff (by decide) hk, numDigits_le_iff hk]
  apply Nat.le_antisymm
  · exact (h _ (Nat.succ_pos _)).mpr (Nat.le_refl _)
  · exact (h _ Nat.length_toDigits_pos).mp (Nat.le_refl _)

theorem length_signed {cs : List Char} :
    (signed x cs).length = (if x < 0 then 1 else 0) + cs.length := by
  unfold signed
  split <;> simp [Nat.add_comm]

theorem length_renderInt (h : 0 ≤ x) : (renderInt x).length = numDigits x.natAbs := by
  rw [renderInt, length_signed, length_toDigits, if_neg (Int.not_lt.mpr h), Nat.zero_add]

theorem length_fraction (hd : 0 < d) :
    ((Nat.toDigits 10 (n % 10 ^ d)).leftpad d '0').length = d := by
  have : (Nat.toDigits 10 (n % 10 ^ d)).length ≤ d :=
    (Nat.length_toDigits_le_iff (by decide) hd).mpr (Nat.mod_lt _ (Nat.pow_pos (by decide)))
  rw [List.length_leftpad]
  omega

theorem length_renderFixed (hd : 0 < d) :
    (renderFixed d x).length = wholeWidth d x + (d + 1) := by
  rw [renderFixed, length_signed, List.length_append, List.length_cons, length_fraction hd,
    length_toDigits, wholeWidth, Nat.add_assoc]

/-! ### Characters -/

theorem isDigit_of_mem_toDigits (h : c ∈ Nat.toDigits 10 n) : c.isDigit :=
  Nat.isDigit_of_mem_toDigits (by decide) (by decide) h

theorem isDigit_of_mem_fraction (h : c ∈ (Nat.toDigits 10 n).leftpad d '0') : c.isDigit := by
  rcases List.mem_append.mp h with h | h
  · rw [List.eq_of_mem_replicate h]
    decide
  · exact isDigit_of_mem_toDigits h

theorem mem_signed {cs : List Char} (h : c ∈ signed x cs) : c = '-' ∨ c ∈ cs := by
  unfold signed at h
  split at h
  · exact List.mem_cons.mp h
  · exact .inr h

theorem mem_renderInt (h : c ∈ renderInt x) : c = '-' ∨ c.isDigit :=
  (mem_signed h).imp_right isDigit_of_mem_toDigits

theorem mem_renderFixed (h : c ∈ renderFixed d x) : c = '-' ∨ c = '.' ∨ c.isDigit := by
  refine (mem_signed h).imp_right fun h => ?_
  rcases List.mem_append.mp h with h | h
  · exact .inr (isDigit_of_mem_toDigits h)
  · exact (List.mem_cons.mp h).imp_right isDigit_of_mem_fraction

/-! ### Round trips -/

theorem parseNat_toDigits : parseNat (Nat.toDigits 10 n) = some n := by
  have hall : (Nat.toDigits 10 n).all Char.isDigit :=
    List.all_eq_true.mpr fun _ => isDigit_of_mem_toDigits
  rw [parseNat, if_pos ⟨Nat.toDigits_ne_nil, hall⟩, Nat.ofDigitChars_ten_toDigits]

theorem parseNat_fraction : parseNat ((Nat.toDigits 10 n).leftpad d '0') = some n := by
  have hne : (Nat.toDigits 10 n).leftpad d '0' ≠ [] := by
    simp [List.leftpad]
  have hall : ((Nat.toDigits 10 n).leftpad d '0').all Char.isDigit :=
    List.all_eq_true.mpr fun _ => isDigit_of_mem_fraction
  rw [parseNat, if_pos ⟨hne, hall⟩, List.leftpad, Nat.ofDigitChars_append,
    Nat.ofDigitChars_replicate_zero, Nat.mul_zero, Nat.ofDigitChars_ten_toDigits]

theorem parseFixedNat_render (hd : 0 < d) :
    parseFixedNat d (Nat.toDigits 10 (n / 10 ^ d) ++
      '.' :: (Nat.toDigits 10 (n % 10 ^ d)).leftpad d '0') = some n := by
  have hdigit : ∀ c ∈ Nat.toDigits 10 (n / 10 ^ d), c.isDigit := fun _ => isDigit_of_mem_toDigits
  have hdot (cs : List Char) : ('.' :: cs).takeWhile Char.isDigit = [] := rfl
  have hdot' (cs : List Char) : ('.' :: cs).dropWhile Char.isDigit = '.' :: cs := rfl
  simp only [parseFixedNat, List.dropWhile_append_of_pos hdigit, hdot',
    List.takeWhile_append_of_pos hdigit, hdot, List.append_nil, length_fraction hd,
    parseNat_toDigits, parseNat_fraction]
  exact congrArg some (Nat.div_add_mod' n (10 ^ d))

/-- A reader of unsigned text extends to signed text. -/
theorem parseSigned_signed {parse : List Char → Option Nat} {cs : List Char}
    (h : parse cs = some x.natAbs) (hcs : cs.head? ≠ some '-') :
    parseSigned parse (signed x cs) = some x := by
  unfold signed
  split
  · simp only [parseSigned, h, Option.map_some, Option.some.injEq]
    omega
  · have : parseSigned parse cs = (parse cs).map fun n : Nat => (n : Int) := by
      unfold parseSigned
      split
      · simp at hcs
      · rfl
    rw [this, h, Option.map_some, Option.some.injEq]
    omega

theorem head_toDigits {cs : List Char} : (Nat.toDigits 10 n ++ cs).head? ≠ some '-' := by
  intro h
  rw [List.head?_append, Option.or_eq_some_iff, List.head?_eq_none_iff] at h
  obtain h | ⟨h, -⟩ := h
  · have := isDigit_of_mem_toDigits (List.mem_of_mem_head? h)
    revert this
    decide
  · exact Nat.toDigits_ne_nil h

theorem parseInt_renderInt : parseInt (renderInt x) = some x := by
  have hhead : (Nat.toDigits 10 x.natAbs ++ []).head? ≠ some '-' := head_toDigits
  rw [List.append_nil] at hhead
  exact parseSigned_signed parseNat_toDigits hhead

theorem parseFixed_renderFixed (hd : 0 < d) : parseFixed d (renderFixed d x) = some x :=
  parseSigned_signed (parseFixedNat_render hd) head_toDigits

end Decimal
