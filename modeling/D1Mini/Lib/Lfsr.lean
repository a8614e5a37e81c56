import Mathlib.Algebra.Group.Nat.Defs

/-! Cyclic redundancy checks of `w` bits as shift registers, the lowest bit first. A register whose
feedback reaches its highest bit loses nothing, so that an error in at most `w` bits in a row shows,
and a check word that follows its message leaves zero. -/

namespace Lfsr

variable {w : Nat}

/-- The register moves down, with the feedback when the bit that leaves it is set. -/
def shift (poly c : BitVec w) : BitVec w := if c.getLsbD 0 then (c >>> 1) ^^^ poly else c >>> 1

/-- A bit enters the register. -/
def step (poly c : BitVec w) (b : Bool) : BitVec w :=
  if c.getLsbD 0 != b then (c >>> 1) ^^^ poly else c >>> 1

def run (poly c : BitVec w) (bs : List Bool) : BitVec w := bs.foldl (step poly) c

def shifts (poly : BitVec w) : Nat → BitVec w → BitVec w
  | 0, c => c
  | n + 1, c => shifts poly n (shift poly c)

/-- The word of a list of bits. -/
def ofBits (w : Nat) : List Bool → BitVec w
  | [] => 0
  | b :: bs => ofBits w bs <<< 1 ||| BitVec.ofNat w b.toNat

section
variable {poly a c : BitVec w} {b b' : Bool} {bs cs pre post : List Bool} {n i : Nat}

theorem run_append : run poly c (bs ++ cs) = run poly (run poly c bs) cs := List.foldl_append

theorem getLsbD_ofBits : (ofBits w bs).getLsbD i = (decide (i < w) && bs.getD i false) := by
  induction bs generalizing i with
  | nil => simp [ofBits]
  | cons b bs ih =>
    rw [ofBits, BitVec.getLsbD_or, BitVec.getLsbD_shiftLeft, BitVec.getLsbD_ofNat, ih]
    cases i with
    | zero => cases b <;> simp
    | succ i =>
      have hbit : b.toNat.testBit (i + 1) = false := by
        rw [Nat.testBit_succ, Nat.div_eq_of_lt b.toNat_lt, Nat.zero_testBit]
      rw [hbit]
      rcases Nat.lt_or_ge (i + 1) w with h | h
      · simp [h, Nat.lt_of_succ_lt h]
      · simp [Nat.not_lt.mpr h]

theorem getLsbD_shift :
    (shift poly c).getLsbD i = ((c.getLsbD 0 && poly.getLsbD i) ^^ c.getLsbD (i + 1)) := by
  unfold shift
  rw [Nat.add_comm i 1]
  cases c.getLsbD 0
  · simp
  · simp [Bool.xor_comm]

/-- Registers may be combined before the shift or after it. -/
theorem shift_xor : shift poly (a ^^^ c) = shift poly a ^^^ shift poly c := by
  apply BitVec.eq_of_getLsbD_eq
  intro i hi
  simp only [getLsbD_shift, BitVec.getLsbD_xor]
  generalize a.getLsbD 0 = p, c.getLsbD 0 = q, poly.getLsbD i = r
  cases p <;> cases q <;> cases r <;> simp

theorem shifts_xor : shifts poly n (a ^^^ c) = shifts poly n a ^^^ shifts poly n c := by
  induction n generalizing a c with
  | zero => rfl
  | succ n ih => rw [shifts, shift_xor, ih, shifts, shifts]

/-- A bit that enters is one that the register is combined with. -/
theorem step_eq (hw : 0 < w) : step poly c b = shift poly (c ^^^ ofBits w [b]) := by
  have hrest : (c ^^^ ofBits w [b]) >>> 1 = c >>> 1 := by
    apply BitVec.eq_of_getLsbD_eq
    intro i hi
    simp only [BitVec.getLsbD_ushiftRight, BitVec.getLsbD_xor, getLsbD_ofBits]
    simp
  have hlow : (c ^^^ ofBits w [b]).getLsbD 0 = (c.getLsbD 0 != b) := by
    rw [BitVec.getLsbD_xor, getLsbD_ofBits, decide_eq_true hw]
    simp
  rw [step, shift, hrest, hlow]

theorem ofBits_cons : ofBits w (b :: bs) = ofBits w [b] ^^^ (ofBits w bs <<< 1) := by
  apply BitVec.eq_of_getLsbD_eq
  intro i hi
  rw [BitVec.getLsbD_xor, BitVec.getLsbD_shiftLeft, getLsbD_ofBits, getLsbD_ofBits, getLsbD_ofBits]
  cases i with
  | zero => simp [hi]
  | succ i => simp [hi, Nat.lt_of_succ_lt hi]

/-- The lowest bit of a shorter word has room to move up and down. -/
theorem shift_shiftLeft (h : bs.length < w) : shift poly (ofBits w bs <<< 1) = ofBits w bs := by
  apply BitVec.eq_of_getLsbD_eq
  intro i hi
  rw [getLsbD_shift, BitVec.getLsbD_shiftLeft, BitVec.getLsbD_shiftLeft, getLsbD_ofBits]
  rcases Nat.lt_or_ge (i + 1) w with hlt | hge
  · simp [hi, hlt]
  · have hout : bs.length ≤ i := by omega
    simp [Nat.not_lt.mpr hge, getLsbD_ofBits, List.getElem?_eq_none hout]

/-- Bits that enter one by one may enter at once. -/
theorem run_eq_shifts (h : bs.length ≤ w) :
    run poly c bs = shifts poly bs.length (c ^^^ ofBits w bs) := by
  induction bs generalizing c with
  | nil => simp [run, shifts, ofBits]
  | cons b bs ih =>
    have hlt : bs.length < w := h
    have hstep : run poly c (b :: bs) = run poly (step poly c b) bs := rfl
    rw [hstep, ih (Nat.le_of_lt hlt), List.length_cons, shifts, ofBits_cons, ← BitVec.xor_assoc,
      shift_xor, shift_shiftLeft hlt, step_eq (Nat.zero_lt_of_lt hlt)]

/-! ### Registers that lose nothing -/

theorem eq_zero_of_shift (hpoly : poly.getLsbD (w - 1)) (h : shift poly c = 0) : c = 0 := by
  have hbit (i : Nat) : ((c.getLsbD 0 && poly.getLsbD i) ^^ c.getLsbD (i + 1)) = false := by
    rw [← getLsbD_shift, h, BitVec.ofNat_eq_ofNat, BitVec.getLsbD_zero]
  have hlow : c.getLsbD 0 = false := by
    have htop := hbit (w - 1)
    have hout : c.getLsbD (w - 1 + 1) = false := BitVec.getLsbD_of_ge _ _ (by omega)
    rw [hpoly, hout, Bool.and_true, Bool.xor_false] at htop
    exact htop
  apply BitVec.eq_of_getLsbD_eq
  intro i hi
  rw [BitVec.ofNat_eq_ofNat, BitVec.getLsbD_zero]
  cases i with
  | zero => exact hlow
  | succ i =>
    have := hbit i
    rw [hlow, Bool.false_and, Bool.false_xor] at this
    exact this

theorem shift_injective (hpoly : poly.getLsbD (w - 1)) (h : shift poly a = shift poly c) :
    a = c := by
  apply BitVec.xor_eq_zero_iff.mp
  apply eq_zero_of_shift hpoly
  rw [shift_xor, h, BitVec.xor_self]
  rfl

theorem shifts_injective (hpoly : poly.getLsbD (w - 1)) (h : shifts poly n a = shifts poly n c) :
    a = c := by
  induction n generalizing a c with
  | zero => exact h
  | succ n ih => exact shift_injective hpoly (ih h)

theorem run_injective (hpoly : poly.getLsbD (w - 1)) (h : run poly a bs = run poly c bs) :
    a = c := by
  induction bs generalizing a c with
  | nil => exact h
  | cons b bs ih =>
    have hstep : step poly a b = step poly c b := ih h
    rcases Nat.eq_zero_or_pos w with rfl | hw
    · exact Subsingleton.elim a c
    · rw [step_eq hw, step_eq hw] at hstep
      exact (BitVec.xor_left_inj _).mp (shift_injective hpoly hstep)

theorem ofBits_injective (hlen : bs.length = cs.length) (hw : bs.length ≤ w)
    (h : ofBits w bs = ofBits w cs) : bs = cs := by
  apply List.ext_getElem hlen
  intro i hi hi'
  have hbit := congrArg (BitVec.getLsbD · i) h
  simp only [getLsbD_ofBits] at hbit
  simpa [Nat.lt_of_lt_of_le hi hw, hi, hi'] using hbit

/-- An error in at most `w` bits in a row shows. -/
theorem run_ne_of_burst (hpoly : poly.getLsbD (w - 1)) (hlen : bs.length = cs.length)
    (hw : bs.length ≤ w) (hne : bs ≠ cs) :
    run poly c (pre ++ bs ++ post) ≠ run poly c (pre ++ cs ++ post) := by
  intro h
  rw [run_append, run_append, run_append, run_append] at h
  have hburst : run poly (run poly c pre) bs = run poly (run poly c pre) cs := run_injective hpoly h
  have hw' : cs.length ≤ w := Nat.le_trans (Nat.le_of_eq hlen.symm) hw
  rw [run_eq_shifts hw, run_eq_shifts hw', hlen] at hburst
  have hword := (BitVec.xor_right_inj _).mp (shifts_injective hpoly hburst)
  exact hne (ofBits_injective hlen hw hword)

theorem shifts_zero : shifts poly n (0 : BitVec w) = 0 := by
  induction n with
  | zero => rfl
  | succ n ih =>
    have hshift : shift poly (0 : BitVec w) = 0 := by simp [shift]
    rw [shifts, hshift, ih]

/-- A check word leaves zero if and only if it is the right one. -/
theorem run_eq_zero (hpoly : poly.getLsbD (w - 1)) (hlen : bs.length = w) :
    run poly c bs = 0 ↔ ofBits w bs = c := by
  rw [run_eq_shifts (Nat.le_of_eq hlen)]
  constructor
  · intro h
    have hxor : c ^^^ ofBits w bs = 0 := by
      rw [← shifts_zero (n := bs.length)] at h
      exact shifts_injective hpoly h
    exact (BitVec.xor_eq_zero_iff.mp hxor).symm
  · intro h
    rw [h, BitVec.xor_self]
    exact shifts_zero

end

end Lfsr
