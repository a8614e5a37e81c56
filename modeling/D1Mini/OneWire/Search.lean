import Mathlib.Data.List.GetD
import D1Mini.OneWire.Bus

/-!
# `search` of `OneWire.cpp`

The master reads a bit of all the addresses that are left, then its complement, and writes the bit
of those that stay. `LastDiscrepancy` is the junction at which the next search goes up.
-/

namespace D1Mini

/-- An object of the class, with the bus that it drives. -/
structure OneWire where
  romNo : List UInt8
  lastDiscrepancy : Nat
  lastFamilyDiscrepancy : Nat
  lastDeviceFlag : Bool
  bus : OneWire.Bus
deriving DecidableEq, Repr

namespace OneWire
open BitTree

/-- The local variables of `search`. -/
structure Pass where
  idBitNumber : Nat := 1
  lastZero : Nat := 0
  romByteNumber : Nat := 0
  romByteMask : UInt8 := 1
deriving DecidableEq, Repr

def resetSearch (w : OneWire) : OneWire :=
  { w with
    lastDiscrepancy := 0
    lastDeviceFlag := false
    lastFamilyDiscrepancy := 0
    romNo := List.replicate 8 0 }

/-- The next search is for a device of a family. -/
def targetSearch (w : OneWire) (familyCode : UInt8) : OneWire :=
  { w with
    romNo := familyCode :: List.replicate 7 0
    lastDiscrepancy := 64
    lastFamilyDiscrepancy := 0
    lastDeviceFlag := false }

/-- `search_direction` of a bit and its complement. -/
def searchDirection (w : OneWire) (l : Pass) (idBit cmpIdBit : Bool) : Bool :=
  if idBit ≠ cmpIdBit then idBit
  else if l.idBitNumber < w.lastDiscrepancy then
    decide (w.romNo.getD l.romByteNumber 0 &&& l.romByteMask > 0)
  else l.idBitNumber == w.lastDiscrepancy

/-- The bit goes to `ROM_NO` and to the bus. -/
def takeDirection (w : OneWire) (l : Pass) (direction : Bool) : OneWire :=
  { w with
    romNo := w.romNo.modify l.romByteNumber fun v =>
      if direction then v ||| l.romByteMask else v &&& ~~~l.romByteMask
    bus := w.bus.writeBit direction }

def Pass.next (l : Pass) : Pass :=
  let l := { l with idBitNumber := l.idBitNumber + 1, romByteMask := l.romByteMask <<< 1 }
  if l.romByteMask = 0 then { l with romByteNumber := l.romByteNumber + 1, romByteMask := 1 } else l

/-- The loop of `search`: after 64 passes `rom_byte_number` is 8. -/
def searchLoop : Nat → OneWire → Pass → OneWire × Pass
  | 0, w, l => (w, l)
  | n + 1, w, l =>
    let (idBit, bus) := w.bus.readBit
    let (cmpIdBit, bus) := bus.readBit
    let w := { w with bus }
    if idBit && cmpIdBit then (w, l)
    else
      let direction := w.searchDirection l idBit cmpIdBit
      let zero := idBit == cmpIdBit && !direction
      let w :=
        if zero && l.idBitNumber < 9 then { w with lastFamilyDiscrepancy := l.idBitNumber } else w
      let w := w.takeDirection l direction
      let l := (if zero then { l with lastZero := l.idBitNumber } else l).next
      if l.romByteNumber < 8 then searchLoop n w l else (w, l)

/-- The next search will be like a first. -/
def resetCounters (w : OneWire) : OneWire :=
  { w with lastDiscrepancy := 0, lastDeviceFlag := false, lastFamilyDiscrepancy := 0 }

/-- The address that is found, `none` when `search` returns false. -/
def search (w : OneWire) (searchMode : Bool) : Option (List UInt8) × OneWire :=
  if w.lastDeviceFlag then (none, w.resetCounters)
  else
    let (presence, bus) := w.bus.reset
    if !presence then (none, { w with bus }.resetCounters)
    else
      let bus := bus.write (if searchMode then 0xF0 else 0xEC)
      let (w, l) := searchLoop 64 { w with bus } {}
      if l.idBitNumber < 65 then (none, w.resetCounters)
      else
        let w := { w with lastDiscrepancy := l.lastZero, lastDeviceFlag := l.lastZero == 0 }
        if w.romNo.getD 0 0 = 0 then (none, w.resetCounters) else (some w.romNo, w)

/-! ### Bits of a byte -/

variable {v : UInt8} {i k n : Nat} {b : Bool} {path : List Bool} {romNo : List UInt8}

def mask (k : Nat) : UInt8 := ⟨BitVec.twoPow 8 k⟩

theorem and_mask_pos (hk : k < 8) : v &&& mask k > 0 ↔ v.toBitVec.getLsbD k := by
  have hmask : (v &&& mask k).toBitVec = if v.toBitVec.getLsbD k then BitVec.twoPow 8 k else 0 :=
    BitVec.and_twoPow _ _
  have hpos : v &&& mask k > 0 ↔ 0 < (v &&& mask k).toBitVec.toNat := Iff.rfl
  rw [hpos, hmask]
  cases v.toBitVec.getLsbD k with
  | false =>
    rw [if_neg Bool.false_ne_true]
    exact iff_of_false (Nat.lt_irrefl 0) Bool.false_ne_true
  | true =>
    rw [if_pos rfl, BitVec.toNat_twoPow_of_lt hk]
    exact iff_of_true (Nat.two_pow_pos k) rfl

theorem getElem_byteBits (h : i < (byteBits v).length) :
    (byteBits v)[i] = v.toBitVec.getLsbD i := by
  simp [byteBits]

theorem byteBits_set (hk : k < 8) :
    byteBits (if b then v ||| mask k else v &&& ~~~mask k) = (byteBits v).set k b := by
  apply List.ext_getElem
  · rw [List.length_set, length_byteBits, length_byteBits]
  · intro i hi hi'
    have hi8 : i < 8 := by rw [length_byteBits] at hi; exact hi
    rw [List.getElem_set, getElem_byteBits, getElem_byteBits]
    have hone : (mask k).toBitVec.getLsbD i = decide (k = i) := by
      have htwo : (mask k).toBitVec.getLsbD i = (decide (k < 8) && decide (k = i)) :=
        BitVec.getLsbD_twoPow k i
      rw [htwo, decide_eq_true hk, Bool.true_and]
    cases b with
    | false =>
      have hclear : (v &&& ~~~mask k).toBitVec = v.toBitVec &&& ~~~(mask k).toBitVec := rfl
      rw [if_neg Bool.false_ne_true, hclear, BitVec.getLsbD_and, BitVec.getLsbD_not, hone]
      by_cases h : k = i <;> simp [h, hi8]
    | true =>
      have hset : (v ||| mask k).toBitVec = v.toBitVec ||| (mask k).toBitVec := rfl
      rw [if_pos rfl, hset, BitVec.getLsbD_or, hone]
      by_cases h : k = i <;> simp [h]

/-- Where the bit `i` of the address is. -/
theorem bytesBits_modify (hi : i < 8 * romNo.length) :
    bytesBits (romNo.modify (i / 8) fun v =>
      if b then v ||| mask (i % 8) else v &&& ~~~mask (i % 8)) = (bytesBits romNo).set i b := by
  induction romNo generalizing i with
  | nil => cases hi
  | cons v romNo ih =>
    have hbits (v : UInt8) (romNo : List UInt8) :
      bytesBits (v :: romNo) = byteBits v ++ bytesBits romNo := rfl
    rcases Nat.lt_or_ge i 8 with h | h
    · have hlen : i < (byteBits v).length := by rw [length_byteBits]; exact h
      rw [Nat.div_eq_of_lt h, List.modify_zero_cons, hbits, hbits, Nat.mod_eq_of_lt h,
        byteBits_set h, List.set_append_left _ _ hlen]
    · obtain ⟨i, rfl⟩ := Nat.exists_eq_add_of_le h
      have hlen : (byteBits v).length ≤ 8 + i := by rw [length_byteBits]; exact h
      rw [List.length_cons] at hi
      rw [Nat.add_div_left i (by decide), List.modify_succ_cons, hbits, hbits, Nat.add_mod_left,
        ih (by omega), List.set_append_right _ _ hlen, length_byteBits, Nat.add_sub_cancel_left]

theorem getD_and_mask_pos :
    romNo.getD (i / 8) 0 &&& mask (i % 8) > 0 ↔ (bytesBits romNo).getD i false := by
  rw [and_mask_pos (Nat.mod_lt _ (by decide))]
  induction romNo generalizing i with
  | nil => simp [bytesBits]
  | cons v romNo ih =>
    have hbits : bytesBits (v :: romNo) = byteBits v ++ bytesBits romNo := rfl
    rw [hbits]
    rcases Nat.lt_or_ge i 8 with h | h
    · have hlen : i < (byteBits v).length := by rw [length_byteBits]; exact h
      rw [Nat.div_eq_of_lt h, Nat.mod_eq_of_lt h, List.getD_append _ _ _ _ hlen,
        List.getD_eq_getElem _ _ hlen, getElem_byteBits]
      rfl
    · obtain ⟨i, rfl⟩ := Nat.exists_eq_add_of_le h
      have hlen : (byteBits v).length ≤ 8 + i := by rw [length_byteBits]; exact h
      rw [Nat.add_div_left i (by decide), List.getD_append_right _ _ _ _ hlen, length_byteBits,
        Nat.add_sub_cancel_left, Nat.add_mod_left, List.getD_cons_succ]
      exact ih

/-! ### The bus in a search -/

/-- The bits that are left of an address of a slave that takes part. -/
def Slave.rest (active : Chip → Bool) (path : List Bool) (s : Slave) : Option (List Bool) :=
  if active s.chip then stripAll path s.chip.address else none

def Bus.within (bus : Bus) (active : Chip → Bool) (mode : List Bool → Mode) (path : List Bool) :
    Bus :=
  bus.map fun s => s.within mode (s.rest active path)

/-- The addresses that a search is for. -/
def Bus.addresses (bus : Bus) (active : Chip → Bool) : List (List Bool) :=
  (bus.chips.filter active).map (·.address)

variable {bus : Bus} {s : Slave} {o : Option (List Bool)} {level : Bool} {active : Chip → Bool}
  {as : List Bool} {mode : List Bool → Mode} {ds : List (List Bool)}

theorem Slave.slot_searchBit :
    (s.within .searchBit o).slot level = s.within .searchComplement o := by
  rcases o with _ | _ | _ <;> rfl

theorem Slave.slot_searchComplement :
    (s.within .searchComplement o).slot level = s.within .searchDirection o := by
  rcases o with _ | _ | _ <;> rfl

theorem Slave.sends_searchDirection : (s.within .searchDirection o).sends = true := by
  rcases o with _ | _ | _ <;> rfl

theorem Slave.toMode_within {m : Mode} : (s.toMode m).within mode o = s.within mode o := by
  rcases o with _ | _ | _ <;> rfl

theorem Slave.slot_searchDirection :
    (s.within .searchDirection o).slot level = s.within .searchBit (o.bind (strip level)) := by
  rcases o with _ | _ | ⟨b, rest⟩
  · rfl
  · rfl
  · exact toMode_within

theorem mem_behind_addresses :
    as ∈ behind path (bus.addresses active) ↔ ∃ s ∈ bus, s.rest active path = some as := by
  simp only [behind, Bus.addresses, Bus.chips, List.mem_filterMap, List.mem_map, List.mem_filter,
    Slave.rest]
  constructor
  · rintro ⟨_, ⟨_, ⟨⟨s, hs, rfl⟩, hactive⟩, rfl⟩, has⟩
    exact ⟨s, hs, by rw [if_pos hactive, has]⟩
  · rintro ⟨s, hs, has⟩
    split at has
    · next hactive => exact ⟨_, ⟨_, ⟨⟨s, hs, rfl⟩, hactive⟩, rfl⟩, has⟩
    · cases has

/-- Nobody pulls the line down where no address that is left has the bit. -/
theorem level_within (mode : List Bool → Mode) (b : Bool)
    (hmode : ∀ (s : Slave) c cs, (s.within mode (some (c :: cs))).sends = (c != b)) :
    (bus.within active mode path).level true =
      decide (branch b (behind path (bus.addresses active)) = []) := by
  rw [Bool.eq_iff_iff, decide_eq_true_iff, Bus.level, Bool.true_and, List.all_eq_true,
    List.eq_nil_iff_forall_not_mem]
  constructor
  · intro h as has
    obtain ⟨s, hs, hrest⟩ := mem_behind_addresses.mp (mem_branch.mp has)
    have hsends := h _ (List.mem_map_of_mem hs)
    rw [hrest, hmode, bne_self_eq_false] at hsends
    cases hsends
  · intro h t ht
    obtain ⟨s, hs, rfl⟩ := List.mem_map.mp ht
    rcases hrest : s.rest active path with _ | _ | ⟨c, cs⟩
    · rfl
    · rfl
    · rw [hmode, bne_iff_ne]
      rintro rfl
      exact h cs (mem_branch.mpr (mem_behind_addresses.mpr ⟨s, hs, hrest⟩))

theorem readBit_searchBit : (bus.within active .searchBit path).readBit =
    (decide (branch false (behind path (bus.addresses active)) = []),
      bus.within active .searchComplement path) := by
  rw [Bus.readBit, level_within .searchBit false fun _ c _ => (Bool.bne_false c).symm,
    Bus.writeBit, Bus.within, List.map_map]
  congr 1
  apply List.map_congr_left
  intro s hs
  exact Slave.slot_searchBit

theorem readBit_searchComplement : (bus.within active .searchComplement path).readBit =
    (decide (branch true (behind path (bus.addresses active)) = []),
      bus.within active .searchDirection path) := by
  rw [Bus.readBit, level_within .searchComplement true fun _ c _ => (Bool.bne_true c).symm,
    Bus.writeBit, Bus.within, List.map_map]
  congr 1
  apply List.map_congr_left
  intro s hs
  exact Slave.slot_searchComplement

theorem writeBit_searchDirection : (bus.within active .searchDirection path).writeBit b =
    bus.within active .searchBit (path ++ [b]) := by
  have hall : (bus.within active .searchDirection path).all Slave.sends = true := by
    rw [Bus.within, List.all_map, List.all_eq_true]
    intro s hs
    exact Slave.sends_searchDirection
  have hrest (s : Slave) : (s.rest active path).bind (strip b) = s.rest active (path ++ [b]) := by
    rw [Slave.rest, Slave.rest]
    split
    · exact stripAll_concat.symm
    · rfl
  rw [Bus.writeBit, Bus.level, hall, Bool.and_true, Bus.within, Bus.within, List.map_map]
  apply List.map_congr_left
  intro s hs
  rw [← hrest]
  exact Slave.slot_searchDirection

/-! ### The loop -/

/-- `search` before the bit `i`. -/
structure Pass.At (l : Pass) (i : Nat) : Prop where
  idBitNumber : l.idBitNumber = i + 1
  romByteNumber : l.romByteNumber = i / 8
  romByteMask : l.romByteMask = mask (i % 8)

/-- `LastDiscrepancy` as it is seen from the bit `i`. -/
def junctionAt (lastDiscrepancy i : Nat) : Option Nat :=
  if lastDiscrepancy ≤ i then none else some (lastDiscrepancy - (i + 1))

/-- `last_zero` of what is pending from the bit `i` on. -/
def zeroAt (i lastZero : Nat) (o : Option Nat) : Nat := o.elim lastZero fun k => i + k + 1

/-- The search has come along a path, which is in `ROM_NO`, with `prev` behind it. -/
structure Along (bus : Bus) (active : Chip → Bool) (path prev : List Bool) (romNo : List UInt8)
    (now : Bus) : Prop where
  length : romNo.length = 8
  bits : bytesBits romNo = path ++ prev
  bus : now = bus.within active .searchBit path

variable {w w' : OneWire} {l l' : Pass} {lastDiscrepancy lastZero : Nat}
  {prev : List Bool} {now : Bus}

theorem mask_shift : ∀ k < 7, mask k <<< 1 = mask (k + 1) := by decide

theorem mask_ne_zero : ∀ k < 8, mask k ≠ 0 := by decide

theorem Pass.At.next (H : l.At i) : l.next.At (i + 1) := by
  have hlt : i % 8 < 8 := Nat.mod_lt _ (by decide)
  rcases Nat.lt_or_ge (i % 8) 7 with h | h
  · have hshift : l.romByteMask <<< 1 = mask (i % 8 + 1) := by rw [H.romByteMask, mask_shift _ h]
    have hnext : l.next =
        { l with idBitNumber := l.idBitNumber + 1, romByteMask := mask (i % 8 + 1) } := by
      rw [Pass.next, hshift]
      exact if_neg (mask_ne_zero _ (by omega))
    rw [hnext]
    refine ⟨congrArg (· + 1) H.idBitNumber, ?_, ?_⟩
    · rw [H.romByteNumber]
      omega
    · have hmod : (i + 1) % 8 = i % 8 + 1 := by omega
      rw [hmod]
  · have hseven : i % 8 = 7 := by omega
    have hshift : l.romByteMask <<< 1 = 0 := by rw [H.romByteMask, hseven]; rfl
    have hnext : l.next = ⟨l.idBitNumber + 1, l.lastZero, l.romByteNumber + 1, 1⟩ := by
      rw [Pass.next, hshift]
      exact if_pos rfl
    rw [hnext]
    refine ⟨congrArg (· + 1) H.idBitNumber, ?_, ?_⟩
    · have hbyte : l.romByteNumber + 1 = (i + 1) / 8 := by
        rw [H.romByteNumber]
        omega
      exact hbyte
    · have hmod : (i + 1) % 8 = 0 := by omega
      rw [hmod]
      rfl

theorem Pass.lastZero_next : l.next.lastZero = l.lastZero := by
  rw [Pass.next]
  split <;> rfl

theorem approach_junctionAt :
    approach (junctionAt lastDiscrepancy i) = junctionAt lastDiscrepancy (i + 1) := by
  rw [junctionAt, junctionAt]
  rcases Nat.lt_trichotomy lastDiscrepancy (i + 1) with h | h | h
  · rw [if_pos (by omega), if_pos (by omega)]
    rfl
  · rw [if_neg (by omega), if_pos (by omega), h, Nat.sub_self]
    rfl
  · obtain ⟨k, rfl⟩ := Nat.exists_eq_add_of_lt h
    have hsub : i + 1 + k + 1 - (i + 1) = k + 1 := by omega
    have hsub' : i + 1 + k + 1 - (i + 1 + 1) = k := by omega
    rw [if_neg (by omega), if_neg (by omega), hsub, hsub', approach]

theorem zeroAt_pending : zeroAt i lastZero (pending (b :: as) ds) =
    zeroAt (i + 1) (if b = false ∧ branch true ds ≠ [] then i + 1 else lastZero)
      (pending as (branch b ds)) := by
  have hpos : (fun k => i + (k + 1) + 1) = fun k => i + 1 + k + 1 := by
    funext k
    omega
  rw [zeroAt, pending_elim, hpos, zeroAt]

/-- The direction of the code is the way of the walk. -/
theorem searchDirection_eq (H : l.At i) (hds : branch b ds ≠ []) :
    w.searchDirection l (decide (branch false ds = [])) (decide (branch true ds = [])) =
      choose (junctionAt w.lastDiscrepancy i) ((bytesBits w.romNo).getD i false) ds := by
  have hturn : (if l.idBitNumber < w.lastDiscrepancy then
        decide (w.romNo.getD l.romByteNumber 0 &&& l.romByteMask > 0)
      else l.idBitNumber == w.lastDiscrepancy) =
      turn (junctionAt w.lastDiscrepancy i) ((bytesBits w.romNo).getD i false) := by
    rw [H.idBitNumber, H.romByteNumber, H.romByteMask, junctionAt]
    rcases Nat.lt_trichotomy w.lastDiscrepancy (i + 1) with h | h | h
    · rw [if_neg (by omega), if_pos (by omega)]
      exact beq_eq_false_iff_ne.mpr (Nat.ne_of_gt h)
    · rw [if_neg (by omega), if_neg (by omega), h, Nat.sub_self, beq_self_eq_true]
      rfl
    · obtain ⟨k, hk⟩ := Nat.exists_eq_add_of_lt h
      have hsub : w.lastDiscrepancy - (i + 1) = k + 1 := by omega
      have hbit : decide (w.romNo.getD (i / 8) 0 &&& mask (i % 8) > 0) =
          (bytesBits w.romNo).getD i false := by
        rw [Bool.eq_iff_iff, decide_eq_true_iff]
        exact getD_and_mask_pos
      rw [if_pos h, if_neg (by omega), hsub, turn]
      exact hbit
  rw [searchDirection, hturn, choose]
  by_cases ht : branch true ds = []
  · have hf : branch false ds ≠ [] := by
      cases b with
      | false => exact hds
      | true => exact absurd ht hds
    simp [ht, hf]
  · by_cases hf : branch false ds = []
    · simp [ht, hf]
    · simp [ht, hf]

theorem Along.length_prev (A : Along bus active path prev romNo now) :
    path.length + prev.length = 64 := by
  have hlen := congrArg List.length A.bits
  rw [length_bytesBits, A.length, List.length_append] at hlen
  exact hlen.symm

theorem Along.getD (A : Along bus active path prev romNo now) :
    (bytesBits romNo).getD path.length false = prev.headD false := by
  rw [A.bits, List.getD_append_right _ _ _ _ (Nat.le_refl _), Nat.sub_self]
  cases prev <;> rfl

/-- A bit that is taken moves from `prev` to the path. -/
theorem Along.take (A : Along bus active path prev romNo now) (hprev : prev ≠ []) (b : Bool) :
    Along bus active (path ++ [b]) prev.tail
      (romNo.modify (path.length / 8) fun v =>
        if b then v ||| mask (path.length % 8) else v &&& ~~~mask (path.length % 8))
      ((bus.within active .searchDirection path).writeBit b) := by
  have hlt : path.length < 8 * romNo.length := by
    have hlen := A.length_prev
    have hpos := List.length_pos_of_ne_nil hprev
    rw [A.length]
    omega
  constructor
  · rw [List.length_modify]
    exact A.length
  · rw [bytesBits_modify hlt, A.bits, List.set_append_right _ _ (Nat.le_refl _), Nat.sub_self]
    cases prev with
    | nil => exact absurd rfl hprev
    | cons p prev => rw [List.set_cons_zero, List.append_assoc]; rfl
  · exact writeBit_searchDirection

/-- What one pass of the loop does where there is an address left. -/
theorem searchLoop_succ (A : Along bus active path prev w.romNo w.bus) (H : l.At path.length)
    (hprev : prev ≠ []) (hb : choose (junctionAt w.lastDiscrepancy path.length) (prev.headD false)
      (behind path (bus.addresses active)) = b)
    (hds : branch b (behind path (bus.addresses active)) ≠ []) :
    ∃ w' l', searchLoop (n + 1) w l =
        (if l'.romByteNumber < 8 then searchLoop n w' l' else (w', l')) ∧
      Along bus active (path ++ [b]) prev.tail w'.romNo w'.bus ∧
      w'.lastDiscrepancy = w.lastDiscrepancy ∧
      l'.At (path.length + 1) ∧ l'.lastZero =
        if b = false ∧ branch true (behind path (bus.addresses active)) ≠ [] then path.length + 1
        else l.lastZero := by
  let w₁ : OneWire := { w with bus := bus.within active .searchDirection path }
  have hnone : ¬(decide (branch false (behind path (bus.addresses active)) = []) &&
      decide (branch true (behind path (bus.addresses active)) = [])) := by
    cases b <;> simp [hds]
  have hprevBit : (bytesBits w₁.romNo).getD path.length false = prev.headD false := A.getD
  have hdir : w₁.searchDirection l (decide (branch false (behind path (bus.addresses active)) = []))
      (decide (branch true (behind path (bus.addresses active)) = [])) = b := by
    rw [searchDirection_eq H hds, hprevBit]
    exact hb
  rw [searchLoop, A.bus, readBit_searchBit]
  dsimp only
  rw [readBit_searchComplement]
  dsimp only
  rw [if_neg hnone, hdir]
  refine ⟨_, _, rfl, ?_, ?_, ?_, ?_⟩
  · have htake := A.take hprev b
    rw [← H.romByteNumber, ← H.romByteMask] at htake
    split <;> exact htake
  · split <;> rfl
  · split
    · exact Pass.At.next ⟨H.idBitNumber, H.romByteNumber, H.romByteMask⟩
    · exact H.next
  · rw [Pass.lastZero_next, ← H.idBitNumber]
    cases b with
    | true => simp
    | false =>
      by_cases ht : branch true (behind path (bus.addresses active)) = [] <;> simp [ht, hds]

/-- The loop takes the walk to its end. -/
theorem searchLoop_eq (U : Uniform 64 (bus.addresses active))
    (A : Along bus active path prev w.romNo w.bus) (H : l.At path.length)
    (hn : path.length + n = 64)
    (hds : behind path (bus.addresses active) ≠ [])
    (has : walk n (junctionAt w.lastDiscrepancy path.length) prev
      (behind path (bus.addresses active)) = as) :
    ∃ w' l', searchLoop n w l = (w', l') ∧ Along bus active (path ++ as) [] w'.romNo w'.bus ∧
      l'.idBitNumber = 65 ∧ l'.lastZero =
        zeroAt path.length l.lastZero (pending as (behind path (bus.addresses active))) := by
  induction n generalizing path prev w l as with
  | zero =>
    have hprev : prev = [] := List.eq_nil_of_length_eq_zero (by have := A.length_prev; omega)
    rw [hprev] at A
    rw [← has, walk, List.append_nil]
    exact ⟨w, l, rfl, A, by rw [H.idBitNumber]; omega, rfl⟩
  | succ n ih =>
    have hprev : prev ≠ [] := List.ne_nil_of_length_pos (by have := A.length_prev; omega)
    rw [walk] at has
    generalize hb : choose (junctionAt w.lastDiscrepancy path.length) (prev.headD false)
      (behind path (bus.addresses active)) = b at has
    have hbranch : branch b (behind path (bus.addresses active)) ≠ [] := by
      rw [← hb]
      exact branch_choose_ne_nil (Uniform.behind (hn ▸ U)) hds
    obtain ⟨w₁, l₁, hloop, A₁, hlast, H₁, hzero₁⟩ := searchLoop_succ (n := n) A H hprev hb hbranch
    have hpath : path.length + 1 = (path ++ [b]).length := by
      rw [List.length_append, List.length_singleton]
    rw [hpath] at H₁
    rw [approach_junctionAt, hpath, ← hlast, branch_behind] at has
    rw [branch_behind] at hbranch
    obtain ⟨w', l', hrest, A', hend, hzero⟩ := ih A₁ H₁ (by omega) hbranch rfl
    have hstep : searchLoop (n + 1) w l = searchLoop n w₁ l₁ := by
      rw [hloop]
      split
      · rfl
      · next hdone =>
        have hnil : n = 0 := by rw [H₁.romByteNumber] at hdone; omega
        rw [hnil]
        rfl
    rw [List.append_assoc] at A'
    refine ⟨w', l', hstep.trans hrest, ?_, hend, ?_⟩
    · rw [← has]
      exact A'
    · rw [hzero, hzero₁, ← has, zeroAt_pending, branch_behind, branch_behind, hpath]

/-! ### One search -/

/-- The slaves that take part in a search. -/
def searched (searchMode : Bool) (c : Chip) : Bool := searchMode || c.alarm

theorem Slave.within_searchBit_address :
    s.within .searchBit (some s.chip.address) = s.toMode (.searchBit s.chip.address) := by
  cases h : s.chip.address with
  | nil => exact absurd h Chip.address_ne_nil
  | cons b rest => rfl

theorem write_search {searchMode : Bool} :
    bus.reset.2.write (if searchMode then 0xF0 else 0xEC) =
      bus.within (searched searchMode) .searchBit [] := by
  rw [Bus.write_romCommand]
  apply List.map_congr_left
  intro s hs
  cases searchMode with
  | true => exact Slave.within_searchBit_address.symm
  | false =>
    have hcommand : s.onRomCommand 0xEC =
      s.toMode (if s.chip.alarm then .searchBit s.chip.address else .idle) := rfl
    have hsearched : searched false s.chip = s.chip.alarm := Bool.false_or _
    rw [if_neg Bool.false_ne_true, hcommand, Slave.rest, hsearched]
    split
    · exact Slave.within_searchBit_address.symm
    · rfl

theorem uniform_addresses : Uniform 64 (bus.addresses active) := by
  intro as has
  obtain ⟨c, -, rfl⟩ := List.mem_map.mp has
  exact Chip.length_address

theorem Slave.chip_within {mode : List Bool → Mode} : (s.within mode o).chip = s.chip := by
  rcases o with _ | _ | _ <;> rfl

theorem chips_within {mode : List Bool → Mode} :
    (bus.within active mode path).chips = bus.chips := by
  rw [Bus.chips, Bus.within, List.map_map]
  apply List.map_congr_left
  intro s hs
  exact Slave.chip_within

/-- The address in `ROM_NO` is that of a chip. -/
theorem eq_rom_of_mem (hlen : romNo.length = 8) (h : bytesBits romNo ∈ bus.addresses active) :
    ∃ c ∈ bus.chips, active c ∧ romNo = c.rom.toList := by
  obtain ⟨c, hc, haddress⟩ := List.mem_map.mp h
  rw [List.mem_filter] at hc
  refine ⟨c, hc.1, hc.2, ?_⟩
  apply bytesBits_injective
  · rw [hlen, Vector.length_toList]
  · exact haddress.symm

theorem reset_of_addresses (hds : bus.addresses active ≠ []) : bus.reset = (true, bus.reset.2) := by
  cases bus with
  | nil => exact absurd rfl hds
  | cons s bus => rfl

/-- Nobody answers. -/
theorem searchLoop_eq_none (hds : bus.addresses active = [])
    (hbus : w.bus = bus.within active .searchBit []) :
    searchLoop (n + 1) w l = ({ w with bus := bus.within active .searchDirection [] }, l) := by
  have hbranch (b : Bool) : branch b (behind [] (bus.addresses active)) = [] := by
    rw [hds]
    rfl
  rw [searchLoop, hbus, readBit_searchBit]
  dsimp only
  rw [readBit_searchComplement, hbranch, hbranch]
  exact if_pos rfl

/-- `search` where no slave takes part. -/
theorem search_eq_none {searchMode : Bool} (hflag : w.lastDeviceFlag = false)
    (hds : w.bus.addresses (searched searchMode) = []) :
    ∃ bus, w.search searchMode = (none, { w with bus }.resetCounters) ∧
      bus.chips = w.bus.chips := by
  rw [search, if_neg (by rw [hflag]; exact Bool.false_ne_true)]
  cases hbus : w.bus with
  | nil => exact ⟨[], rfl, rfl⟩
  | cons s bus =>
    have hreset : Bus.reset (s :: bus) = (true, (Bus.reset (s :: bus)).2) := rfl
    rw [hbus] at hds
    rw [hreset]
    dsimp only
    rw [write_search, searchLoop_eq_none hds rfl]
    exact ⟨_, rfl, chips_within⟩

/-- `search` where an address is left. -/
theorem search_eq_some {searchMode : Bool} (hflag : w.lastDeviceFlag = false)
    (hlen : w.romNo.length = 8) (hds : w.bus.addresses (searched searchMode) ≠ [])
    (hfamily : ∀ c ∈ w.bus.chips, c.family ≠ 0)
    (has : walk 64 (junctionAt w.lastDiscrepancy 0) (bytesBits w.romNo)
      (w.bus.addresses (searched searchMode)) = as) :
    ∃ w', w.search searchMode = (some w'.romNo, w') ∧ w'.romNo.length = 8 ∧
      bytesBits w'.romNo = as ∧
      w'.bus.chips = w.bus.chips ∧
      w'.lastDiscrepancy = zeroAt 0 0 (pending as (w.bus.addresses (searched searchMode))) ∧
      w'.lastDeviceFlag = (w'.lastDiscrepancy == 0) := by
  let w₁ : OneWire := { w with bus := w.bus.within (searched searchMode) .searchBit [] }
  have A : Along w.bus (searched searchMode) [] (bytesBits w.romNo) w₁.romNo w₁.bus :=
    ⟨hlen, rfl, rfl⟩
  have hbehind : behind [] (w.bus.addresses (searched searchMode)) =
      w.bus.addresses (searched searchMode) := behind_nil
  rw [← hbehind] at hds has
  obtain ⟨w', l', hloop, A', hend, hzero⟩ :=
    searchLoop_eq (l := {}) uniform_addresses A ⟨rfl, rfl, rfl⟩ rfl hds has
  rw [hbehind] at hds has hzero
  rw [List.nil_append] at A'
  have hbits : bytesBits w'.romNo = as := by rw [A'.bits, List.append_nil]
  have hmem : bytesBits w'.romNo ∈ w.bus.addresses (searched searchMode) := by
    rw [hbits, ← has]
    exact walk_mem uniform_addresses hds
  obtain ⟨c, hc, -, hrom⟩ := eq_rom_of_mem A'.length hmem
  have hfound : w'.romNo.getD 0 0 ≠ 0 := by
    rw [hrom, Chip.rom_eq_cons]
    exact hfamily c hc
  have hlast : ¬l'.idBitNumber < 65 := by rw [hend]; exact Nat.lt_irrefl _
  refine ⟨{ w' with lastDiscrepancy := l'.lastZero, lastDeviceFlag := l'.lastZero == 0 }, ?_,
    A'.length, hbits, ?_, hzero, rfl⟩
  · rw [search, if_neg (by rw [hflag]; exact Bool.false_ne_true), reset_of_addresses hds]
    dsimp only
    rw [write_search, hloop]
    dsimp only
    rw [if_neg hlast, if_neg hfound]
    rfl
  · rw [A'.bus]
    exact chips_within

/-- After `target_search` a device of the family is found, if one takes part. -/
theorem search_targetSearch {searchMode : Bool} {familyCode : UInt8}
    (hfamily : ∀ c ∈ w.bus.chips, c.family ≠ 0)
    (hsome : ∃ c ∈ w.bus.chips, (searchMode ∨ c.alarm) ∧ c.family = familyCode) :
    ∃ c ∈ w.bus.chips, (searchMode ∨ c.alarm) ∧ c.family = familyCode ∧
      ((w.targetSearch familyCode).search searchMode).1 = some c.rom.toList := by
  have hcons (c : Chip) : ∃ bs, c.address = byteBits c.family ++ bs := by
    refine ⟨bytesBits c.rom.toList.tail, ?_⟩
    rw [Chip.address, Chip.rom_eq_cons]
    rfl
  obtain ⟨c, hc, hactive, rfl⟩ := hsome
  have hmem : c.address ∈ w.bus.addresses (searched searchMode) := by
    apply List.mem_map_of_mem
    rw [List.mem_filter, searched, Bool.or_eq_true]
    exact ⟨hc, hactive⟩
  have hds := List.ne_nil_of_mem hmem
  have hbehind : behind (byteBits c.family) (w.bus.addresses (searched searchMode)) ≠ [] := by
    obtain ⟨bs, hbs⟩ := hcons c
    rw [hbs] at hmem
    exact List.ne_nil_of_mem (mem_behind.mpr hmem)
  obtain ⟨w', hsearch, hlen, hbits, hchips, -, -⟩ :=
    search_eq_some (w := w.targetSearch c.family) rfl rfl hds hfamily rfl
  obtain ⟨bs, hbs⟩ := walk_start (n := 56) (k := 63) (bytesBits (List.replicate 7 0)) hbehind
    (by rw [length_byteBits]; decide)
  have hwalk : bytesBits w'.romNo = byteBits c.family ++ bs := by
    rw [length_byteBits] at hbs
    exact hbits.trans hbs
  have hmem' : bytesBits w'.romNo ∈ w.bus.addresses (searched searchMode) := by
    rw [hbits]
    exact walk_mem uniform_addresses hds
  obtain ⟨c', hc', hactive', hrom⟩ := eq_rom_of_mem hlen hmem'
  rw [searched, Bool.or_eq_true] at hactive'
  refine ⟨c', hc', hactive', ?_, ?_⟩
  · obtain ⟨bs', hbs'⟩ := hcons c'
    have hstart : byteBits c'.family ++ bs' = byteBits c.family ++ bs := by
      rw [← hbs', ← hwalk, hrom]
      rfl
    apply byteBits_injective
    exact (List.append_inj hstart (by rw [length_byteBits, length_byteBits])).1
  · rw [hsearch, hrom]

theorem search_targetSearch_two :
    let w : OneWire := ⟨[], 0, 0, false, [⟨.ds18b20 7, .idle⟩, ⟨.ds18b20 5, .idle⟩]⟩
    ∃ c ∈ w.bus.chips, (true ∨ c.alarm) ∧ c.family = 0x28 ∧
      ((w.targetSearch 0x28).search true).1 = some c.rom.toList :=
  search_targetSearch (by decide) ⟨.ds18b20 7, by decide, by decide⟩

/-- The master between two searches, with the addresses that are still to come. -/
structure Upcoming (active : Chip → Bool) (addresses : List (List Bool)) (w : OneWire) : Prop where
  length : w.romNo.length = 8
  state :
    w.lastDiscrepancy = 0 ∧ w.lastDeviceFlag = false ∧
        Enumerates {as | as ∈ w.bus.addresses active} addresses ∨
      bytesBits w.romNo ∈ w.bus.addresses active ∧
        w.lastDiscrepancy = zeroAt 0 0 (pending (bytesBits w.romNo) (w.bus.addresses active)) ∧
        w.lastDeviceFlag = (w.lastDiscrepancy == 0) ∧
        Enumerates {as | as ∈ w.bus.addresses active ∧ bytesBits w.romNo < as} addresses

variable {searchMode : Bool} {addresses : List (List Bool)}

theorem addresses_eq {bus' : Bus} (h : bus'.chips = bus.chips) :
    bus'.addresses active = bus.addresses active := by
  rw [Bus.addresses, h, Bus.addresses]

/-- What happens on the bus between two searches does not matter. -/
theorem Upcoming.withBus (H : Upcoming active addresses w) (h : bus.chips = w.bus.chips) :
    Upcoming active addresses { w with bus } := by
  refine ⟨H.length, ?_⟩
  rw [addresses_eq h]
  exact H.state

theorem junctionAt_zeroAt {o : Option Nat} : junctionAt (zeroAt 0 0 o) 0 = o := by
  cases o with
  | none => rfl
  | some k =>
    rw [zeroAt, Option.elim_some, Nat.zero_add]
    rfl

/-- A search that finds nothing more leaves the master ready for a first one. -/
theorem Upcoming.search_nil (H : Upcoming (searched searchMode) [] w) :
    ∃ bus, w.search searchMode = (none, { w with bus }.resetCounters) ∧
      bus.chips = w.bus.chips := by
  rcases H.state with ⟨-, hflag, E⟩ | ⟨hmem, hlast, hflag, E⟩
  · apply search_eq_none hflag
    apply List.eq_nil_iff_forall_not_mem.mpr
    exact fun as has => E.eq_empty has
  · rw [hlast, E.pending_eq_none uniform_addresses hmem] at hflag
    have hflag : w.lastDeviceFlag = true := hflag
    exact ⟨w.bus, by rw [search, if_pos hflag], rfl⟩

/-- A search finds the next address. -/
theorem Upcoming.search_cons (H : Upcoming (searched searchMode) (as :: addresses) w)
    (hfamily : ∀ c ∈ w.bus.chips, c.family ≠ 0) :
    ∃ w', w.search searchMode = (some w'.romNo, w') ∧ bytesBits w'.romNo = as ∧
      w'.bus.chips = w.bus.chips ∧ Upcoming (searched searchMode) addresses w' := by
  have hmem : as ∈ w.bus.addresses (searched searchMode) := by
    rcases H.state with ⟨-, -, E⟩ | ⟨-, -, -, E⟩
    · exact E.isLeast.1
    · exact E.isLeast.1.1
  have hds := List.ne_nil_of_mem hmem
  have hnext : w.lastDeviceFlag = false ∧ walk 64 (junctionAt w.lastDiscrepancy 0)
      (bytesBits w.romNo) (w.bus.addresses (searched searchMode)) = as := by
    rcases H.state with ⟨hlast, hflag, E⟩ | ⟨hprev, hlast, hflag, E⟩
    · rw [hlast]
      exact ⟨hflag, E.walk_first uniform_addresses _⟩
    · obtain ⟨k, hk, hwalk⟩ := E.walk_next uniform_addresses hprev
      rw [hlast, hk] at hflag
      rw [hlast, junctionAt_zeroAt, hk]
      exact ⟨hflag, hwalk⟩
  have hrest :
      Enumerates {cs | cs ∈ w.bus.addresses (searched searchMode) ∧ as < cs} addresses := by
    rcases H.state with ⟨-, -, E⟩ | ⟨-, -, -, E⟩
    · exact E.tail
    · exact E.tail_lt
  obtain ⟨w', hsearch, hlen, hbits, hchips, hlast, hflag⟩ :=
    search_eq_some hnext.1 H.length hds hfamily hnext.2
  refine ⟨w', hsearch, hbits, hchips, hlen, .inr ?_⟩
  rw [addresses_eq hchips, hbits]
  exact ⟨hmem, hlast, hflag, hrest⟩

/-- `while (search(addr))` from the state of the master on, `none` when `n` calls are too few. -/
def searchAll (searchMode : Bool) : Nat → OneWire → Option (List (List UInt8) × OneWire)
  | 0, _ => none
  | n + 1, w =>
    match w.search searchMode with
    | (none, w) => some ([], w)
    | (some rom, w) => (searchAll searchMode n w).map fun (roms, w) => (rom :: roms, w)

theorem Upcoming.searchAll (H : Upcoming (searched searchMode) addresses w)
    (hfamily : ∀ c ∈ w.bus.chips, c.family ≠ 0) :
    ∃ roms w', (∀ n > addresses.length, w.searchAll searchMode n = some (roms, w')) ∧
      roms.map bytesBits = addresses ∧ w'.bus.chips = w.bus.chips ∧ w'.lastDiscrepancy = 0 ∧
      w'.lastDeviceFlag = false := by
  induction addresses generalizing w with
  | nil =>
    obtain ⟨bus, hsearch, hchips⟩ := H.search_nil
    refine ⟨[], { w with bus }.resetCounters, fun n hn => ?_, rfl, hchips, rfl, rfl⟩
    obtain ⟨n, rfl⟩ := Nat.exists_eq_add_one.mpr hn
    rw [OneWire.searchAll, hsearch]
  | cons as addresses ih =>
    obtain ⟨w₁, hsearch, hbits, hchips, H₁⟩ := H.search_cons hfamily
    rw [← hchips] at hfamily
    obtain ⟨roms, w', hall, hroms, hchips', hlast⟩ := ih H₁ hfamily
    refine ⟨w₁.romNo :: roms, w', fun n hn => ?_, ?_, hchips'.trans hchips, hlast⟩
    · obtain ⟨n, rfl⟩ := Nat.exists_eq_add_one.mpr (Nat.zero_lt_of_lt hn)
      rw [OneWire.searchAll, hsearch]
      dsimp only
      rw [hall n (Nat.lt_of_succ_lt_succ hn)]
      rfl
    · rw [List.map_cons, hbits, hroms]

theorem upcoming_resetSearch (active : Chip → Bool) (w : OneWire) :
    ∃ addresses, Enumerates {as | as ∈ w.bus.addresses active} addresses ∧
      Upcoming active addresses w.resetSearch := by
  obtain ⟨addresses, E⟩ := exists_enumerates (w.bus.addresses active)
  exact ⟨addresses, E, rfl, .inl ⟨rfl, rfl, E⟩⟩

end OneWire

end D1Mini
