import D1Mini.OneWire.Bus

/-!
# The dialogue with one slave

After `select` only the slave that is meant hears what follows. What a function command does to its
chip is `Bus.update`, and no other chip changes.
-/

namespace D1Mini.OneWire
open BitTree

def Chip.meant (rom : List UInt8) (c : Chip) : Bool := c.rom.toList = rom

namespace Bus

/-- What the slave that is meant does, while the others are out of the dialogue. -/
def addressed (rom : List UInt8) (f : Slave → Slave) (bus : Bus) : Bus :=
  bus.map fun s => if s.chip.meant rom then f s else s.toMode .idle

/-- A change of the chip that is meant. -/
def update (rom : List UInt8) (g : Chip → Chip) (bus : Bus) : Bus :=
  bus.map fun s => if s.chip.meant rom then { s with chip := g s.chip } else s

/-- A slave that still has some bits to send. -/
def sending : List Bool → Mode
  | [] => .idle
  | bits => .send bits

variable {bus : Bus} {rom bytes : List UInt8} {v : UInt8} {i : Nat} {bits rest : List Bool}
variable {b : Bool}
  {f f' : Slave → Slave} {g g' : Chip → Chip}

theorem meant_iff {c : Chip} (hlen : rom.length = 8) : c.meant rom ↔ c.address = bytesBits rom := by
  rw [Chip.meant, decide_eq_true_iff, Chip.address]
  constructor
  · exact congrArg bytesBits
  · exact bytesBits_injective (by rw [hlen, Vector.length_toList])

theorem select_eq (hlen : rom.length = 8) :
    select rom bus.reset.2 = bus.addressed rom (Slave.toMode (.function [])) := by
  have hbits : (bytesBits rom).length = 64 := by rw [length_bytesBits, hlen]
  have hmatch : write 0x55 bus.reset.2 =
      bus.map fun s => s.matchRom (stripAll [] s.chip.address) := by
    rw [write_romCommand]
    apply List.map_congr_left
    intro s hs
    exact (Slave.matchRom_some Chip.address_ne_nil).symm
  have hrun : writeBits (bytesBits rom) (bus.map fun s => s.matchRom (stripAll [] s.chip.address)) =
      bus.map fun s => s.matchRom (stripAll (bytesBits rom) s.chip.address) := by
    apply writeBits_map (f := fun pre s => s.matchRom (stripAll pre s.chip.address)) (n := 64)
    · rw [hbits]
      rfl
    · intro pre s hpre
      rw [← s.chip.length_address] at hpre
      rcases stripAll_of_lt hpre with h | ⟨b, bs, h⟩
      · rw [h]
        rfl
      · rw [h]
        rfl
    · intro pre b s hpre
      rw [← s.chip.length_address] at hpre
      rw [stripAll_concat]
      rcases stripAll_of_lt hpre with h | ⟨c, cs, h⟩
      · rw [h]
        rfl
      · rw [h, Option.bind_some]
        exact Slave.toMode_matchRom
  rw [select, foldl_write, hmatch, hrun]
  apply List.map_congr_left
  intro s hs
  rw [stripAll_of_length_eq (by rw [Chip.length_address, hbits])]
  by_cases h : s.chip.meant rom
  · rw [if_pos h, if_pos ((meant_iff hlen).mp h)]
    rfl
  · rw [if_neg h, if_neg fun heq => h ((meant_iff hlen).mpr heq)]
    rfl

/-! ### A byte for the slave that is meant -/

theorem write_addressed {hear : List Bool → Slave → Slave}
    (hsends : ∀ got s, got.length < 8 → (hear got s).sends = true)
    (hslot : ∀ got b s, got.length < 8 → (hear got s).slot b = hear (got ++ [b]) s) :
    write v (bus.addressed rom (hear [])) = bus.addressed rom (hear (byteBits v)) := by
  apply write_map (f := fun got s => if s.chip.meant rom then hear got s else s.toMode .idle)
  · intro got s hgot
    split
    · exact hsends got s hgot
    · rfl
  · intro got b s hgot
    split
    · exact hslot got b s hgot
    · rfl

theorem hearFunction_of_lt {got : List Bool} {s : Slave} (hgot : got.length < 8) :
    s.hearFunction got = s.toMode (.function got) := if_pos hgot

theorem hearFunction_byteBits : Slave.hearFunction (byteBits v) = fun s => s.onFunction v := by
  funext s
  rw [Slave.hearFunction, if_neg (Nat.not_lt_of_le length_byteBits.ge), byteOf_byteBits]

theorem write_function : write v (bus.addressed rom (Slave.toMode (.function []))) =
    bus.addressed rom (·.onFunction v) := by
  have hrun : write v (bus.addressed rom (Slave.hearFunction [])) =
      bus.addressed rom (Slave.hearFunction (byteBits v)) := by
    apply write_addressed
    · intro got s hgot
      rw [hearFunction_of_lt hgot]
      rfl
    · intro got b s hgot
      rw [hearFunction_of_lt hgot]
      rfl
  rw [hearFunction_byteBits] at hrun
  exact hrun

/-- After `skip` every slave is meant. -/
theorem write_skip : write v bus.reset.2.skip = bus.map (·.onFunction v) := by
  have hskip : bus.reset.2.skip = bus.map (Slave.hearFunction []) := write_romCommand
  have hrun : write v (bus.map (Slave.hearFunction [])) =
      bus.map (Slave.hearFunction (byteBits v)) := by
    apply write_map
    · intro got s hgot
      rw [hearFunction_of_lt hgot]
      rfl
    · intro got b s hgot
      rw [hearFunction_of_lt hgot]
      rfl
  rw [hskip, hrun, hearFunction_byteBits]

theorem addressed_update (hg : ∀ c, (g c).rom = c.rom) :
    (bus.update rom g).addressed rom f =
      bus.addressed rom fun s => f { s with chip := g s.chip } := by
  rw [addressed, update, List.map_map]
  apply List.map_congr_left
  intro s hs
  have hmeant : (g s.chip).meant rom = s.chip.meant rom := by rw [Chip.meant, hg, Chip.meant]
  by_cases h : s.chip.meant rom
  · simp [h, hmeant]
  · simp [h]

theorem addressed_congr (h : ∀ s ∈ bus, s.chip.meant rom → f s = f' s) :
    bus.addressed rom f = bus.addressed rom f' := by
  apply List.map_congr_left
  intro s hs
  split
  · next hmeant => exact h s hs hmeant
  · rfl

theorem reset_addressed (hf : ∀ s, (f s).chip = g s.chip) :
    (bus.addressed rom f).reset = (bus.update rom g).reset := by
  have hempty : (bus.addressed rom f).isEmpty = (bus.update rom g).isEmpty := by
    rw [addressed, update, List.isEmpty_map, List.isEmpty_map]
  rw [reset, reset, hempty, addressed, update, List.map_map, List.map_map]
  congr 1
  apply List.map_congr_left
  intro s hs
  by_cases h : s.chip.meant rom
  · simp [h, hf, Slave.toMode]
  · simp [h, Slave.toMode]

theorem update_id : bus.update rom (fun c => c) = bus := by
  rw [update]
  exact List.map_id'' (fun s => ite_self s) bus

theorem write_receive : write v (bus.addressed rom (Slave.toMode (.receive i []))) =
    (bus.update rom (·.receive i v)).addressed rom fun s =>
      s.toMode (if i + 1 < s.chip.receiveEnd then .receive (i + 1) [] else .idle) := by
  have hhear (got : List Bool) (s : Slave) (hgot : got.length < 8) :
      s.hearByte i got = s.toMode (.receive i got) := if_pos hgot
  have hrun : write v (bus.addressed rom (Slave.hearByte i [])) =
      bus.addressed rom (Slave.hearByte i (byteBits v)) := by
    apply write_addressed
    · intro got s hgot
      rw [hhear got s hgot]
      rfl
    · intro got b s hgot
      rw [hhear got s hgot]
      rfl
  have hlast (s : Slave) : s.hearByte i (byteBits v) =
      Slave.toMode (if i + 1 < s.chip.receiveEnd then .receive (i + 1) [] else .idle)
        { s with chip := s.chip.receive i v } := by
    rw [Slave.hearByte, if_neg (Nat.not_lt_of_le length_byteBits.ge), byteOf_byteBits]
    rfl
  rw [funext hlast] at hrun
  rw [addressed_update (g := fun c => c.receive i v) fun c => rfl]
  exact hrun

/-! ### What the slave that is meant sends -/

theorem sending_of_ne_nil (h : bits ≠ []) : sending bits = .send bits := by
  cases bits with
  | nil => exact absurd rfl h
  | cons b bits => rfl

theorem level_sending : level true (bus.addressed rom (Slave.toMode (sending (b :: bits)))) =
    (b || !bus.any (·.chip.meant rom)) := by
  rw [level, Bool.true_and, addressed, List.all_map]
  induction bus with
  | nil => exact (Bool.or_true b).symm
  | cons s bus ih =>
    rw [List.all_cons, ih, List.any_cons]
    by_cases h : s.chip.meant rom
    · have hsends : (s.toMode (sending (b :: bits))).sends = b := rfl
      cases b <;> simp [h, hsends]
    · have hsends : (s.toMode .idle).sends = true := rfl
      simp [h, hsends]

theorem readBit_sending : readBit (bus.addressed rom (Slave.toMode (sending (b :: bits)))) =
    (b || !bus.any (·.chip.meant rom), bus.addressed rom (Slave.toMode (sending bits))) := by
  rw [readBit, level_sending, writeBit, addressed, addressed, List.map_map]
  congr 1
  apply List.map_congr_left
  intro s hs
  by_cases h : s.chip.meant rom
  · cases bits <;> simp [h] <;> rfl
  · simp [h]
    rfl

/-- Bits that the slave sends. If there is none, the line stays high. -/
theorem readBits_sending :
    readBits bits.length (bus.addressed rom (Slave.toMode (sending (bits ++ rest)))) =
      (bits.map (· || !bus.any (·.chip.meant rom)),
        bus.addressed rom (Slave.toMode (sending rest))) := by
  induction bits with
  | nil => rfl
  | cons b bits ih =>
    rw [List.length_cons, readBits, List.cons_append, readBit_sending]
    dsimp only
    rw [ih]
    rfl

theorem read_sending : read (bus.addressed rom (Slave.toMode (sending (byteBits v ++ rest)))) =
    (if bus.any (·.chip.meant rom) then v else 0xFF,
      bus.addressed rom (Slave.toMode (sending rest))) := by
  have hbits : readBits 8 (bus.addressed rom (Slave.toMode (sending (byteBits v ++ rest)))) =
      ((byteBits v).map (· || !bus.any (·.chip.meant rom)),
        bus.addressed rom (Slave.toMode (sending rest))) := by
    rw [← length_byteBits (b := v)]
    exact readBits_sending
  rw [read, hbits]
  dsimp only
  congr 1
  cases bus.any (·.chip.meant rom) with
  | false =>
    have hhigh : (byteBits v).map (· || !false) = List.replicate 8 true := by
      rw [← length_byteBits (b := v), ← List.map_const']
      exact List.map_congr_left fun b _ => Bool.or_true b
    rw [hhigh]
    rfl
  | true =>
    have hsent : (byteBits v).map (· || !true) = byteBits v :=
      List.map_id'' Bool.or_false _
    rw [hsent, byteOf_byteBits]
    rfl

theorem readBytes_sending :
    readBytes bytes.length (bus.addressed rom (Slave.toMode (sending (bytesBits bytes)))) =
      (bytes.map fun v => if bus.any (·.chip.meant rom) then v else 0xFF,
        bus.addressed rom (Slave.toMode .idle)) := by
  induction bytes with
  | nil => rfl
  | cons v bytes ih =>
    have hbits : bytesBits (v :: bytes) = byteBits v ++ bytesBits bytes := rfl
    rw [List.length_cons, readBytes, hbits, read_sending]
    dsimp only
    rw [ih]
    rfl

end Bus

end D1Mini.OneWire
