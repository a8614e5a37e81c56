import D1Mini.Dallas.Settings

/-!
# The resolution of all devices in `DallasTemperature.cpp`

`setResolution` goes through the devices by their positions, with a search from the start for each
of them, and `bitResolution` is to be the greatest resolution on the bus.
-/

namespace D1Mini.DallasTemperature
open OneWire BitTree

/-- The loop of `setResolution` of all devices. What `getAddress` returns is not looked at, and the
address is what it has left. -/
def setResolutionLoop (n newResolution : Nat) :
    Nat → Nat → List UInt8 → DallasTemperature → Option DallasTemperature
  | 0, _, _, d => some d
  | k + 1, i, deviceAddress, d =>
    (getAddress n d.wire deviceAddress (.ofNat i)).bind fun (_, deviceAddress, wire) =>
      setResolutionLoop n newResolution k (i + 1) deviceAddress
        ({ d with wire }.setDeviceResolution deviceAddress newResolution).2

/-- `setResolution` of all devices. The array for the addresses is not initialised. -/
def setResolutionAll (n : Nat) (d : DallasTemperature) (deviceAddress : List UInt8)
    (newResolution : Nat) : Option DallasTemperature :=
  let d := { d with bitResolution := constrainResolution newResolution }
  setResolutionLoop n d.bitResolution d.devices 0 deviceAddress d

/-- The loop that looks for the greatest resolution. -/
def maxResolutionLoop (n : Nat) :
    Nat → Nat → List UInt8 → DallasTemperature → Option DallasTemperature
  | 0, _, _, d => some d
  | k + 1, i, deviceAddr, d =>
    if d.bitResolution = 12 then some d
    else
      (getAddress n d.wire deviceAddr (.ofNat i)).bind fun (_, deviceAddr, wire) =>
        let (b, bus) := getResolution deviceAddr wire.bus
        let d := { d with wire }.withBus bus
        maxResolutionLoop n k (i + 1) deviceAddr
          { d with bitResolution := if b > d.bitResolution then b else d.bitResolution }

/-- `setResolution` of a device. The resolution for a DS18S20 is taken as it is. -/
def setResolution (n : Nat) (d : DallasTemperature) (deviceAddress : List UInt8)
    (newResolution : Nat) (skipGlobalBitResolutionCalculation : Bool) (deviceAddr : List UInt8) :
    Option (Bool × DallasTemperature) :=
  let (success, d) := d.setDeviceResolution deviceAddress newResolution
  if skipGlobalBitResolutionCalculation then some (success, d)
  else
    let d := { d with bitResolution :=
      if deviceAddress.getD 0 0 = Chip.ds18s20Model then newResolution
      else constrainResolution newResolution }
    if d.devices > 1 then
      (maxResolutionLoop n d.devices 0 deviceAddr d).map fun d => (success, d)
    else some (success, d)

/-! ### Positions -/

variable {d d' : DallasTemperature} {c : Chip} {cs : List Chip} {n k i newResolution : Nat}
  {deviceAddress : List UInt8} {cmd : Command} {roms : List (Vector UInt8 8)}

/-- The addresses on the bus in order, all of them valid. -/
structure Positions (d : DallasTemperature) (roms : List (Vector UInt8 8)) : Prop where
  distinct : Distinct d.wire.bus
  family : ∀ c ∈ d.wire.bus.chips, c.family ≠ 0
  valid : ∀ c ∈ d.wire.bus.chips, valid c
  ordered : ∃ cs, Ordered d.wire.bus cs ∧ cs.map (·.rom) = roms

theorem Positions.of_chips (P : Positions d roms) (h : d'.wire.bus.chips = d.wire.bus.chips) :
    Positions d' roms := by
  obtain ⟨cs, O, hroms⟩ := P.ordered
  refine ⟨?_, ?_, ?_, cs, ⟨?_, O.2⟩, hroms⟩
  · rw [Distinct, h]; exact P.distinct
  · rw [h]; exact P.family
  · rw [h]; exact P.valid
  · rw [h]; exact O.1

theorem Positions.exec (P : Positions d roms) : Positions (d.exec cmd) roms := by
  obtain ⟨cs, O, hroms⟩ := P.ordered
  have hchips : (d.exec cmd).wire.bus.chips =
    d.wire.bus.chips.map (cmd.effect d.autoSaveScratchPad) := chips_exec P.distinct
  have hrom (c : Chip) : (cmd.effect d.autoSaveScratchPad c).rom = c.rom := rom_effect
  have hfamily (c : Chip) : (cmd.effect d.autoSaveScratchPad c).family = c.family := by
    rw [Chip.family, Chip.family, hrom]
  have haddress (c : Chip) : (cmd.effect d.autoSaveScratchPad c).address = c.address := by
    rw [Chip.address, hrom, Chip.address]
  refine ⟨distinct_exec P.distinct, ?_, ?_, cs.map (cmd.effect d.autoSaveScratchPad), ⟨?_, ?_⟩, ?_⟩
  · intro c' hc'
    rw [hchips] at hc'
    obtain ⟨c, hc, rfl⟩ := List.mem_map.mp hc'
    rw [hfamily]
    exact P.family c hc
  · intro c' hc'
    rw [hchips] at hc'
    obtain ⟨c, hc, rfl⟩ := List.mem_map.mp hc'
    rw [DallasTemperature.valid, hrom]
    exact P.valid c hc
  · rw [hchips]
    exact O.1.map _
  · have hsame : Chip.address ∘ cmd.effect d.autoSaveScratchPad = Chip.address := funext haddress
    rw [List.map_map, hsame]
    exact O.2
  · have hsame : (·.rom) ∘ cmd.effect d.autoSaveScratchPad = (·.rom) := funext hrom
    rw [List.map_map, hsame]
    exact hroms

theorem length_chips {bus : Bus} : bus.chips.length = bus.length := List.length_map _

/-- `getAddress` gives the address at a position. -/
theorem Positions.getAddress (P : Positions d roms) (deviceAddress : List UInt8)
    (hi : i < roms.length)
    (hlen : roms.length < 256) (hn : n > d.wire.bus.length) :
    ∃ wire, DallasTemperature.getAddress n d.wire deviceAddress (.ofNat i) =
      some (true, roms[i].toList, wire) ∧ wire.bus.chips = d.wire.bus.chips := by
  obtain ⟨cs, O, rfl⟩ := P.ordered
  rw [List.length_map] at hlen
  have hi' : i < cs.length := by rw [List.length_map] at hi; exact hi
  have hindex : (UInt8.ofNat i).toNat = i := UInt8.toNat_ofNat_of_lt (hi'.trans hlen)
  have hlt : UInt8.ofNat i < 255 := by
    have hmax : (255 : UInt8).toNat = 255 := rfl
    rw [UInt8.lt_iff_toNat_lt, hindex, hmax]
    omega
  obtain ⟨deviceAddress', wire, hchips, hget, hfound⟩ :=
    getAddress_eq O deviceAddress P.family hlt
  have hc : cs[i] ∈ d.wire.bus.chips := O.1.mem_iff.mp (List.getElem_mem hi')
  rw [hindex, List.getElem?_eq_getElem hi', Option.filter_some, P.valid _ hc, if_pos rfl]
    at hget hfound
  refine ⟨wire, ?_, hchips⟩
  rw [hget n hn, hfound _ rfl, List.getElem_map]
  rfl

/-! ### Every device -/

theorem devices_setDeviceResolution :
    (d.setDeviceResolution deviceAddress newResolution).2.devices = d.devices := by
  rw [setDeviceResolution]
  split
  · rfl
  · split <;> rfl

theorem bitResolution_setDeviceResolution :
    (d.setDeviceResolution deviceAddress newResolution).2.bitResolution = d.bitResolution := by
  rw [setDeviceResolution]
  split
  · rfl
  · split <;> rfl

theorem setResolutionLoop_eq (newResolution : Nat) (pre rest : List (Vector UInt8 8))
    (P : Positions d (pre ++ rest))
    (deviceAddress : List UInt8) (hlen : (pre ++ rest).length < 256) (hn : n > d.wire.bus.length) :
    ∃ d', setResolutionLoop n newResolution rest.length pre.length deviceAddress d = some d' ∧
      d'.bitResolution = d.bitResolution ∧
      d'.wire.bus.chips = d.wire.bus.chips.map fun c => rest.foldl
        (fun c rom => Command.effect d.autoSaveScratchPad (.setResolution rom newResolution) c)
        c := by
  induction rest generalizing pre d deviceAddress with
  | nil => exact ⟨d, rfl, rfl, (List.map_id' _).symm⟩
  | cons rom rest ih =>
    have hi : pre.length < (pre ++ rom :: rest).length := by
      rw [List.length_append, List.length_cons]
      omega
    obtain ⟨wire, hget, hchips⟩ := P.getAddress deviceAddress hi hlen hn
    have hrom : (pre ++ rom :: rest)[pre.length] = rom := List.getElem_of_append rfl rfl
    rw [hrom] at hget
    let d₁ : DallasTemperature := { d with wire }
    let cmd : Command := .setResolution rom newResolution
    have P₁ : Positions (d₁.exec cmd) ((pre ++ [rom]) ++ rest) := by
      rw [List.append_assoc]
      exact (P.of_chips hchips).exec
    have hchips₁ : (d₁.exec cmd).wire.bus.chips =
        d.wire.bus.chips.map (cmd.effect d.autoSaveScratchPad) := by
      rw [chips_exec (P.of_chips hchips).distinct, hchips]
    have hlen₁ : (pre ++ [rom] ++ rest).length < 256 := by
      rw [List.append_assoc]
      exact hlen
    have hn₁ : n > (d₁.exec cmd).wire.bus.length := by
      rw [← length_chips, hchips₁, List.length_map, length_chips]
      exact hn
    obtain ⟨d', hloop, hbit, hchips'⟩ := ih (pre ++ [rom]) P₁ rom.toList hlen₁ hn₁
    have hauto : (d₁.exec cmd).autoSaveScratchPad = d.autoSaveScratchPad := autoSaveScratchPad_exec
    refine ⟨d', ?_, ?_, ?_⟩
    · rw [List.length_cons, setResolutionLoop, hget, Option.bind_some]
      rw [List.length_append, List.length_singleton] at hloop
      exact hloop
    · rw [hbit]
      exact bitResolution_setDeviceResolution
    · rw [hchips', hauto, hchips₁, List.map_map]
      rfl

theorem effect_of_ne {rom : Vector UInt8 8} {autoSaveScratchPad : Bool} (h : c.rom ≠ rom) :
    Command.effect autoSaveScratchPad (.setResolution rom newResolution) c = c := by
  have hmeant : c.meant rom.toList = false :=
    decide_eq_false fun heq => h (Vector.toList_inj.mp heq)
  have htakes : Command.takes rom c = false := by rw [Command.takes, hmeant, Bool.false_and]
  rw [Command.effect]
  exact if_neg fun h => Bool.false_ne_true (htakes.symm.trans h.1)

/-- Each device is meant by its own command only. -/
theorem foldl_effect {autoSaveScratchPad : Bool} (hnodup : roms.Nodup) :
    roms.foldl (fun c rom =>
        Command.effect autoSaveScratchPad (.setResolution rom newResolution) c) c =
      if c.rom ∈ roms then Command.effect autoSaveScratchPad (.setResolution c.rom newResolution) c
      else c := by
  induction roms generalizing c with
  | nil => rfl
  | cons rom roms ih =>
    obtain ⟨hrom, hnodup⟩ := List.nodup_cons.mp hnodup
    rw [List.foldl_cons, ih hnodup, rom_effect]
    by_cases heq : c.rom = rom
    · rw [heq, if_neg hrom, if_pos List.mem_cons_self]
    · rw [effect_of_ne heq]
      simp only [List.mem_cons, heq, false_or]

theorem Positions.nodup (P : Positions d roms) : roms.Nodup := by
  obtain ⟨cs, O, rfl⟩ := P.ordered
  have hnodup : (d.wire.bus.chips.map (·.rom)).Nodup := P.distinct
  exact (O.1.map _).nodup_iff.mpr hnodup

theorem Positions.mem_iff (P : Positions d roms) {rom : Vector UInt8 8} :
    rom ∈ roms ↔ ∃ c ∈ d.wire.bus.chips, c.rom = rom := by
  obtain ⟨cs, O, rfl⟩ := P.ordered
  rw [List.mem_map]
  simp only [O.1.mem_iff]

theorem Positions.length (P : Positions d roms) : roms.length = d.wire.bus.length := by
  obtain ⟨cs, O, rfl⟩ := P.ordered
  rw [List.length_map, O.1.length_eq, length_chips]

theorem constrainResolution_cases (newResolution : Nat) :
    constrainResolution newResolution = 9 ∨ constrainResolution newResolution = 10 ∨
      constrainResolution newResolution = 11 ∨ constrainResolution newResolution = 12 := by
  rw [constrainResolution]
  split
  · exact .inl rfl
  · split
    · exact .inr (.inr (.inr rfl))
    · omega

theorem constrainResolution_self :
    constrainResolution (constrainResolution newResolution) =
      constrainResolution newResolution := by
  rcases constrainResolution_cases newResolution with h | h | h | h <;> rw [h] <;> rfl

/-- A device with a configuration register takes the resolution. -/
theorem resolution_effect {autoSaveScratchPad : Bool} (hcount : c.countPerC ≠ 0)
    (hmodel : c.family ≠ Chip.ds18s20Model) :
    resolution (Command.effect autoSaveScratchPad (.setResolution c.rom newResolution) c) =
      constrainResolution newResolution := by
  have heffect : ∃ c',
      Command.effect autoSaveScratchPad (.setResolution c.rom newResolution) c = c' ∧
      c'.family = c.family ∧ c'.countPerC = c.countPerC ∧
      c'.configuration = configurationOf (constrainResolution newResolution) := by
    refine ⟨_, rfl, ?_⟩
    rw [Command.effect]
    by_cases hstored : c.configuration = configurationOf (constrainResolution newResolution)
    · rw [if_neg fun h => h.2.2 hstored]
      exact ⟨rfl, rfl, hstored⟩
    · rw [if_pos ⟨takes_rom hcount, hmodel, hstored⟩, Chip.family, rom_saved]
      exact ⟨rfl, by simp, by simp⟩
  obtain ⟨c', heq, hfamily, hcount', hconfiguration⟩ := heffect
  rw [heq, resolution, hfamily, if_neg hmodel, blank_of_countPerC (hcount'.trans_ne hcount),
    hconfiguration]
  rcases constrainResolution_cases newResolution with h | h | h | h <;> rw [h] <;> rfl

theorem resolution_le : resolution c ≤ 12 := by
  rw [resolution]
  repeat' split
  all_goals decide

theorem foldl_max_of_le {r : Nat} {rs : List Nat} (h : ∀ x ∈ rs, x ≤ r) : rs.foldl max r = r := by
  induction rs with
  | nil => rfl
  | cons x rs ih =>
    rw [List.foldl_cons, Nat.max_eq_left (h x List.mem_cons_self)]
    exact ih fun y hy => h y (List.mem_cons_of_mem _ hy)

theorem maxResolutionLoop_eq (pre rest : List Chip) (D : Distinct d.wire.bus)
    (hfamily : ∀ c ∈ d.wire.bus.chips, c.family ≠ 0) (hvalid : ∀ c ∈ d.wire.bus.chips, valid c)
    (O : Ordered d.wire.bus (pre ++ rest)) (deviceAddr : List UInt8)
    (hlen : d.wire.bus.length < 256) (hn : n > d.wire.bus.length) :
    ∃ d', maxResolutionLoop n rest.length pre.length deviceAddr d = some d' ∧
      d'.bitResolution = (rest.map resolution).foldl max d.bitResolution ∧
      d'.wire.bus.chips = d.wire.bus.chips := by
  induction rest generalizing pre d deviceAddr with
  | nil => exact ⟨d, rfl, rfl, rfl⟩
  | cons c rest ih =>
    by_cases hmax : d.bitResolution = 12
    · refine ⟨d, ?_, ?_, rfl⟩
      · rw [List.length_cons, maxResolutionLoop, if_pos hmax]
      · rw [foldl_max_of_le]
        intro r hr
        obtain ⟨c, -, rfl⟩ := List.mem_map.mp hr
        rw [hmax]
        exact resolution_le
    · have hi : pre.length < ((pre ++ c :: rest).map (·.rom)).length := by
        rw [List.length_map, List.length_append, List.length_cons]
        omega
      have P : Positions d ((pre ++ c :: rest).map (·.rom)) := ⟨D, hfamily, hvalid, _, O, rfl⟩
      obtain ⟨wire, hget, hchips⟩ := P.getAddress deviceAddr hi (P.length.trans_lt hlen) hn
      have hrom : ((pre ++ c :: rest).map (·.rom))[pre.length] = c.rom := by
        rw [List.getElem_map, List.getElem_of_append rfl rfl]
      rw [hrom] at hget
      have hc : c ∈ wire.bus.chips := by
        rw [hchips]
        exact O.1.mem_iff.mp (List.mem_append_right _ List.mem_cons_self)
      have D' : Distinct wire.bus := by
        rw [Distinct, hchips]
        exact D
      obtain ⟨hb, hchips'⟩ := getResolution_eq D' hc
      let d₁ : DallasTemperature :=
        { { d with wire }.withBus (getResolution c.rom.toList wire.bus).2 with
          bitResolution := max d.bitResolution (resolution c) }
      have hsame : d₁.wire.bus.chips = d.wire.bus.chips := hchips'.trans hchips
      have hstep : maxResolutionLoop n (rest.length + 1) pre.length deviceAddr d =
          maxResolutionLoop n rest.length (pre.length + 1) c.rom.toList d₁ := by
        have hmax' : (if resolution c > d.bitResolution then resolution c else d.bitResolution) =
            max d.bitResolution (resolution c) := by
          split <;> omega
        rw [maxResolutionLoop, if_neg hmax, hget, Option.bind_some]
        dsimp only [withBus]
        rw [hb, hmax']
        rfl
      have O₁ : Ordered d₁.wire.bus ((pre ++ [c]) ++ rest) := by
        rw [List.append_assoc]
        exact ⟨O.1.trans (hsame ▸ .refl _), O.2⟩
      have hlength : d₁.wire.bus.length = d.wire.bus.length := by
        rw [← length_chips, ← length_chips]
        exact congrArg List.length hsame
      obtain ⟨d', hloop, hbit, hchips₂⟩ := ih (pre ++ [c]) (by rw [Distinct, hsame]; exact D)
        (by rw [hsame]; exact hfamily) (by rw [hsame]; exact hvalid) O₁ c.rom.toList
        (hlength.trans_lt hlen) (hn.trans_le' hlength.le)
      refine ⟨d', ?_, hbit, hchips₂.trans hsame⟩
      rw [List.length_cons, hstep]
      rw [List.length_append, List.length_singleton] at hloop
      exact hloop

theorem setResolution_of_devices {deviceAddr : List UInt8}
    (hmany : (d.setDeviceResolution deviceAddress newResolution).2.devices > 1) :
    d.setResolution n deviceAddress newResolution false deviceAddr =
      (maxResolutionLoop n (d.setDeviceResolution deviceAddress newResolution).2.devices 0
        deviceAddr
        { (d.setDeviceResolution deviceAddress newResolution).2 with
          bitResolution := if deviceAddress.getD 0 0 = Chip.ds18s20Model then newResolution
            else constrainResolution newResolution }).map
        fun d' => ((d.setDeviceResolution deviceAddress newResolution).1, d') := by
  rw [setResolution]
  dsimp only
  rw [if_neg Bool.false_ne_true, if_pos hmany]

end D1Mini.DallasTemperature
