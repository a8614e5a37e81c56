import D1Mini.Dallas.Temperature
import D1Mini.OneWire.Search

/-!
# The devices on the bus in `DallasTemperature.cpp`

The library knows a device by its position in the order of the addresses, which is the order of the
searches. `begin` counts the devices and looks at each of them between two searches.
-/

namespace D1Mini
open OneWire

/-- An object of the class. -/
structure DallasTemperature where
  wire : OneWire
  devices : Nat
  ds18Count : Nat
  parasite : Bool
  bitResolution : Nat
  autoSaveScratchPad : Bool
  alarmSearchAddress : List UInt8
  alarmSearchJunction : Int
  alarmSearchExhausted : Bool
deriving DecidableEq, Repr

namespace DallasTemperature
open BitTree

def validAddress (deviceAddress : List UInt8) : Bool :=
  crc8 (deviceAddress.take 7) == deviceAddress.getD 7 0

/-- DS18S20, DS18B20, DS1822, DS1825 and DS28EA00. -/
def validFamily (deviceAddress : List UInt8) : Bool :=
  [0x10, 0x28, 0x22, 0x3B, 0x42].contains (deviceAddress.getD 0 0)

def withBus (d : DallasTemperature) (bus : Bus) : DallasTemperature :=
  { d with wire := { d.wire with bus } }

/-- What `begin` does with a device of one of the families. -/
def inspect (d : DallasTemperature) (deviceAddress : List UInt8) : DallasTemperature :=
  let d := { d with ds18Count := (d.ds18Count + 1) % 256 }
  let d :=
    if d.parasite then d
    else
      let (parasite, bus) := readPowerSupply deviceAddress d.wire.bus
      { d.withBus bus with parasite }
  let (b, bus) := getResolution deviceAddress d.wire.bus
  { d.withBus bus with bitResolution := if b > d.bitResolution then b else d.bitResolution }

/-- What `begin` does with an address. -/
def register (d : DallasTemperature) (deviceAddress : List UInt8) : DallasTemperature :=
  if validAddress deviceAddress then
    let d := { d with devices := (d.devices + 1) % 256 }
    if validFamily deviceAddress then d.inspect deviceAddress else d
  else d

/-- The loop of `begin`, `none` when `n` searches are too few. -/
def beginLoop : Nat → DallasTemperature → Option DallasTemperature
  | 0, _ => none
  | n + 1, d =>
    match d.wire.search true with
    | (none, wire) => some { d with wire }
    | (some deviceAddress, wire) => beginLoop n ({ d with wire }.register deviceAddress)

def begin (n : Nat) (d : DallasTemperature) : Option DallasTemperature :=
  beginLoop n { d with wire := d.wire.resetSearch, devices := 0, ds18Count := 0 }

/-- The loop of `getAddress`: what it returns, and the address that it has left. -/
def getAddressLoop (index : UInt8) :
    Nat → UInt8 → List UInt8 → OneWire → Option (Bool × List UInt8 × OneWire)
  | 0, _, _, _ => none
  | n + 1, depth, deviceAddress, wire =>
    if depth ≤ index then
      match wire.search true with
      | (none, wire) => some (false, deviceAddress, wire)
      | (some deviceAddress, wire) =>
        if depth = index ∧ validAddress deviceAddress then some (true, deviceAddress, wire)
        else getAddressLoop index n (depth + 1) deviceAddress wire
    else some (false, deviceAddress, wire)

def getAddress (n : Nat) (wire : OneWire) (deviceAddress : List UInt8) (index : UInt8) :
    Option (Bool × List UInt8 × OneWire) :=
  getAddressLoop index n 0 deviceAddress wire.resetSearch

/-- Nothing is read from the array if `getAddress` returns false. -/
def getTempCByIndex (n : Nat) (wire : OneWire) (deviceIndex : UInt8) : Option Int :=
  (getAddress n wire [] deviceIndex).map fun
    | (false, _) => 128 * deviceDisconnectedC
    | (true, deviceAddress, wire) => (getTempC deviceAddress wire.bus).1

/-! ### The devices in order -/

variable {bus : Bus} {c : Chip} {cs cs' : List Chip} {wire : OneWire} {d d' d'' : DallasTemperature}
  {n : Nat} {index depth : UInt8}

/-- The devices in the order of their addresses. -/
def Ordered (bus : Bus) (cs : List Chip) : Prop :=
  cs.Perm bus.chips ∧ (cs.map Chip.address).Pairwise (· < ·)

theorem address_injective {c c' : Chip} (h : c.address = c'.address) : c.rom = c'.rom := by
  apply Vector.toList_inj.mp
  apply bytesBits_injective _ h
  rw [Vector.length_toList, Vector.length_toList]

theorem nodup_address (D : Distinct bus) : (bus.chips.map Chip.address).Nodup := by
  have hrom : (bus.chips.map (·.rom)).Nodup := D
  rw [List.nodup_iff_pairwise_ne, List.pairwise_map] at hrom ⊢
  exact hrom.imp fun hne h => hne (address_injective h)

theorem exists_ordered (D : Distinct bus) : ∃ cs, Ordered bus cs := by
  let r (a b : Chip) : Prop := a.address ≤ b.address
  have : Std.Total r := ⟨fun a b => le_total a.address b.address⟩
  have : IsTrans Chip r := ⟨fun a b c => le_trans⟩
  have hperm := List.perm_insertionSort r bus.chips
  have hnodup : ((bus.chips.insertionSort r).map Chip.address).Nodup :=
    (hperm.map _).nodup_iff.mpr (nodup_address D)
  refine ⟨bus.chips.insertionSort r, hperm, ?_⟩
  rw [List.nodup_iff_pairwise_ne, List.pairwise_map] at hnodup
  rw [List.pairwise_map]
  exact ((List.pairwise_insertionSort r bus.chips).and hnodup).imp fun h => lt_of_le_of_ne h.1 h.2

/-- After `reset_search` the devices are to come in order. -/
theorem Ordered.upcoming (O : Ordered wire.bus cs) :
    Upcoming (searched true) (cs.map Chip.address) wire.resetSearch := by
  refine ⟨rfl, .inl ⟨rfl, rfl, O.2, fun as => ?_⟩⟩
  have hall : wire.bus.addresses (searched true) = wire.bus.chips.map Chip.address := by
    have hfilter : wire.bus.chips.filter (searched true) = wire.bus.chips :=
      List.filter_eq_self.mpr fun c _ => rfl
    rw [Bus.addresses, hfilter]
  exact (O.1.map Chip.address).mem_iff.trans (by rw [← hall]; rfl)

theorem deviceAt_of_mem (D : Distinct bus) (hc : c ∈ bus.chips) :
    deviceAt bus c.rom.toList = some c := by
  cases hfind : bus.chips.find? (·.meant c.rom.toList) with
  | none => exact absurd (decide_eq_true rfl) (List.find?_eq_none.mp hfind c hc)
  | some c' =>
    have hmeant : c'.meant c.rom.toList := List.find?_some hfind
    have hmeant : c'.rom.toList = c.rom.toList := of_decide_eq_true hmeant
    have heq : c' = c := List.inj_on_of_nodup_map D (List.mem_of_find?_eq_some hfind) hc
      (Vector.toList_inj.mp hmeant)
    rw [← heq]
    exact (congrArg (deviceAt bus) hmeant.symm).symm.trans (heq ▸ hfind)

theorem romNo_eq (hlen : wire.romNo.length = 8) (hbits : bytesBits wire.romNo = c.address) :
    wire.romNo = c.rom.toList := by
  apply bytesBits_injective _ hbits
  rw [hlen, Vector.length_toList]

/-! ### What a device is asked for -/

/-- The resolution of a device. -/
def resolution (c : Chip) : Nat :=
  if c.family = Chip.ds18s20Model then 12
  else if blank c then 0
  else if c.configuration = 0x7F then 12
  else if c.configuration = 0x5F then 11
  else if c.configuration = 0x3F then 10
  else if c.configuration = 0x1F then 9
  else 0

theorem getD_rom : c.rom.toList.getD 0 0 = c.family := by
  rw [Chip.rom_eq_cons]
  rfl

theorem getResolution_eq (D : Distinct bus) (hc : c ∈ bus.chips) :
    (getResolution c.rom.toList bus).1 = resolution c ∧
      (getResolution c.rom.toList bus).2.chips = bus.chips := by
  have hlen : c.rom.toList.length = 8 := Vector.length_toList
  rw [getResolution, resolution, getD_rom]
  split
  · exact ⟨rfl, rfl⟩
  · cases hblank : blank c with
    | true =>
      rw [isConnected_blank D hlen (deviceAt_of_mem D hc) hblank]
      exact ⟨rfl, Bus.chips_reset⟩
    | false =>
      rw [isConnected_some D hlen (deviceAt_of_mem D hc) hblank, Chip.registers_eq]
      exact ⟨rfl, Bus.chips_reset⟩

theorem readPowerSupply_eq (D : Distinct bus) (hc : c ∈ bus.chips) :
    readPowerSupply c.rom.toList bus = (c.parasite, bus.reset.2) := by
  have hdevice := deviceAt_of_mem D hc
  have hdialogue : (bus.reset.2.select c.rom.toList).write 0xB4 =
      bus.addressed c.rom.toList (Slave.toMode (Bus.sending [!c.parasite])) := by
    rw [Bus.select_eq Vector.length_toList, Bus.write_function]
    apply Bus.addressed_congr
    intro s hs hmeant
    rw [← chip_eq_of_meant D hdevice hs hmeant]
    rfl
  rw [readPowerSupply, hdialogue, Bus.readBit_sending, any_meant, hdevice]
  dsimp only
  rw [Bus.sending, reset_idle]
  cases c.parasite <;> rfl

/-! ### `begin` -/

def valid (c : Chip) : Bool := validAddress c.rom.toList

/-- A device with a valid address and of one of the families. -/
def known (c : Chip) : Bool := valid c && validFamily c.rom.toList

/-- What is counted when the devices `cs` have been found. -/
structure Counted (cs : List Chip) (d d' : DallasTemperature) : Prop where
  devices : d'.devices = (d.devices + cs.countP valid) % 256
  ds18Count : d'.ds18Count = (d.ds18Count + cs.countP known) % 256
  parasite : d'.parasite = (d.parasite || cs.any fun c => known c && c.parasite)
  bitResolution : d'.bitResolution =
    ((cs.filter known).map resolution).foldl max d.bitResolution
  chips : d'.wire.bus.chips = d.wire.bus.chips

theorem Counted.trans (H : Counted cs d d') (H' : Counted cs' d' d'') :
    Counted (cs ++ cs') d d'' := by
  constructor
  · rw [H'.devices, H.devices, List.countP_append]
    omega
  · rw [H'.ds18Count, H.ds18Count, List.countP_append]
    omega
  · rw [H'.parasite, H.parasite, List.any_append, Bool.or_assoc]
  · rw [H'.bitResolution, H.bitResolution, List.filter_append, List.map_append, List.foldl_append]
  · rw [H'.chips, H.chips]

theorem inspect_eq (D : Distinct d.wire.bus) (hc : c ∈ d.wire.bus.chips) :
    ∃ bus, bus.chips = d.wire.bus.chips ∧ d.inspect c.rom.toList = { d.withBus bus with
      ds18Count := (d.ds18Count + 1) % 256
      parasite := d.parasite || c.parasite
      bitResolution := max d.bitResolution (resolution c) } := by
  have hmax (r b : Nat) : (if b > r then b else r) = max r b := by
    split <;> omega
  cases hparasite : d.parasite with
  | true =>
    obtain ⟨hb, hchips⟩ := getResolution_eq D hc
    refine ⟨_, hchips, ?_⟩
    rw [inspect]
    dsimp only
    rw [hparasite, hmax, if_pos rfl, hb]
    rfl
  | false =>
    have D' : Distinct d.wire.bus.reset.2 := by
      rw [Distinct, Bus.chips_reset]
      exact D
    have hc' : c ∈ d.wire.bus.reset.2.chips := by
      rw [Bus.chips_reset]
      exact hc
    obtain ⟨hb, hchips⟩ := getResolution_eq D' hc'
    refine ⟨_, hchips.trans Bus.chips_reset, ?_⟩
    rw [inspect]
    dsimp only
    rw [hparasite, if_neg Bool.false_ne_true, readPowerSupply_eq D hc, hmax]
    dsimp only [withBus]
    rw [hb]
    rfl

/-- One device. -/
theorem counted_register (D : Distinct d.wire.bus) (hc : c ∈ d.wire.bus.chips)
    (hdevices : d.devices < 256) (hcount : d.ds18Count < 256) :
    ∃ bus, Counted [c] d (d.register c.rom.toList) ∧
      (d.register c.rom.toList).wire = { d.wire with bus } := by
  have hdevices := Nat.mod_eq_of_lt hdevices
  have hcount := Nat.mod_eq_of_lt hcount
  rw [register]
  cases hvalid : valid c with
  | false =>
    have hvalidAddress : ¬validAddress c.rom.toList := by rw [← valid, hvalid]; decide
    have hknown : known c = false := by rw [known, hvalid, Bool.false_and]
    rw [if_neg hvalidAddress]
    refine ⟨d.wire.bus, ⟨?_, ?_, ?_, ?_, rfl⟩, rfl⟩
    · rw [List.countP_singleton, if_neg (by rw [hvalid]; decide), Nat.add_zero, hdevices]
    · rw [List.countP_singleton, if_neg (by rw [hknown]; decide), Nat.add_zero, hcount]
    · simp [hknown]
    · simp [hknown]
  | true =>
    have hvalidAddress : validAddress c.rom.toList := hvalid
    rw [if_pos hvalidAddress]
    cases hfamily : validFamily c.rom.toList with
    | false =>
      have hknown : known c = false := by rw [known, hfamily, Bool.and_false]
      dsimp only
      rw [if_neg Bool.false_ne_true]
      refine ⟨d.wire.bus, ⟨?_, ?_, ?_, ?_, rfl⟩, rfl⟩
      · rw [List.countP_singleton, if_pos hvalid]
      · rw [List.countP_singleton, if_neg (by rw [hknown]; decide)]
        exact hcount.symm
      · simp [hknown]
      · simp [hknown]
    | true =>
      have hknown : known c = true := by rw [known, hvalid, hfamily, Bool.and_self]
      obtain ⟨bus, hchips, hinspect⟩ :=
        inspect_eq (d := { d with devices := (d.devices + 1) % 256 }) D hc
      dsimp only
      rw [if_pos rfl, hinspect]
      refine ⟨bus, ⟨?_, ?_, ?_, ?_, hchips⟩, rfl⟩
      · rw [List.countP_singleton, if_pos hvalid]
        rfl
      · rw [List.countP_singleton, if_pos hknown]
      · simp [hknown]
      · simp [hknown]

/-- The loop of `begin` from a state in which the devices `cs` are to come. -/
theorem beginLoop_eq (D : Distinct d.wire.bus) (hcs : ∀ c ∈ cs, c ∈ d.wire.bus.chips)
    (H : Upcoming (searched true) (cs.map Chip.address) d.wire)
    (hfamily : ∀ c ∈ d.wire.bus.chips, c.family ≠ 0) (hdevices : d.devices < 256)
    (hcount : d.ds18Count < 256) :
    ∃ d', Counted cs d d' ∧ ∀ n > cs.length, beginLoop n d = some d' := by
  induction cs generalizing d with
  | nil =>
    obtain ⟨bus, hsearch, hchips⟩ := H.search_nil
    refine ⟨{ d with wire := { d.wire with bus }.resetCounters }, ?_, fun n hn => ?_⟩
    · exact ⟨(Nat.mod_eq_of_lt hdevices).symm, (Nat.mod_eq_of_lt hcount).symm,
        (Bool.or_false _).symm, rfl, hchips⟩
    · obtain ⟨n, rfl⟩ := Nat.exists_eq_add_one.mpr hn
      rw [beginLoop, hsearch]
  | cons c cs ih =>
    obtain ⟨wire, hsearch, hbits, hchips, H₁⟩ := H.search_cons hfamily
    have hrom : wire.romNo = c.rom.toList := romNo_eq H₁.length hbits
    let d₁ : DallasTemperature := { d with wire }
    have hc : c ∈ d₁.wire.bus.chips := by
      rw [hchips]
      exact hcs c List.mem_cons_self
    have D₁ : Distinct d₁.wire.bus := by
      rw [Distinct, hchips]
      exact D
    obtain ⟨bus, C, hwire⟩ := counted_register D₁ hc hdevices hcount
    have hbus : (d₁.register c.rom.toList).wire.bus.chips = d.wire.bus.chips := C.chips.trans hchips
    have hmod (n : Nat) : n % 256 < 256 := Nat.mod_lt _ (by decide)
    have H₂ : Upcoming (searched true) (cs.map Chip.address) (d₁.register c.rom.toList).wire := by
      have hsame : bus.chips = wire.bus.chips := by
        rw [hwire] at hbus
        exact hbus.trans hchips.symm
      rw [hwire]
      exact H₁.withBus hsame
    obtain ⟨d', C', hrest⟩ := ih (d := d₁.register c.rom.toList) (by rw [Distinct, hbus]; exact D)
      (fun c hc => by rw [hbus]; exact hcs c (List.mem_cons_of_mem _ hc)) H₂
      (by rw [hbus]; exact hfamily) (by rw [C.devices]; exact hmod _)
      (by rw [C.ds18Count]; exact hmod _)
    have C₁ : Counted [c] d (d₁.register c.rom.toList) :=
      ⟨C.devices, C.ds18Count, C.parasite, C.bitResolution, hbus⟩
    refine ⟨d', C₁.trans C', fun n hn => ?_⟩
    obtain ⟨n, rfl⟩ := Nat.exists_eq_add_one.mpr (Nat.zero_lt_of_lt hn)
    rw [beginLoop, hsearch]
    dsimp only
    rw [hrom]
    exact hrest n (Nat.lt_of_succ_lt_succ hn)

theorem isGreatest_foldl_max {r : Nat} {rs : List Nat} :
    IsGreatest {x | x = r ∨ x ∈ rs} (rs.foldl max r) := by
  induction rs generalizing r with
  | nil => exact ⟨.inl rfl, fun x hx => hx.elim Nat.le_of_eq fun h => by cases h⟩
  | cons y rs ih =>
    obtain ⟨hmem, hle⟩ := ih (r := max r y)
    constructor
    · rcases hmem with h | h
      · rcases Nat.le_total r y with hry | hyr
        · rw [Nat.max_eq_right hry] at h
          exact .inr (List.mem_cons.mpr (.inl (by rw [List.foldl_cons, Nat.max_eq_right hry, h])))
        · exact .inl (h.trans (Nat.max_eq_left hyr))
      · exact .inr (List.mem_cons_of_mem _ h)
    · rintro x (rfl | hx)
      · exact (Nat.le_max_left x y).trans (hle (.inl rfl))
      · rcases List.mem_cons.mp hx with rfl | hx
        · exact (Nat.le_max_right r x).trans (hle (.inl rfl))
        · exact hle (.inr hx)

theorem getAddressLoop_eq (deviceAddress : List UInt8)
    (H : Upcoming (searched true) (cs.map Chip.address) wire)
    (hfamily : ∀ c ∈ wire.bus.chips, c.family ≠ 0) (hindex : index < 255) (hdepth : depth ≤ index) :
    ∃ deviceAddress' wire', wire'.bus.chips = wire.bus.chips ∧
      (∀ n > cs.length, getAddressLoop index n depth deviceAddress wire =
        some ((cs[index.toNat - depth.toNat]?.filter valid).isSome, deviceAddress', wire')) ∧
      ∀ c ∈ cs[index.toNat - depth.toNat]?.filter valid, deviceAddress' = c.rom.toList := by
  induction cs generalizing wire depth deviceAddress with
  | nil =>
    obtain ⟨bus, hsearch, hchips⟩ := H.search_nil
    refine ⟨deviceAddress, { wire with bus }.resetCounters, hchips, fun n hn => ?_, nofun⟩
    obtain ⟨n, rfl⟩ := Nat.exists_eq_add_one.mpr hn
    rw [getAddressLoop, if_pos hdepth, hsearch]
    rfl
  | cons c cs ih =>
    obtain ⟨wire₁, hsearch, hbits, hchips, H₁⟩ := H.search_cons hfamily
    have hrom : wire₁.romNo = c.rom.toList := romNo_eq H₁.length hbits
    have hindex : index.toNat < 255 := UInt8.lt_iff_toNat_lt.mp hindex
    have hdepth' : depth.toNat ≤ index.toNat := UInt8.le_iff_toNat_le.mp hdepth
    have hsucc : (depth + 1).toNat = depth.toNat + 1 := by
      rw [UInt8.toNat_add]
      exact Nat.mod_eq_of_lt (by have : (1 : UInt8).toNat = 1 := rfl; omega)
    have hloop (n : Nat) : getAddressLoop index (n + 1) depth deviceAddress wire =
        if depth = index ∧ valid c then some (true, c.rom.toList, wire₁)
        else getAddressLoop index n (depth + 1) c.rom.toList wire₁ := by
      rw [getAddressLoop, if_pos hdepth, hsearch]
      dsimp only
      rw [hrom]
      rfl
    by_cases heq : depth = index
    · have hget : (c :: cs)[index.toNat - depth.toNat]? = some c := by
        rw [heq, Nat.sub_self]
        rfl
      rw [hget, Option.filter_some]
      refine ⟨c.rom.toList, wire₁, hchips, fun n hn => ?_, ?_⟩
      · obtain ⟨n, rfl⟩ := Nat.exists_eq_add_one.mpr (Nat.zero_lt_of_lt hn)
        rw [hloop]
        cases hvalid : valid c with
        | true => rw [if_pos ⟨heq, rfl⟩]; rfl
        | false =>
          have hend : ¬depth + 1 ≤ index := by
            rw [UInt8.le_iff_toNat_le, hsucc, heq]
            omega
          obtain ⟨n, rfl⟩ :=
            Nat.exists_eq_add_one.mpr (Nat.zero_lt_of_lt (Nat.lt_of_succ_lt_succ hn))
          rw [if_neg fun h => Bool.false_ne_true h.2, getAddressLoop, if_neg hend]
          rfl
      · intro c' hc'
        split at hc'
        · rw [Option.mem_some.mp hc']
        · cases hc'
    · have hlt : depth.toNat < index.toNat :=
        Nat.lt_of_le_of_ne hdepth' fun h => heq (UInt8.toNat_inj.mp h)
      have hnext : depth + 1 ≤ index := by
        rw [UInt8.le_iff_toNat_le, hsucc]
        exact hlt
      obtain ⟨deviceAddress', wire', hchips', hrest, hfound⟩ :=
        ih c.rom.toList H₁ (by rw [hchips]; exact hfamily) hnext
      have hget : (c :: cs)[index.toNat - depth.toNat]? = cs[index.toNat - (depth + 1).toNat]? := by
        have hsub : index.toNat - depth.toNat = index.toNat - (depth + 1).toNat + 1 := by omega
        rw [hsub, List.getElem?_cons_succ]
      rw [hget]
      refine ⟨deviceAddress', wire', hchips'.trans hchips, fun n hn => ?_, hfound⟩
      obtain ⟨n, rfl⟩ := Nat.exists_eq_add_one.mpr (Nat.zero_lt_of_lt hn)
      rw [hloop, if_neg fun h => heq h.1]
      exact hrest n (Nat.lt_of_succ_lt_succ hn)

/-- The address at a place in the order, if it is valid. -/
theorem getAddress_eq (O : Ordered wire.bus cs) (deviceAddress : List UInt8)
    (hfamily : ∀ c ∈ wire.bus.chips, c.family ≠ 0) (hindex : index < 255) :
    ∃ deviceAddress' wire', wire'.bus.chips = wire.bus.chips ∧
      (∀ n > wire.bus.length, getAddress n wire deviceAddress index =
        some ((cs[index.toNat]?.filter valid).isSome, deviceAddress', wire')) ∧
      ∀ c ∈ cs[index.toNat]?.filter valid, deviceAddress' = c.rom.toList := by
  have hzero : (0 : UInt8) ≤ index := UInt8.zero_le
  have hlen : cs.length = wire.bus.length := by
    rw [O.1.length_eq, Bus.chips, List.length_map]
  rw [← hlen]
  exact getAddressLoop_eq deviceAddress O.upcoming hfamily hindex hzero

/-- `getTempCByIndex` is about the device at this place in the order of the addresses. -/
theorem getTempCByIndex_eq (D : Distinct wire.bus) (hindex : index < 255)
    (hfamily : ∀ c ∈ wire.bus.chips, c.family ≠ 0 ∧ c.family ≠ Chip.ds18s20Model)
    (hrange : ∀ c ∈ wire.bus.chips, -4096 ≤ temperature c ∧ temperature c < 4096) :
    ∃ cs, Ordered wire.bus cs ∧ ∀ n > wire.bus.length, getTempCByIndex n wire index =
      some (reported (cs[index.toNat]?.filter fun c => valid c && !blank c)) := by
  obtain ⟨cs, O⟩ := exists_ordered D
  obtain ⟨deviceAddress, wire', hchips, hget, hfound⟩ :=
    getAddress_eq O [] (fun c hc => (hfamily c hc).1) hindex
  refine ⟨cs, O, fun n hn => ?_⟩
  rw [getTempCByIndex, hget n hn]
  cases hi : cs[index.toNat]? with
  | none => rfl
  | some c =>
    have hc : c ∈ wire'.bus.chips := by
      rw [hchips]
      exact O.1.mem_iff.mp (List.mem_of_getElem? hi)
    have D' : Distinct wire'.bus := by
      rw [Distinct, hchips]
      exact D
    rw [hi, Option.filter_some] at hfound
    rw [Option.filter_some, Option.filter_some]
    cases hvalid : valid c with
    | false => rfl
    | true =>
      have hmodel : c.rom.toList.getD 0 0 ≠ Chip.ds18s20Model := by
        rw [getD_rom]
        exact (hfamily c (hchips ▸ hc)).2
      have hread := getTempC_eq D' Vector.length_toList hmodel (by rw [hchips]; exact hrange)
      rw [deviceAt_of_mem D' hc, Option.filter_some] at hread
      rw [hvalid, if_pos rfl] at hfound
      rw [if_pos rfl, Option.isSome_some, Option.map_some]
      dsimp only
      rw [hfound c rfl, hread, Bool.true_and]

theorem getTempCByIndex_eq_two :
    let wire : OneWire := ⟨[], 0, 0, false, [⟨.ds18b20 7, .idle⟩, ⟨.ds18b20 5, .idle⟩]⟩
    ∃ cs, Ordered wire.bus cs ∧ ∀ n > wire.bus.length, getTempCByIndex n wire 1 =
      some (reported (cs[(1 : UInt8).toNat]?.filter fun c => valid c && !blank c)) :=
  getTempCByIndex_eq (by decide) (by decide) (by decide) (by decide)

end DallasTemperature

end D1Mini
