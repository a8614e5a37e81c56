import D1Mini.Dallas.Devices

/-!
# The settings of the devices in `DallasTemperature.cpp`

A setter reads the scratchpad of a device, changes some of its bytes and writes the bytes 2 to 4
back. With `autoSaveScratchPad` the device then copies them to its EEPROM.
-/

namespace D1Mini.DallasTemperature
open OneWire

/-- `saveScratchPad`, of all devices where no address is given. -/
def saveScratchPad (deviceAddress : Option (List UInt8)) (bus : Bus) : Bool × Bus :=
  let (presence, bus) := bus.reset
  if !presence then (false, bus)
  else
    let bus := match deviceAddress with
      | none => bus.skip
      | some deviceAddress => bus.select deviceAddress
    (bus.write 0x48).reset

/-- The bits that are read while a device recalls its EEPROM, at most `n` until the time is over. -/
def awaitRecall : Nat → Bus → Bool × Bus
  | 0, bus => (false, bus)
  | n + 1, bus =>
    let (bit, bus) := bus.readBit
    if bit then bus.reset else awaitRecall n bus

def recallScratchPad (n : Nat) (deviceAddress : Option (List UInt8)) (bus : Bus) : Bool × Bus :=
  let (presence, bus) := bus.reset
  if !presence then (false, bus)
  else
    let bus := match deviceAddress with
      | none => bus.skip
      | some deviceAddress => bus.select deviceAddress
    awaitRecall n (bus.write 0xB8)

def writeScratchPad (autoSaveScratchPad : Bool) (deviceAddress scratchPad : List UInt8)
    (bus : Bus) :
    Bus :=
  let bus := (bus.reset.2.select deviceAddress).write 0x4E
  let bus := (bus.write (scratchPad.getD 2 0)).write (scratchPad.getD 3 0)
  let bus :=
    if deviceAddress.getD 0 0 ≠ Chip.ds18s20Model then bus.write (scratchPad.getD 4 0) else bus
  if autoSaveScratchPad then (saveScratchPad (some deviceAddress) bus).2 else bus.reset.2

/-- What the setters do with a device that is connected. -/
def changeScratchPad (d : DallasTemperature) (deviceAddress : List UInt8)
    (change : List UInt8 → List UInt8) : DallasTemperature :=
  match isConnected deviceAddress d.wire.bus with
  | (none, bus) => d.withBus bus
  | (some scratchPad, bus) =>
    d.withBus (writeScratchPad d.autoSaveScratchPad deviceAddress (change scratchPad) bus)

/-! ### Alarm temperatures -/

/-- The alarm temperature in a byte of the scratchpad. -/
def getAlarmTemp (register : Nat) (deviceAddress : List UInt8) (bus : Bus) : Int8 × Bus :=
  match isConnected deviceAddress bus with
  | (some scratchPad, bus) => ((scratchPad.getD register 0).toInt8, bus)
  | (none, bus) => (-127, bus)

def getHighAlarmTemp (deviceAddress : List UInt8) (bus : Bus) : Int8 × Bus :=
  getAlarmTemp 2 deviceAddress bus

def getLowAlarmTemp (deviceAddress : List UInt8) (bus : Bus) : Int8 × Bus :=
  getAlarmTemp 3 deviceAddress bus

/-- The range of the device. -/
def constrainAlarmTemp (celsius : Int8) : Int8 :=
  if celsius > 125 then 125 else if celsius < -55 then -55 else celsius

def setAlarmTemp (register : Nat) (d : DallasTemperature) (deviceAddress : List UInt8)
    (celsius : Int8) : DallasTemperature :=
  let (stored, bus) := getAlarmTemp register deviceAddress d.wire.bus
  if stored = celsius then d.withBus bus
  else (d.withBus bus).changeScratchPad deviceAddress
    (·.set register (constrainAlarmTemp celsius).toUInt8)

def setHighAlarmTemp (d : DallasTemperature) (deviceAddress : List UInt8) (celsius : Int8) :
    DallasTemperature :=
  d.setAlarmTemp 2 deviceAddress celsius

def setLowAlarmTemp (d : DallasTemperature) (deviceAddress : List UInt8) (celsius : Int8) :
    DallasTemperature :=
  d.setAlarmTemp 3 deviceAddress celsius

/-! ### User data in the alarm registers -/

def getUserData (deviceAddress : List UInt8) (bus : Bus) : Int16 × Bus :=
  match isConnected deviceAddress bus with
  | (some scratchPad, bus) =>
    ((((scratchPad.getD 2 0).toUInt16 <<< 8) + (scratchPad.getD 3 0).toUInt16).toInt16, bus)
  | (none, bus) => (0, bus)

def setUserData (d : DallasTemperature) (deviceAddress : List UInt8) (data : Int16) :
    DallasTemperature :=
  let (stored, bus) := getUserData deviceAddress d.wire.bus
  if stored = data then d.withBus bus
  else (d.withBus bus).changeScratchPad deviceAddress fun scratchPad =>
    (scratchPad.set 2 (data >>> 8).toUInt16.toUInt8).set 3 (data &&& 255).toUInt16.toUInt8

/-! ### Resolution -/

def constrainResolution (newResolution : Nat) : Nat :=
  if newResolution < 9 then 9 else if newResolution > 12 then 12 else newResolution

/-- The configuration register for a resolution. -/
def configurationOf : Nat → UInt8
  | 12 => 0x7F
  | 11 => 0x5F
  | 10 => 0x3F
  | _ => 0x1F

/-- `setResolution` of a device with `skipGlobalBitResolutionCalculation`. -/
def setDeviceResolution (d : DallasTemperature) (deviceAddress : List UInt8) (newResolution : Nat) :
    Bool × DallasTemperature :=
  if deviceAddress.getD 0 0 = Chip.ds18s20Model then (true, d)
  else
    match isConnected deviceAddress d.wire.bus with
    | (none, bus) => (false, d.withBus bus)
    | (some scratchPad, bus) =>
      let newValue := configurationOf (constrainResolution newResolution)
      (true, d.withBus
        (if scratchPad.getD 4 0 ≠ newValue then
          writeScratchPad d.autoSaveScratchPad deviceAddress (scratchPad.set 4 newValue) bus
        else bus))

/-! ### What a device takes -/

/-- The bytes that `writeScratchPad` writes. -/
def written (scratchPad : List UInt8) (c : Chip) : Chip :=
  let c' := (c.receive 2 (scratchPad.getD 2 0)).receive 3 (scratchPad.getD 3 0)
  if c.family = Chip.ds18s20Model then c' else c'.receive 4 (scratchPad.getD 4 0)

def saved (autoSaveScratchPad : Bool) (c : Chip) : Chip :=
  if autoSaveScratchPad then c.copyScratch else c

variable {bus : Bus} {c : Chip} {deviceAddress scratchPad a : List UInt8}
variable {autoSaveScratchPad : Bool}
  {d : DallasTemperature} {g g' : Chip → Chip} {register : Nat} {celsius : Int8} {data : Int16}

theorem update_update (hg : ∀ c, (g c).rom = c.rom) :
    (bus.update deviceAddress g).update deviceAddress g' =
      bus.update deviceAddress fun c => g' (g c) := by
  rw [Bus.update, Bus.update, Bus.update, List.map_map]
  apply List.map_congr_left
  intro s hs
  have hmeant : (g s.chip).meant deviceAddress = s.chip.meant deviceAddress := by
    rw [Chip.meant, hg, Chip.meant]
  by_cases h : s.chip.meant deviceAddress
  · simp [h, hmeant]
  · simp [h]

theorem update_congr (h : ∀ s ∈ bus, s.chip.meant deviceAddress → g s.chip = g' s.chip) :
    bus.update deviceAddress g = bus.update deviceAddress g' := by
  apply List.map_congr_left
  intro s hs
  split
  · next hmeant => rw [h s hs hmeant]
  · rfl

theorem saveScratchPad_eq (hlen : deviceAddress.length = 8) :
    (saveScratchPad (some deviceAddress) bus).2 =
      (bus.update deviceAddress Chip.copyScratch).reset.2 := by
  rw [saveScratchPad]
  rcases eq_or_ne bus [] with rfl | hbus
  · rfl
  · rw [reset_of_ne_nil hbus]
    dsimp only
    rw [if_neg (by decide), Bus.select_eq hlen, Bus.write_function,
      Bus.reset_addressed (g := Chip.copyScratch) fun s => rfl]

theorem family_of_meant (h : c.meant deviceAddress) : deviceAddress.getD 0 0 = c.family := by
  rw [← of_decide_eq_true h]
  exact getD_rom

/-- A byte that is not the last one. -/
theorem write_receive_next {i : Nat} {v : UInt8}
    (h : ∀ s ∈ bus, s.chip.meant deviceAddress → i + 1 < s.chip.receiveEnd) :
    (bus.addressed deviceAddress (Slave.toMode (.receive i []))).write v =
      (bus.update deviceAddress (·.receive i v)).addressed deviceAddress
        (Slave.toMode (.receive (i + 1) [])) := by
  rw [Bus.write_receive]
  apply Bus.addressed_congr
  intro s hs hmeant
  obtain ⟨t, ht, rfl⟩ := List.mem_map.mp hs
  have htmeant : t.chip.meant deviceAddress := by
    split at hmeant
    · assumption
    · exact hmeant
  have hend := h t ht htmeant
  rw [if_pos htmeant]
  exact congrArg (Slave.toMode · _) (if_pos hend)

theorem four_le_receiveEnd : 4 ≤ c.receiveEnd := by
  rw [Chip.receiveEnd]
  split <;> decide

/-- The end of a dialogue in which the device has heard all of the bytes. -/
theorem finish_eq {mode : Slave → Mode} (hlen : deviceAddress.length = 8) :
    (if autoSaveScratchPad then (saveScratchPad (some deviceAddress)
        (bus.addressed deviceAddress fun s => s.toMode (mode s))).2
      else (bus.addressed deviceAddress fun s => s.toMode (mode s)).reset.2) =
      (bus.update deviceAddress (saved autoSaveScratchPad)).reset.2 := by
  have hreset : (bus.addressed deviceAddress fun s => s.toMode (mode s)).reset = bus.reset := by
    rw [Bus.reset_addressed (f := fun s => s.toMode (mode s)) (g := fun c => c) fun s => rfl,
      Bus.update_id]
  have hsave : saveScratchPad (some deviceAddress)
      (bus.addressed deviceAddress fun s => s.toMode (mode s)) =
      saveScratchPad (some deviceAddress) bus := by
    rw [saveScratchPad, hreset, saveScratchPad]
  rw [hsave, hreset]
  cases autoSaveScratchPad with
  | true =>
    rw [if_pos rfl, saveScratchPad_eq hlen]
    rfl
  | false =>
    have hsaved : saved false = fun c => c := rfl
    rw [if_neg Bool.false_ne_true, hsaved, Bus.update_id]

theorem writeScratchPad_eq (hlen : deviceAddress.length = 8) :
    writeScratchPad autoSaveScratchPad deviceAddress scratchPad bus =
      (bus.update deviceAddress fun c =>
        saved autoSaveScratchPad (written scratchPad c)).reset.2 := by
  let g (c : Chip) : Chip := (c.receive 2 (scratchPad.getD 2 0)).receive 3 (scratchPad.getD 3 0)
  have hcommand : (bus.reset.2.select deviceAddress).write 0x4E =
      bus.addressed deviceAddress (Slave.toMode (.receive 2 [])) := by
    rw [Bus.select_eq hlen, Bus.write_function]
    rfl
  have hbytes : ((bus.addressed deviceAddress (Slave.toMode (.receive 2 []))).write
      (scratchPad.getD 2 0)).write (scratchPad.getD 3 0) =
      (bus.update deviceAddress g).addressed deviceAddress fun s =>
        s.toMode (if 4 < s.chip.receiveEnd then .receive 4 [] else .idle) := by
    rw [write_receive_next fun s _ _ => four_le_receiveEnd, Bus.write_receive,
      update_update (g := fun c => c.receive 2 (scratchPad.getD 2 0)) fun c => rfl]
  have hg (c : Chip) : (g c).rom = c.rom := rfl
  rw [writeScratchPad, hcommand, hbytes]
  by_cases hfamily : deviceAddress.getD 0 0 = Chip.ds18s20Model
  · have hwritten : bus.update deviceAddress (fun c => saved autoSaveScratchPad (g c)) =
        bus.update deviceAddress fun c => saved autoSaveScratchPad (written scratchPad c) := by
      apply update_congr
      intro s hs hmeant
      rw [family_of_meant hmeant] at hfamily
      rw [written, if_pos hfamily]
    rw [if_neg (not_not.mpr hfamily), finish_eq hlen, update_update hg, hwritten]
  · have hlast : (bus.update deviceAddress g).addressed deviceAddress (fun s =>
        s.toMode (if 4 < s.chip.receiveEnd then .receive 4 [] else .idle)) =
        (bus.update deviceAddress g).addressed deviceAddress (Slave.toMode (.receive 4 [])) := by
      apply Bus.addressed_congr
      intro s hs hmeant
      rw [family_of_meant hmeant] at hfamily
      rw [Chip.receiveEnd, if_neg hfamily, if_pos (by decide)]
    have hwritten : bus.update deviceAddress (fun c =>
        saved autoSaveScratchPad ((g c).receive 4 (scratchPad.getD 4 0))) =
        bus.update deviceAddress fun c => saved autoSaveScratchPad (written scratchPad c) := by
      apply update_congr
      intro s hs hmeant
      rw [family_of_meant hmeant] at hfamily
      rw [written, if_neg hfamily]
    rw [if_pos hfamily, hlast, Bus.write_receive, finish_eq hlen,
      update_update hg, update_update (g := fun c => (g c).receive 4 _) hg, hwritten]

/-! ### The devices after a command -/

/-- The device that answers at an address. -/
def connected (chips : List Chip) (deviceAddress : List UInt8) : Option Chip :=
  (chips.find? (·.meant deviceAddress)).filter (!blank ·)

theorem isConnected_eq (D : Distinct bus) (hlen : deviceAddress.length = 8) :
    isConnected deviceAddress bus =
      ((connected bus.chips deviceAddress).map Chip.registers, bus.reset.2) := by
  have hconnected : connected bus.chips deviceAddress =
    (deviceAt bus deviceAddress).filter (!blank ·) := rfl
  rw [hconnected]
  cases hc : deviceAt bus deviceAddress with
  | none => exact isConnected_none hlen hc
  | some c =>
    rw [Option.filter_some]
    cases hblank : blank c with
    | true => exact isConnected_blank D hlen hc hblank
    | false => exact isConnected_some D hlen hc hblank

theorem chips_update : (bus.update deviceAddress g).chips =
    bus.chips.map fun c => if c.meant deviceAddress then g c else c := by
  rw [Bus.chips, Bus.chips, Bus.update, List.map_map, List.map_map]
  apply List.map_congr_left
  intro s hs
  by_cases h : s.chip.meant deviceAddress <;> simp [h]

theorem chips_writeScratchPad (hlen : deviceAddress.length = 8) :
    (writeScratchPad autoSaveScratchPad deviceAddress scratchPad bus).chips = bus.chips.map fun c =>
      if c.meant deviceAddress then saved autoSaveScratchPad (written scratchPad c) else c := by
  rw [writeScratchPad_eq hlen, Bus.chips_reset, chips_update]

/-- One device is the one at its address. -/
theorem connected_of_mem (D : Distinct bus) (hc : c ∈ bus.chips) (hmeant : c.meant deviceAddress) :
    connected bus.chips deviceAddress = if blank c then none else some c := by
  have hfind : bus.chips.find? (·.meant deviceAddress) = some c := by
    rw [← of_decide_eq_true hmeant]
    exact deviceAt_of_mem D hc
  rw [connected, hfind, Option.filter_some]
  cases blank c <;> rfl

theorem not_takes (D : Distinct bus) (h : connected bus.chips deviceAddress = none)
    (hc : c ∈ bus.chips) : ¬(c.meant deviceAddress ∧ blank c = false) := by
  rintro ⟨hmeant, hblank⟩
  rw [connected_of_mem D hc hmeant, hblank] at h
  cases h

theorem eq_of_connected {c' : Chip} (D : Distinct bus)
    (h : connected bus.chips deviceAddress = some c') (hc : c ∈ bus.chips)
    (hmeant : c.meant deviceAddress) : c = c' ∧ blank c = false := by
  rw [connected_of_mem D hc hmeant] at h
  split at h
  · cases h
  · next hblank => exact ⟨Option.some.inj h, Bool.eq_false_of_not_eq_true hblank⟩

theorem map_ite_eq_self {p : Chip → Prop} [DecidablePred p] {cs : List Chip}
    (h : ∀ c ∈ cs, ¬p c) : (cs.map fun c => if p c then g c else c) = cs := by
  rw [List.map_congr_left (g := fun c => c) fun c hc => if_neg (h c hc), List.map_id']

theorem chips_changeScratchPad {change : List UInt8 → List UInt8} (D : Distinct d.wire.bus)
    (hlen : deviceAddress.length = 8) :
    (d.changeScratchPad deviceAddress change).wire.bus.chips = d.wire.bus.chips.map fun c =>
      if c.meant deviceAddress ∧ blank c = false then
        saved d.autoSaveScratchPad (written (change c.registers) c) else c := by
  rw [changeScratchPad, isConnected_eq D hlen]
  cases hconnected : connected d.wire.bus.chips deviceAddress with
  | none =>
    rw [Option.map_none]
    dsimp only [withBus]
    rw [Bus.chips_reset, map_ite_eq_self fun c hc => not_takes D hconnected hc]
  | some c' =>
    rw [Option.map_some]
    dsimp only [withBus]
    rw [chips_writeScratchPad hlen, Bus.chips_reset]
    apply List.map_congr_left
    intro c hc
    by_cases hmeant : c.meant deviceAddress
    · obtain ⟨rfl, hblank⟩ := eq_of_connected D hconnected hc hmeant
      rw [if_pos hmeant, if_pos ⟨hmeant, hblank⟩]
    · rw [if_neg hmeant, if_neg fun h => hmeant h.1]

/-! ### Commands and devices -/

/-- What a sketch does with the settings. -/
inductive Command
  | setHighAlarmTemp (deviceAddress : Vector UInt8 8) (celsius : Int8)
  | setLowAlarmTemp (deviceAddress : Vector UInt8 8) (celsius : Int8)
  | setUserData (deviceAddress : Vector UInt8 8) (data : Int16)
  | setResolution (deviceAddress : Vector UInt8 8) (newResolution : Nat)
  | saveScratchPad (deviceAddress : Option (Vector UInt8 8))
  | recallScratchPad (n : Nat) (deviceAddress : Option (Vector UInt8 8))
  | setAutoSaveScratchPad (flag : Bool)
  | isConnected (deviceAddress : Vector UInt8 8)
deriving DecidableEq, Repr

def exec (d : DallasTemperature) : Command → DallasTemperature
  | .setHighAlarmTemp deviceAddress celsius => d.setHighAlarmTemp deviceAddress.toList celsius
  | .setLowAlarmTemp deviceAddress celsius => d.setLowAlarmTemp deviceAddress.toList celsius
  | .setUserData deviceAddress data => d.setUserData deviceAddress.toList data
  | .setResolution deviceAddress newResolution =>
    (d.setDeviceResolution deviceAddress.toList newResolution).2
  | .saveScratchPad deviceAddress =>
    d.withBus (DallasTemperature.saveScratchPad (deviceAddress.map Vector.toList) d.wire.bus).2
  | .recallScratchPad n deviceAddress =>
    d.withBus (DallasTemperature.recallScratchPad n (deviceAddress.map Vector.toList) d.wire.bus).2
  | .setAutoSaveScratchPad flag => { d with autoSaveScratchPad := flag }
  | .isConnected deviceAddress =>
    d.withBus (DallasTemperature.isConnected deviceAddress.toList d.wire.bus).2

/-- The two alarm registers as one number. -/
def userData (c : Chip) : Int16 :=
  ((c.highAlarmTemp.toUInt16 <<< 8) + c.lowAlarmTemp.toUInt16).toInt16

/-- Whether a device is meant, where no address means all of them. -/
def Command.meant (deviceAddress : Option (Vector UInt8 8)) (c : Chip) : Bool :=
  match deviceAddress with
  | none => true
  | some deviceAddress => c.meant deviceAddress.toList

/-- Whether a device at an address takes a change. -/
def Command.takes (deviceAddress : Vector UInt8 8) (c : Chip) : Bool :=
  c.meant deviceAddress.toList && !blank c

/-- What a command is for one device. -/
def Command.effect (autoSaveScratchPad : Bool) : Command → Chip → Chip
  | .setHighAlarmTemp deviceAddress celsius, c =>
    if takes deviceAddress c ∧ c.highAlarmTemp.toInt8 ≠ celsius then
      saved autoSaveScratchPad (c.receive 2 (constrainAlarmTemp celsius).toUInt8)
    else c
  | .setLowAlarmTemp deviceAddress celsius, c =>
    if takes deviceAddress c ∧ c.lowAlarmTemp.toInt8 ≠ celsius then
      saved autoSaveScratchPad (c.receive 3 (constrainAlarmTemp celsius).toUInt8)
    else c
  | .setUserData deviceAddress data, c =>
    if takes deviceAddress c ∧ userData c ≠ data then
      saved autoSaveScratchPad ((c.receive 2 (data >>> 8).toUInt16.toUInt8).receive 3
        (data &&& 255).toUInt16.toUInt8)
    else c
  | .setResolution deviceAddress newResolution, c =>
    let newValue := configurationOf (constrainResolution newResolution)
    if takes deviceAddress c ∧ c.family ≠ Chip.ds18s20Model ∧ c.configuration ≠ newValue then
      saved autoSaveScratchPad (c.receive 4 newValue)
    else c
  | .saveScratchPad deviceAddress, c => if meant deviceAddress c then c.copyScratch else c
  | .recallScratchPad _ deviceAddress, c => if meant deviceAddress c then c.recallScratch else c
  | .setAutoSaveScratchPad _, c => c
  | .isConnected _, c => c

def Command.flag (autoSaveScratchPad : Bool) : Command → Bool
  | .setAutoSaveScratchPad flag => flag
  | _ => autoSaveScratchPad

/-- A command for the flag and one device. -/
def Command.step : Bool × Chip → Command → Bool × Chip
  | (autoSaveScratchPad, c), cmd => (cmd.flag autoSaveScratchPad, cmd.effect autoSaveScratchPad c)

variable {cmd : Command} {cmds : List Command} {v u : UInt8}

theorem scratchpad_receive {i j : Nat} (hj : j < 8) :
    (c.receive i v).scratchpad[j] = if i = j then v else c.scratchpad[j] :=
  Vector.getElem_setIfInBounds hj

theorem receive_self {i : Nat} (h : i < 8) (hv : c.scratchpad[i] = v) : c.receive i v = c := by
  have hsame : c.scratchpad.setIfInBounds i v = c.scratchpad := by
    apply Vector.ext
    intro j hj
    rw [Vector.getElem_setIfInBounds]
    split
    · next heq => subst heq; exact hv.symm
    · rfl
  rw [Chip.receive, hsame]

/-- The two bytes that are not changed are written as they are. -/
theorem written_set_high : written (c.registers.set 2 v) c = c.receive 2 v := by
  have hlow : (c.receive 2 v).receive 3 c.lowAlarmTemp = c.receive 2 v :=
    receive_self (by decide) (scratchpad_receive (by decide))
  have hconfiguration : (c.receive 2 v).receive 4 c.configuration = c.receive 2 v :=
    receive_self (by decide) (scratchpad_receive (by decide))
  have hbytes : written (c.registers.set 2 v) c = if c.family = Chip.ds18s20Model then
      (c.receive 2 v).receive 3 c.lowAlarmTemp
      else ((c.receive 2 v).receive 3 c.lowAlarmTemp).receive 4 c.configuration := by
    rw [Chip.registers_eq]
    rfl
  rw [hbytes, hlow, hconfiguration, ite_self]

theorem written_set_low : written (c.registers.set 3 v) c = c.receive 3 v := by
  have hhigh : c.receive 2 c.highAlarmTemp = c := receive_self (by decide) rfl
  have hconfiguration : (c.receive 3 v).receive 4 c.configuration = c.receive 3 v :=
    receive_self (by decide) (scratchpad_receive (by decide))
  have hbytes : written (c.registers.set 3 v) c = if c.family = Chip.ds18s20Model then
      (c.receive 2 c.highAlarmTemp).receive 3 v
      else ((c.receive 2 c.highAlarmTemp).receive 3 v).receive 4 c.configuration := by
    rw [Chip.registers_eq]
    rfl
  rw [hbytes, hhigh, hconfiguration, ite_self]

theorem written_set_both :
    written ((c.registers.set 2 v).set 3 u) c = (c.receive 2 v).receive 3 u := by
  have hlow : (c.receive 2 v).scratchpad[4] = c.configuration := scratchpad_receive (by decide)
  have hconfiguration : ((c.receive 2 v).receive 3 u).receive 4 c.configuration =
      (c.receive 2 v).receive 3 u :=
    receive_self (by decide) ((scratchpad_receive (by decide)).trans hlow)
  have hbytes : written ((c.registers.set 2 v).set 3 u) c = if c.family = Chip.ds18s20Model then
      (c.receive 2 v).receive 3 u else ((c.receive 2 v).receive 3 u).receive 4 c.configuration := by
    rw [Chip.registers_eq]
    rfl
  rw [hbytes, hconfiguration, ite_self]

theorem written_set_configuration (hfamily : c.family ≠ Chip.ds18s20Model) :
    written (c.registers.set 4 v) c = c.receive 4 v := by
  have hhigh : c.receive 2 c.highAlarmTemp = c := receive_self (by decide) rfl
  have hlow : c.receive 3 c.lowAlarmTemp = c := receive_self (by decide) rfl
  have hbytes : written (c.registers.set 4 v) c = if c.family = Chip.ds18s20Model then
      (c.receive 2 c.highAlarmTemp).receive 3 c.lowAlarmTemp
      else ((c.receive 2 c.highAlarmTemp).receive 3 c.lowAlarmTemp).receive 4 v := by
    rw [Chip.registers_eq]
    rfl
  rw [hbytes, hhigh, hlow, if_neg hfamily]

/-! ### One command -/

theorem getAlarmTemp_eq (D : Distinct bus) (hlen : deviceAddress.length = 8) :
    getAlarmTemp register deviceAddress bus =
      ((connected bus.chips deviceAddress).elim (-127)
          fun c => (c.registers.getD register 0).toInt8,
        bus.reset.2) := by
  rw [getAlarmTemp, isConnected_eq D hlen]
  cases connected bus.chips deviceAddress <;> rfl

theorem getUserData_eq (D : Distinct bus) (hlen : deviceAddress.length = 8) :
    getUserData deviceAddress bus =
      ((connected bus.chips deviceAddress).elim 0 userData, bus.reset.2) := by
  rw [getUserData, isConnected_eq D hlen]
  cases connected bus.chips deviceAddress with
  | none => rfl
  | some c =>
    rw [Option.map_some, Chip.registers_eq]
    rfl

/-- A setter does nothing where the value is there already. -/
theorem chips_unless_stored {α : Type} [DecidableEq α] {stored : Chip → α} {absent value : α}
    {change : List UInt8 → List UInt8} (D : Distinct d.wire.bus)
    (hlen : deviceAddress.length = 8) :
    (if (connected d.wire.bus.chips deviceAddress).elim absent stored = value then
        d.withBus d.wire.bus.reset.2
      else (d.withBus d.wire.bus.reset.2).changeScratchPad deviceAddress change).wire.bus.chips =
      d.wire.bus.chips.map fun c =>
        if c.meant deviceAddress ∧ blank c = false ∧ stored c ≠ value then
          saved d.autoSaveScratchPad (written (change c.registers) c) else c := by
  have D' : Distinct (d.withBus d.wire.bus.reset.2).wire.bus := by
    rw [Distinct, withBus, Bus.chips_reset]
    exact D
  have hreset : (d.withBus d.wire.bus.reset.2).wire.bus.chips = d.wire.bus.chips := Bus.chips_reset
  split
  · next heq =>
    rw [hreset, map_ite_eq_self]
    rintro c hc ⟨hmeant, hblank, hne⟩
    rw [connected_of_mem D hc hmeant, hblank] at heq
    exact hne heq
  · next hne =>
    rw [chips_changeScratchPad D' hlen, hreset]
    apply List.map_congr_left
    intro c hc
    by_cases htakes : c.meant deviceAddress ∧ blank c = false
    · rw [connected_of_mem D hc htakes.1, htakes.2] at hne
      rw [if_pos htakes, if_pos ⟨htakes.1, htakes.2, hne⟩]
      rfl
    · rw [if_neg htakes, if_neg fun h => htakes ⟨h.1, h.2.1⟩]

theorem chips_setAlarmTemp (D : Distinct d.wire.bus) (hlen : deviceAddress.length = 8) :
    (d.setAlarmTemp register deviceAddress celsius).wire.bus.chips = d.wire.bus.chips.map fun c =>
      if c.meant deviceAddress ∧ blank c = false ∧
          (c.registers.getD register 0).toInt8 ≠ celsius then
        saved d.autoSaveScratchPad
          (written (c.registers.set register (constrainAlarmTemp celsius).toUInt8) c)
      else c := by
  rw [setAlarmTemp, getAlarmTemp_eq D hlen]
  exact chips_unless_stored D hlen

theorem chips_setUserData (D : Distinct d.wire.bus) (hlen : deviceAddress.length = 8) :
    (d.setUserData deviceAddress data).wire.bus.chips = d.wire.bus.chips.map fun c =>
      if c.meant deviceAddress ∧ blank c = false ∧ userData c ≠ data then
        saved d.autoSaveScratchPad ((c.receive 2 (data >>> 8).toUInt16.toUInt8).receive 3
          (data &&& 255).toUInt16.toUInt8)
      else c := by
  rw [setUserData, getUserData_eq D hlen]
  refine (chips_unless_stored D hlen).trans (List.map_congr_left fun c hc => ?_)
  rw [written_set_both]

theorem chips_setDeviceResolution {newResolution : Nat} (D : Distinct d.wire.bus)
    (hlen : deviceAddress.length = 8) :
    (d.setDeviceResolution deviceAddress newResolution).2.wire.bus.chips =
      d.wire.bus.chips.map fun c =>
        if c.meant deviceAddress ∧ blank c = false ∧ c.family ≠ Chip.ds18s20Model ∧
            c.configuration ≠ configurationOf (constrainResolution newResolution) then
          saved d.autoSaveScratchPad
            (c.receive 4 (configurationOf (constrainResolution newResolution)))
        else c := by
  rw [setDeviceResolution]
  by_cases hfamily : deviceAddress.getD 0 0 = Chip.ds18s20Model
  · rw [if_pos hfamily, map_ite_eq_self]
    rintro c hc ⟨hmeant, -, hne, -⟩
    exact hne ((family_of_meant hmeant).symm.trans hfamily)
  · rw [if_neg hfamily, isConnected_eq D hlen]
    cases hconnected : connected d.wire.bus.chips deviceAddress with
    | none =>
      rw [Option.map_none]
      dsimp only [withBus]
      rw [Bus.chips_reset,
        map_ite_eq_self fun c hc h => not_takes D hconnected hc ⟨h.1, h.2.1⟩]
    | some c' =>
      have hregister : c'.registers.getD 4 0 = c'.configuration := by
        rw [Chip.registers_eq]
        rfl
      rw [Option.map_some]
      dsimp only [withBus]
      rw [hregister]
      split
      · next hne =>
        rw [chips_writeScratchPad hlen, Bus.chips_reset]
        apply List.map_congr_left
        intro c hc
        by_cases hmeant : c.meant deviceAddress
        · obtain ⟨rfl, hblank⟩ := eq_of_connected D hconnected hc hmeant
          have hmodel : c.family ≠ Chip.ds18s20Model := by
            rw [← family_of_meant hmeant]
            exact hfamily
          rw [if_pos hmeant, if_pos ⟨hmeant, hblank, hmodel, hne⟩,
            written_set_configuration hmodel]
        · rw [if_neg hmeant, if_neg fun h => hmeant h.1]
      · next heq =>
        rw [Bus.chips_reset, map_ite_eq_self]
        rintro c hc ⟨hmeant, hblank, -, hne⟩
        obtain ⟨rfl, -⟩ := eq_of_connected D hconnected hc hmeant
        exact heq hne

theorem chips_map {f : Slave → Slave} (hf : ∀ s, (f s).chip = g s.chip) :
    Bus.chips (bus.map f) = bus.chips.map g := by
  rw [Bus.chips, Bus.chips, List.map_map, List.map_map]
  exact List.map_congr_left fun s hs => hf s

theorem chips_saveScratchPad {o : Option (Vector UInt8 8)} :
    (saveScratchPad (o.map Vector.toList) bus).2.chips = bus.chips.map fun c =>
      if Command.meant o c then c.copyScratch else c := by
  cases o with
  | some deviceAddress =>
    rw [Option.map_some, saveScratchPad_eq Vector.length_toList, Bus.chips_reset, chips_update]
    rfl
  | none =>
    rcases eq_or_ne bus [] with rfl | hbus
    · rfl
    · rw [Option.map_none, saveScratchPad, reset_of_ne_nil hbus]
      dsimp only
      rw [if_neg (by decide), Bus.write_skip, Bus.chips_reset,
        chips_map (g := Chip.copyScratch) fun s => rfl]
      rfl

theorem chips_awaitRecall {n : Nat} (h : ∀ s ∈ bus, s.mode = .idle) :
    (awaitRecall n bus).2.chips = bus.chips := by
  cases n with
  | zero => rfl
  | succ n =>
    have hlevel : bus.level true = true := by
      rw [Bus.level, Bool.true_and, List.all_eq_true]
      intro s hs
      rw [Slave.sends, h s hs]
    rw [awaitRecall, Bus.readBit, hlevel]
    dsimp only
    rw [if_pos rfl, Bus.chips_reset, Bus.chips, Bus.writeBit, List.map_map]
    apply List.map_congr_left
    intro s hs
    rw [Function.comp_apply, Slave.slot, h s hs]

theorem chips_recallScratchPad {n : Nat} {o : Option (Vector UInt8 8)} :
    (recallScratchPad n (o.map Vector.toList) bus).2.chips = bus.chips.map fun c =>
      if Command.meant o c then c.recallScratch else c := by
  rcases eq_or_ne bus [] with rfl | hbus
  · rfl
  · rw [recallScratchPad, reset_of_ne_nil hbus]
    dsimp only
    rw [if_neg (by decide)]
    cases o with
    | some deviceAddress =>
      rw [Option.map_some]
      dsimp only
      rw [Bus.select_eq Vector.length_toList, Bus.write_function, chips_awaitRecall]
      · apply chips_map
        intro s
        by_cases hmeant : s.chip.meant deviceAddress.toList
        · simp [hmeant, Command.meant]
          rfl
        · simp [hmeant, Command.meant]
          rfl
      · intro s hs
        obtain ⟨t, ht, rfl⟩ := List.mem_map.mp hs
        split <;> rfl
    | none =>
      rw [Option.map_none]
      dsimp only
      rw [Bus.write_skip, chips_awaitRecall]
      · rw [chips_map (g := Chip.recallScratch) fun s => rfl]
        rfl
      · intro s hs
        obtain ⟨t, ht, rfl⟩ := List.mem_map.mp hs
        rfl

/-- What a command does to the devices. -/
theorem chips_exec (D : Distinct d.wire.bus) :
    (d.exec cmd).wire.bus.chips =
      d.wire.bus.chips.map (cmd.effect d.autoSaveScratchPad) := by
  have htakes (deviceAddress : Vector UInt8 8) (c : Chip) :
      Command.takes deviceAddress c ↔ c.meant deviceAddress.toList ∧ blank c = false := by
    rw [Command.takes, Bool.and_eq_true, Bool.not_eq_true']
  cases cmd with
  | setHighAlarmTemp deviceAddress celsius =>
    refine (chips_setAlarmTemp D Vector.length_toList).trans (List.map_congr_left fun c hc => ?_)
    have hstored : c.registers.getD 2 0 = c.highAlarmTemp := by
      rw [Chip.registers_eq]
      rfl
    rw [hstored, written_set_high, Command.effect]
    simp only [htakes, and_assoc]
  | setLowAlarmTemp deviceAddress celsius =>
    refine (chips_setAlarmTemp D Vector.length_toList).trans (List.map_congr_left fun c hc => ?_)
    have hstored : c.registers.getD 3 0 = c.lowAlarmTemp := by
      rw [Chip.registers_eq]
      rfl
    rw [hstored, written_set_low, Command.effect]
    simp only [htakes, and_assoc]
  | setUserData deviceAddress data =>
    refine (chips_setUserData D Vector.length_toList).trans (List.map_congr_left fun c hc => ?_)
    rw [Command.effect]
    simp only [htakes, and_assoc]
  | setResolution deviceAddress newResolution =>
    refine (chips_setDeviceResolution D Vector.length_toList).trans
      (List.map_congr_left fun c hc => ?_)
    rw [Command.effect]
    simp only [htakes, and_assoc]
  | saveScratchPad o => exact chips_saveScratchPad
  | recallScratchPad n o => exact chips_recallScratchPad
  | setAutoSaveScratchPad flag => exact (List.map_id' _).symm
  | isConnected deviceAddress =>
    have hchips : (isConnected deviceAddress.toList d.wire.bus).2.chips = d.wire.bus.chips := by
      rw [isConnected_eq D Vector.length_toList]
      exact Bus.chips_reset
    exact hchips.trans (List.map_id' _).symm

theorem autoSaveScratchPad_changeScratchPad {change : List UInt8 → List UInt8} :
    (d.changeScratchPad deviceAddress change).autoSaveScratchPad = d.autoSaveScratchPad := by
  rw [changeScratchPad]
  split <;> rfl

theorem autoSaveScratchPad_setAlarmTemp :
    (d.setAlarmTemp register deviceAddress celsius).autoSaveScratchPad = d.autoSaveScratchPad := by
  rw [setAlarmTemp]
  dsimp only
  split
  · rfl
  · exact autoSaveScratchPad_changeScratchPad

theorem autoSaveScratchPad_exec :
    (d.exec cmd).autoSaveScratchPad = cmd.flag d.autoSaveScratchPad := by
  cases cmd with
  | setHighAlarmTemp deviceAddress celsius => exact autoSaveScratchPad_setAlarmTemp
  | setLowAlarmTemp deviceAddress celsius => exact autoSaveScratchPad_setAlarmTemp
  | setUserData deviceAddress data =>
    rw [exec, setUserData]
    dsimp only
    split
    · rfl
    · exact autoSaveScratchPad_changeScratchPad
  | setResolution deviceAddress newResolution =>
    rw [exec, setDeviceResolution]
    split
    · rfl
    · split <;> rfl
  | saveScratchPad o => rfl
  | recallScratchPad n o => rfl
  | setAutoSaveScratchPad flag => rfl
  | isConnected deviceAddress => rfl

theorem rom_saved : (saved autoSaveScratchPad c).rom = c.rom := by
  cases autoSaveScratchPad <;> rfl

theorem rom_effect : (cmd.effect autoSaveScratchPad c).rom = c.rom := by
  cases cmd <;> rw [Command.effect]
  all_goals
    split
    · first | rfl | exact rom_saved
    · rfl

theorem distinct_exec (D : Distinct d.wire.bus) : Distinct (d.exec cmd).wire.bus := by
  have hrom : (fun c : Chip => c.rom) ∘ cmd.effect d.autoSaveScratchPad = fun c => c.rom :=
    funext fun c => rom_effect
  rw [Distinct, chips_exec D, List.map_map, hrom]
  exact D

/-! ### A run -/

/-- Each device goes its own way through a run: what a setter says on the bus changes the device
that is meant, as it would be alone, and no other. -/
theorem chips_run (D : Distinct d.wire.bus) (cmds : List Command) :
    (cmds.foldl exec d).wire.bus.chips = d.wire.bus.chips.map fun c =>
      (cmds.foldl Command.step (d.autoSaveScratchPad, c)).2 := by
  induction cmds generalizing d with
  | nil => exact (List.map_id' _).symm
  | cons cmd cmds ih =>
    rw [List.foldl_cons, ih (distinct_exec D), chips_exec D, List.map_map,
      autoSaveScratchPad_exec]
    rfl

/-- Where the EEPROM is as the scratchpad, recalling it changes nothing. -/
theorem recallScratch_eq_self (h : c.copyScratch = c) : c.recallScratch = c := by
  have heeprom : c.eeprom = #v[c.highAlarmTemp, c.lowAlarmTemp, c.configuration] :=
    (congrArg Chip.eeprom h).symm
  have hbytes : ((c.scratchpad.set 2 c.highAlarmTemp).set 3 c.lowAlarmTemp).set 4 c.configuration =
      c.scratchpad := by
    apply Vector.ext
    intro i hi
    rw [Vector.getElem_set, Vector.getElem_set, Vector.getElem_set]
    split
    · next heq => subst heq; rfl
    · split
      · next heq => subst heq; rfl
      · split
        · next heq => subst heq; rfl
        · rfl
  have hrecall : c.recallScratch = { c with scratchpad :=
      ((c.scratchpad.set 2 c.highAlarmTemp).set 3 c.lowAlarmTemp).set 4 c.configuration } := by
    rw [Chip.recallScratch, heeprom]
    rfl
  rw [hrecall, hbytes]

theorem copyScratch_effect (h : c.copyScratch = c) :
    (cmd.effect true c).copyScratch = cmd.effect true c := by
  cases cmd <;> rw [Command.effect]
  case setAutoSaveScratchPad => exact h
  case isConnected => exact h
  case recallScratchPad =>
    rw [recallScratch_eq_self h, ite_self]
    exact h
  all_goals
    split
    · rfl
    · exact h

theorem copyScratch_run (h : c.copyScratch = c)
    (hflag : ∀ cmd ∈ cmds, cmd ≠ .setAutoSaveScratchPad false) :
    (cmds.foldl Command.step (true, c)).2.copyScratch = (cmds.foldl Command.step (true, c)).2 := by
  induction cmds generalizing c with
  | nil => exact h
  | cons cmd cmds ih =>
    have hstep : Command.step (true, c) cmd = (true, cmd.effect true c) := by
      have hcmd := hflag cmd List.mem_cons_self
      have hon : cmd.flag true = true := by
        cases cmd <;> first | rfl | skip
        case setAutoSaveScratchPad flag =>
          cases flag with
          | false => exact absurd rfl hcmd
          | true => rfl
      rw [Command.step, hon]
    rw [List.foldl_cons, hstep]
    exact ih (copyScratch_effect h) fun cmd hcmd => hflag cmd (List.mem_cons_of_mem _ hcmd)

/-- With `autoSaveScratchPad` on, no run leaves a setting that a device loses with its power. -/
theorem run_recallScratch (D : Distinct d.wire.bus) (hauto : d.autoSaveScratchPad)
    (hflag : ∀ cmd ∈ cmds, cmd ≠ .setAutoSaveScratchPad false)
    (h : ∀ c ∈ d.wire.bus.chips, c.copyScratch = c) :
    ∀ c ∈ (cmds.foldl exec d).wire.bus.chips, c.recallScratch = c := by
  intro c hc
  rw [chips_run D, hauto] at hc
  obtain ⟨c, hmem, rfl⟩ := List.mem_map.mp hc
  exact recallScratch_eq_self (copyScratch_run (h c hmem) hflag)

theorem run_recallScratch_two :
    let d : DallasTemperature :=
      ⟨⟨[], 0, 0, false, [⟨.ds18b20 7, .idle⟩, ⟨.ds18b20 5, .idle⟩]⟩, 2, 2, false, 12, true, [], 0,
        false⟩
    let cmds : List Command := [.setHighAlarmTemp (Chip.ds18b20 7).rom 30,
      .setResolution (Chip.ds18b20 5).rom 9, .setUserData (Chip.ds18b20 5).rom 1000]
    ∀ c ∈ (cmds.foldl exec d).wire.bus.chips, c.recallScratch = c :=
  run_recallScratch (by decide) rfl (by decide) (by decide)

theorem distinct_run (D : Distinct d.wire.bus) (cmds : List Command) :
    Distinct (cmds.foldl exec d).wire.bus := by
  induction cmds generalizing d with
  | nil => exact D
  | cons cmd cmds ih => exact ih (distinct_exec D)

theorem rom_run {flag : Bool} : (cmds.foldl Command.step (flag, c)).2.rom = c.rom := by
  induction cmds generalizing flag c with
  | nil => rfl
  | cons cmd cmds ih =>
    rw [List.foldl_cons, Command.step, ih]
    exact rom_effect

theorem meant_rom : c.meant c.rom.toList := decide_eq_true rfl

theorem connected_rom (D : Distinct bus) (hc : c ∈ bus.chips) :
    connected bus.chips c.rom.toList = if blank c then none else some c :=
  connected_of_mem D hc meant_rom

/-- What is read from a device after a run is what it would have alone. -/
theorem isConnected_run (D : Distinct d.wire.bus) (hc : c ∈ d.wire.bus.chips)
    (cmds : List Command) :
    (isConnected c.rom.toList (cmds.foldl exec d).wire.bus).1 =
      let c' := (cmds.foldl Command.step (d.autoSaveScratchPad, c)).2
      if blank c' then none else some c'.registers := by
  have hmem : (cmds.foldl Command.step (d.autoSaveScratchPad, c)).2 ∈
      (cmds.foldl exec d).wire.bus.chips := by
    rw [chips_run D]
    exact List.mem_map_of_mem hc
  have hconnected := connected_rom (distinct_run D cmds) hmem
  rw [rom_run] at hconnected
  rw [isConnected_eq (distinct_run D cmds) Vector.length_toList, hconnected]
  dsimp only
  split <;> rfl

theorem isConnected_run_two :
    let c := Chip.ds18b20 7
    let d : DallasTemperature :=
      ⟨⟨[], 0, 0, false, [⟨c, .idle⟩, ⟨.ds18b20 5, .idle⟩]⟩, 2, 2, false, 12, true, [], 0, false⟩
    let cmds : List Command := [.setHighAlarmTemp c.rom 30, .setResolution (Chip.ds18b20 5).rom 9]
    (isConnected c.rom.toList (cmds.foldl exec d).wire.bus).1 =
      let c' := (cmds.foldl Command.step (d.autoSaveScratchPad, c)).2
      if blank c' then none else some c'.registers :=
  isConnected_run (by decide) (by decide) _

/-! ### What is read back -/

theorem blank_of_countPerC (h : c.countPerC ≠ 0) : blank c = false := by
  rw [blank, isAllZeros, List.all_eq_false]
  refine ⟨c.countPerC, ?_, by simpa using h⟩
  exact Vector.mem_toList_iff.mpr (Vector.getElem_mem _)

@[simp] theorem highAlarmTemp_saved :
    (saved autoSaveScratchPad c).highAlarmTemp = c.highAlarmTemp := by
  cases autoSaveScratchPad <;> rfl

@[simp] theorem lowAlarmTemp_saved :
    (saved autoSaveScratchPad c).lowAlarmTemp = c.lowAlarmTemp := by
  cases autoSaveScratchPad <;> rfl

@[simp] theorem configuration_saved :
    (saved autoSaveScratchPad c).configuration = c.configuration := by
  cases autoSaveScratchPad <;> rfl

@[simp] theorem countPerC_saved : (saved autoSaveScratchPad c).countPerC = c.countPerC := by
  cases autoSaveScratchPad <;> rfl

@[simp] theorem highAlarmTemp_receive {i : Nat} :
    (c.receive i v).highAlarmTemp = if i = 2 then v else c.highAlarmTemp :=
  scratchpad_receive (by decide)

@[simp] theorem lowAlarmTemp_receive {i : Nat} :
    (c.receive i v).lowAlarmTemp = if i = 3 then v else c.lowAlarmTemp :=
  scratchpad_receive (by decide)

@[simp] theorem configuration_receive {i : Nat} :
    (c.receive i v).configuration = if i = 4 then v else c.configuration :=
  scratchpad_receive (by decide)

@[simp] theorem countPerC_receive {i : Nat} :
    (c.receive i v).countPerC = if i = 7 then v else c.countPerC :=
  scratchpad_receive (by decide)

theorem connected_exec (D : Distinct d.wire.bus) (hc : c ∈ d.wire.bus.chips)
    (hcount : (cmd.effect d.autoSaveScratchPad c).countPerC ≠ 0) :
    connected (d.exec cmd).wire.bus.chips c.rom.toList =
      some (cmd.effect d.autoSaveScratchPad c) := by
  have hmem : cmd.effect d.autoSaveScratchPad c ∈ (d.exec cmd).wire.bus.chips := by
    rw [chips_exec D]
    exact List.mem_map_of_mem hc
  have hconnected := connected_rom (distinct_exec D) hmem
  rw [rom_effect, blank_of_countPerC hcount] at hconnected
  exact hconnected

theorem toNat_high : (data >>> 8).toUInt16.toUInt8.toNat = data.toUInt16.toNat / 256 := by
  have hbits : (data.toBitVec.sshiftRight 8).setWidth 8 = (data.toBitVec >>> 8).setWidth 8 := by
    apply BitVec.eq_of_getLsbD_eq
    intro i hi
    have hlt : 8 + i < 16 := by omega
    have hle : ¬16 ≤ i := by omega
    rw [BitVec.getLsbD_setWidth, BitVec.getLsbD_setWidth, BitVec.getLsbD_sshiftRight,
      BitVec.getLsbD_ushiftRight, if_pos hlt, decide_eq_false hle]
    rfl
  have hnat : (data >>> 8).toUInt16.toUInt8.toNat = ((data.toBitVec >>> 8).setWidth 8).toNat := by
    rw [← hbits]
    rfl
  have hsame : data.toBitVec.toNat = data.toUInt16.toNat := rfl
  have hlt := data.toUInt16.toNat_lt
  rw [hnat, BitVec.toNat_setWidth, BitVec.toNat_ushiftRight, Nat.shiftRight_eq_div_pow, hsame]
  omega

theorem toNat_low : (data &&& 255).toUInt16.toUInt8.toNat = data.toUInt16.toNat % 256 := by
  have hand : (data &&& 255).toUInt16.toUInt8.toNat =
    (data.toUInt16.toNat &&& (2 ^ 8 - 1)) % 2 ^ 8 := rfl
  rw [hand, Nat.and_two_pow_sub_one_eq_mod, Nat.mod_mod]

/-- The two bytes of a number give it back. -/
theorem join_bytes : (((data >>> 8).toUInt16.toUInt8.toUInt16 <<< 8) +
    (data &&& 255).toUInt16.toUInt8.toUInt16).toInt16 = data := by
  have hlt := data.toUInt16.toNat_lt
  have hword : ((data >>> 8).toUInt16.toUInt8.toUInt16 <<< 8) +
      (data &&& 255).toUInt16.toUInt8.toUInt16 = data.toUInt16 := by
    apply UInt16.toNat_inj.mp
    have hshift : ((data >>> 8).toUInt16.toUInt8.toUInt16 <<< 8).toNat =
      (data >>> 8).toUInt16.toUInt8.toNat <<< 8 % 2 ^ 16 := rfl
    rw [UInt16.toNat_add, hshift, UInt8.toNat_toUInt16, toNat_high, toNat_low, Nat.shiftLeft_eq]
    omega
  rw [hword]
  rfl

/-- A device that a command does not mean. -/
theorem isConnected_exec_of_effect (D : Distinct d.wire.bus) (hc : c ∈ d.wire.bus.chips)
    (heffect : cmd.effect d.autoSaveScratchPad c = c) :
    (isConnected c.rom.toList (d.exec cmd).wire.bus).1 =
      (isConnected c.rom.toList d.wire.bus).1 := by
  have hmem : c ∈ (d.exec cmd).wire.bus.chips := by
    rw [chips_exec D, List.mem_map]
    exact ⟨c, hc, heffect⟩
  rw [isConnected_eq D Vector.length_toList, isConnected_eq (distinct_exec D) Vector.length_toList,
    connected_rom D hc, connected_rom (distinct_exec D) hmem]

theorem not_meant_of_ne {c' : Chip} (D : Distinct bus) (hc : c ∈ bus.chips) (hc' : c' ∈ bus.chips)
    (hne : c' ≠ c) : ¬c'.meant c.rom.toList := by
  intro hmeant
  have hrom : c'.rom = c.rom := Vector.toList_inj.mp (of_decide_eq_true hmeant)
  exact hne (List.inj_on_of_nodup_map D hc' hc hrom)

theorem takes_rom (hcount : c.countPerC ≠ 0) : Command.takes c.rom c := by
  rw [Command.takes, meant_rom, blank_of_countPerC hcount]
  rfl

theorem not_takes_of_ne {c' : Chip} (D : Distinct bus) (hc : c ∈ bus.chips) (hc' : c' ∈ bus.chips)
    (hne : c' ≠ c) : ¬Command.takes c.rom c' := by
  rw [Command.takes, Bool.and_eq_true]
  exact fun h => not_meant_of_ne D hc hc' hne h.1

/-- User data are read back, and the other devices answer as before. -/
theorem getUserData_setUserData (D : Distinct d.wire.bus) (hc : c ∈ d.wire.bus.chips)
    (hcount : c.countPerC ≠ 0) (data : Int16) :
    (getUserData c.rom.toList (d.setUserData c.rom.toList data).wire.bus).1 = data ∧
      ∀ c' ∈ d.wire.bus.chips, c' ≠ c →
        (isConnected c'.rom.toList (d.setUserData c.rom.toList data).wire.bus).1 =
          (isConnected c'.rom.toList d.wire.bus).1 := by
  let cmd : Command := .setUserData c.rom data
  have hexec : d.setUserData c.rom.toList data = d.exec cmd := rfl
  rw [hexec]
  constructor
  · let c' := cmd.effect d.autoSaveScratchPad c
    have heffect : c'.countPerC = c.countPerC ∧ userData c' = data := by
      by_cases hstored : userData c = data
      · have hsame : c' = c := if_neg fun h => h.2 hstored
        rw [hsame]
        exact ⟨rfl, hstored⟩
      · have hchanged : c' = saved d.autoSaveScratchPad ((c.receive 2
            (data >>> 8).toUInt16.toUInt8).receive 3 (data &&& 255).toUInt16.toUInt8) :=
          if_pos ⟨takes_rom hcount, hstored⟩
        rw [hchanged, userData]
        simp only [countPerC_saved, countPerC_receive, highAlarmTemp_saved, highAlarmTemp_receive,
          lowAlarmTemp_saved, lowAlarmTemp_receive]
        exact ⟨rfl, join_bytes⟩
    rw [getUserData_eq (distinct_exec D) Vector.length_toList,
      connected_exec D hc (by rw [heffect.1]; exact hcount)]
    exact heffect.2
  · intro c' hc' hne
    apply isConnected_exec_of_effect D hc'
    exact if_neg fun h => not_takes_of_ne D hc hc' hne h.1

theorem getUserData_setUserData_two :
    let c := Chip.ds18b20 7
    let d : DallasTemperature :=
      ⟨⟨[], 0, 0, false, [⟨c, .idle⟩, ⟨.ds18b20 5, .idle⟩]⟩, 2, 2, false, 12, true, [], 0, false⟩
    (getUserData c.rom.toList (d.setUserData c.rom.toList (-300)).wire.bus).1 = -300 ∧
      ∀ c' ∈ d.wire.bus.chips, c' ≠ c →
        (isConnected c'.rom.toList (d.setUserData c.rom.toList (-300)).wire.bus).1 =
          (isConnected c'.rom.toList d.wire.bus).1 :=
  getUserData_setUserData (by decide) (by decide) (by decide) (-300)

/-- What `setHighAlarmTemp` leaves in its register. -/
def takenAlarmTemp (stored celsius : Int8) : Int8 :=
  if stored = celsius then celsius else constrainAlarmTemp celsius

theorem getAlarmTemps_of_connected (D : Distinct bus) (hlen : deviceAddress.length = 8)
    (h : connected bus.chips deviceAddress = some c) :
    (getHighAlarmTemp deviceAddress bus).1 = c.highAlarmTemp.toInt8 ∧
      (getLowAlarmTemp deviceAddress bus).1 = c.lowAlarmTemp.toInt8 := by
  rw [getHighAlarmTemp, getLowAlarmTemp, getAlarmTemp_eq D hlen, getAlarmTemp_eq D hlen, h,
    Option.elim_some, Option.elim_some, Chip.registers_eq]
  exact ⟨rfl, rfl⟩

theorem effect_setHighAlarmTemp (autoSaveScratchPad : Bool) (celsius : Int8)
    (hcount : c.countPerC ≠ 0) :
    let c' := Command.effect autoSaveScratchPad (.setHighAlarmTemp c.rom celsius) c
    c'.countPerC = c.countPerC ∧ c'.lowAlarmTemp = c.lowAlarmTemp ∧
      c'.highAlarmTemp.toInt8 = takenAlarmTemp c.highAlarmTemp.toInt8 celsius := by
  rw [Command.effect, takenAlarmTemp]
  by_cases hstored : c.highAlarmTemp.toInt8 = celsius
  · rw [if_neg fun h => h.2 hstored, if_pos hstored]
    exact ⟨rfl, rfl, hstored⟩
  · rw [if_pos ⟨takes_rom hcount, hstored⟩, if_neg hstored]
    simp

theorem effect_setLowAlarmTemp (autoSaveScratchPad : Bool) (celsius : Int8)
    (hcount : c.countPerC ≠ 0) :
    let c' := Command.effect autoSaveScratchPad (.setLowAlarmTemp c.rom celsius) c
    c'.countPerC = c.countPerC ∧ c'.highAlarmTemp = c.highAlarmTemp ∧
      c'.lowAlarmTemp.toInt8 = takenAlarmTemp c.lowAlarmTemp.toInt8 celsius := by
  rw [Command.effect, takenAlarmTemp]
  by_cases hstored : c.lowAlarmTemp.toInt8 = celsius
  · rw [if_neg fun h => h.2 hstored, if_pos hstored]
    exact ⟨rfl, rfl, hstored⟩
  · rw [if_pos ⟨takes_rom hcount, hstored⟩, if_neg hstored]
    simp

/-- Each alarm temperature is read back within the range of the device, unless it was there before,
and the other one is as it was. -/
theorem getAlarmTemps_setAlarmTemp (D : Distinct d.wire.bus) (hc : c ∈ d.wire.bus.chips)
    (hcount : c.countPerC ≠ 0) (celsius : Int8) :
    let a := c.rom.toList
    (getHighAlarmTemp a (d.setHighAlarmTemp a celsius).wire.bus).1 =
        takenAlarmTemp (getHighAlarmTemp a d.wire.bus).1 celsius ∧
      (getLowAlarmTemp a (d.setHighAlarmTemp a celsius).wire.bus).1 =
        (getLowAlarmTemp a d.wire.bus).1 ∧
      (getLowAlarmTemp a (d.setLowAlarmTemp a celsius).wire.bus).1 =
        takenAlarmTemp (getLowAlarmTemp a d.wire.bus).1 celsius ∧
      (getHighAlarmTemp a (d.setLowAlarmTemp a celsius).wire.bus).1 =
        (getHighAlarmTemp a d.wire.bus).1 := by
  have hconnected : connected d.wire.bus.chips c.rom.toList = some c := by
    rw [connected_rom D hc, blank_of_countPerC hcount]
    rfl
  have hbefore := getAlarmTemps_of_connected D Vector.length_toList hconnected
  obtain ⟨hcount₁, hlow, hhigh⟩ :=
    effect_setHighAlarmTemp d.autoSaveScratchPad celsius hcount
  obtain ⟨hcount₂, hhigh', hlow'⟩ :=
    effect_setLowAlarmTemp d.autoSaveScratchPad celsius hcount
  have hset := getAlarmTemps_of_connected (distinct_exec D) Vector.length_toList
    (connected_exec D hc (by rw [hcount₁]; exact hcount))
  have hset' := getAlarmTemps_of_connected (distinct_exec D) Vector.length_toList
    (connected_exec D hc (by rw [hcount₂]; exact hcount))
  dsimp only
  rw [hbefore.1, hbefore.2]
  refine ⟨?_, ?_, ?_, ?_⟩
  · exact hset.1.trans hhigh
  · exact hset.2.trans (congrArg UInt8.toInt8 hlow)
  · exact hset'.2.trans hlow'
  · exact hset'.1.trans (congrArg UInt8.toInt8 hhigh')

end D1Mini.DallasTemperature
