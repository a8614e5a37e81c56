import D1Mini.Dallas.Devices

/-!
# `alarmSearch` of `DallasTemperature.cpp`

It is a search like that of `OneWire.cpp` with a state of its own: `alarmSearchJunction` is already
the last junction that is pending when the search comes by it, and there is no search after the one
that leaves nothing pending.
-/

namespace D1Mini.DallasTemperature
open OneWire BitTree

/-- The local variables of `alarmSearch`. -/
structure AlarmPass where
  lastJunction : Int := -1
  done : Bool := true
deriving DecidableEq, Repr

def resetAlarmSearch (d : DallasTemperature) : DallasTemperature :=
  { d with
    alarmSearchJunction := -1
    alarmSearchExhausted := false
    alarmSearchAddress := List.replicate 7 0 ++ d.alarmSearchAddress.drop 7 }

def ibit (i : Nat) : UInt8 := 1 <<< (UInt8.ofNat i &&& 7)

/-- What is decided where both bits are read as zero: the bit and `alarmSearchJunction`. -/
def alarmJunction (d : DallasTemperature) (l : AlarmPass) (i : Nat) : Bool × Int × AlarmPass :=
  if i = d.alarmSearchJunction then (true, l.lastJunction, l)
  else if i < d.alarmSearchJunction then
    if d.alarmSearchAddress.getD (i / 8) 0 &&& ibit i ≠ 0 then (true, d.alarmSearchJunction, l)
    else (false, d.alarmSearchJunction, { l with done := false, lastJunction := i })
  else (false, i, { l with done := false })

/-- The bit goes to `alarmSearchAddress` and to the bus. -/
def takeAlarmBit (d : DallasTemperature) (i : Nat) (a : Bool) : DallasTemperature :=
  { d.withBus (d.wire.bus.writeBit a) with
    alarmSearchAddress := d.alarmSearchAddress.modify (i / 8) fun v =>
      if a then v ||| ibit i else v &&& ~~~ibit i }

/-- `n` passes of the loop of `alarmSearch` from `i` on, `none` where nothing responds. -/
def alarmSearchLoop :
    Nat → Nat → DallasTemperature → AlarmPass → Option AlarmPass × DallasTemperature
  | 0, _, d, l => (some l, d)
  | n + 1, i, d, l =>
    let (a, bus) := d.wire.bus.readBit
    let (nota, bus) := bus.readBit
    let d := d.withBus bus
    if a && nota then (none, d)
    else
      let (a, alarmSearchJunction, l) :=
        if !a && !nota then d.alarmJunction l i else (a, d.alarmSearchJunction, l)
      alarmSearchLoop n (i + 1) ({ d with alarmSearchJunction }.takeAlarmBit i a) l

/-- The address that is found, `none` when `alarmSearch` returns false. -/
def alarmSearch (d : DallasTemperature) : Option (List UInt8) × DallasTemperature :=
  if d.alarmSearchExhausted then (none, d)
  else
    let (presence, bus) := d.wire.bus.reset
    if !presence then (none, d.withBus bus)
    else
      match alarmSearchLoop 64 0 (d.withBus (bus.write 0xEC)) {} with
      | (none, d) => (none, d)
      | (some l, d) =>
        let d := if l.done then { d with alarmSearchExhausted := true } else d
        (some d.alarmSearchAddress, d)

/-- The loop of `processAlarms`: the addresses that go to the handler, `none` when `n` searches are
too few. -/
def processAlarmsLoop (alarmHandler : List UInt8 → Bus → Bus) :
    Nat → DallasTemperature → Option (List (List UInt8) × DallasTemperature)
  | 0, _ => none
  | n + 1, d =>
    match d.alarmSearch with
    | (none, d) => some ([], d)
    | (some alarmAddr, d) =>
      if validAddress alarmAddr then
        (processAlarmsLoop alarmHandler n (d.withBus (alarmHandler alarmAddr d.wire.bus))).map
          fun (alarmAddrs, d) => (alarmAddr :: alarmAddrs, d)
      else processAlarmsLoop alarmHandler n d

def processAlarms (alarmHandler : Option (List UInt8 → Bus → Bus)) (n : Nat)
    (d : DallasTemperature) : Option (List (List UInt8) × DallasTemperature) :=
  match alarmHandler with
  | none => some ([], d)
  | some alarmHandler => processAlarmsLoop alarmHandler n d.resetAlarmSearch

/-- `hasAlarm` of a device. -/
def hasAlarm (deviceAddress : List UInt8) (bus : Bus) : Bool × Bus :=
  match isConnected deviceAddress bus with
  | (none, bus) => (false, bus)
  | (some scratchPad, bus) =>
    let temp := (calculateTemperature deviceAddress scratchPad >>> 7).toInt8
    (if temp ≤ (scratchPad.getD 3 0).toInt8 then true
      else decide (temp ≥ (scratchPad.getD 2 0).toInt8), bus)

/-- `hasAlarm` of the bus. -/
def hasAnyAlarm (d : DallasTemperature) : Bool × DallasTemperature :=
  let (alarmAddr, d) := d.resetAlarmSearch.alarmSearch
  (alarmAddr.isSome, d)

/-! ### One pass -/

variable {d d' : DallasTemperature} {l l' : AlarmPass} {i k n : Nat} {b : Bool} {last J : Int}
  {path prev as : List Bool} {bus : Bus} {active : Chip → Bool} {junction : Option Nat}
  {ds : List (List Bool)}

/-- The last junction that is pending, seen from the bit `i`. -/
def lastAt (i : Nat) (last : Int) (o : Option Nat) : Int := o.elim last fun k => (i + k : Nat)

/-- `alarmSearch` before the bit `i`, with `last` for what is pending before it. -/
structure AlarmPass.At (l : AlarmPass) (alarmSearchJunction : Int) (i : Nat)
    (junction : Option Nat) (last : Int) : Prop where
  up : ∀ k, junction = some k → alarmSearchJunction = i + k ∧ l.lastJunction = last
  down : junction = none → alarmSearchJunction = last
  lt : last < i
  done : l.done = decide (last = -1)

theorem ibit_eq_mask : ∀ i < 64, ibit i = mask (i % 8) := by decide

theorem ibit_ne_zero (hi : i < 64) : d.alarmSearchAddress.getD (i / 8) 0 &&& ibit i ≠ 0 ↔
    (bytesBits d.alarmSearchAddress).getD i false := by
  have hpos (v : UInt8) : v ≠ 0 ↔ v > 0 := by
    rw [gt_iff_lt, UInt8.lt_iff_toNat_lt, Ne, ← UInt8.toNat_inj]
    exact Nat.pos_iff_ne_zero.symm
  rw [hpos, ibit_eq_mask i hi]
  exact getD_and_mask_pos

/-- A junction before the next one is passed as before. -/
theorem alarmJunction_of_lt (hi : i < 64) (hlt : i < d.alarmSearchJunction)
    (hbit : (bytesBits d.alarmSearchAddress).getD i false = b) : d.alarmJunction l i =
      (b, d.alarmSearchJunction, if b then l else { l with done := false, lastJunction := i }) := by
  rw [alarmJunction, if_neg (Int.ne_of_lt hlt), if_pos hlt]
  cases b with
  | true => rw [if_pos ((ibit_ne_zero hi).mpr hbit), if_pos rfl]
  | false =>
    have hzero : ¬(bytesBits d.alarmSearchAddress).getD i false := by rw [hbit]; decide
    rw [if_neg fun h => hzero ((ibit_ne_zero hi).mp h), if_neg Bool.false_ne_true]

/-- At a junction the code takes the way of the walk. -/
theorem alarmJunction_eq (H : l.At d.alarmSearchJunction i junction last) (hi : i < 64)
    (hb : turn junction ((bytesBits d.alarmSearchAddress).getD i false) = b) :
    ∃ J l', d.alarmJunction l i = (b, J, l') ∧
      l'.At J (i + 1) (approach junction) (if b = false then i else last) := by
  have hlt := H.lt
  rcases junction with _ | _ | k
  · obtain rfl : false = b := hb
    have hJ := H.down rfl
    refine ⟨i, { l with done := false }, ?_, ?_⟩
    · rw [alarmJunction, if_neg (by omega), if_neg (by omega)]
    · rw [if_pos rfl]
      exact ⟨nofun, fun _ => rfl, by omega, (decide_eq_false (by omega)).symm⟩
  · obtain rfl : true = b := hb
    obtain ⟨hJ, hlast⟩ := H.up 0 rfl
    refine ⟨l.lastJunction, l, ?_, ?_⟩
    · rw [alarmJunction, if_pos (by omega)]
    · rw [if_neg (by decide)]
      exact ⟨nofun, fun _ => hlast, by omega, H.done⟩
  · obtain ⟨hJ, hlast⟩ := H.up _ rfl
    refine ⟨_, _, alarmJunction_of_lt hi (by omega) hb, ?_⟩
    cases b with
    | true =>
      rw [if_pos rfl, if_neg (by decide)]
      exact ⟨by rintro k ⟨⟩; exact ⟨by omega, hlast⟩, nofun, by omega, H.done⟩
    | false =>
      rw [if_neg (by decide), if_pos rfl]
      exact ⟨by rintro k ⟨⟩; exact ⟨by omega, rfl⟩, nofun, by omega,
        (decide_eq_false (by omega)).symm⟩

/-- Where there is one way only, nothing changes. -/
theorem AlarmPass.At.next (H : l.At J i junction last) (hjunction : junction ≠ some 0) :
    l.At J (i + 1) (approach junction) last := by
  have hlt := H.lt
  rcases junction with _ | _ | k
  · exact ⟨nofun, H.down, by omega, H.done⟩
  · exact absurd rfl hjunction
  · obtain ⟨hJ, hlast⟩ := H.up _ rfl
    exact ⟨by rintro k ⟨⟩; exact ⟨by omega, hlast⟩, nofun, by omega, H.done⟩

/-- One pass where an address is left. -/
theorem alarmSearchLoop_succ (A : Along bus active path prev d.alarmSearchAddress d.wire.bus)
    (hprev : prev ≠ []) (hb : branch b (behind path (bus.addresses active)) ≠ [])
    (hjunction : (if branch (!b) (behind path (bus.addresses active)) = [] then
      (b, d.alarmSearchJunction, l) else d.alarmJunction l path.length) = (b, J, l')) :
    ∃ d', alarmSearchLoop (n + 1) path.length d l = alarmSearchLoop n (path.length + 1) d' l' ∧
      Along bus active (path ++ [b]) prev.tail d'.alarmSearchAddress d'.wire.bus ∧
      d'.alarmSearchJunction = J ∧ d'.alarmSearchExhausted = d.alarmSearchExhausted := by
  have hi : path.length < 64 := by
    have hlen := A.length_prev
    have hpos := List.length_pos_of_ne_nil hprev
    omega
  let ds := behind path (bus.addresses active)
  let d₁ : DallasTemperature := d.withBus (bus.within active .searchDirection path)
  have hnone : ¬(decide (branch false ds = []) && decide (branch true ds = [])) := by
    cases b <;> simp [ds, hb]
  have hway : (if !decide (branch false ds = []) && !decide (branch true ds = []) then
      d₁.alarmJunction l path.length
      else (decide (branch false ds = []), d₁.alarmSearchJunction, l)) =
      (b, J, l') := by
    rw [← hjunction]
    have hsame : d₁.alarmJunction l path.length = d.alarmJunction l path.length := rfl
    cases b with
    | false =>
      by_cases ht : branch true ds = []
      · simp [ds, hb, ht, d₁, withBus]
      · simp [ds, hb, ht, hsame]
    | true =>
      by_cases hf : branch false ds = []
      · simp [ds, hf, d₁, withBus]
      · simp [ds, hb, hf, hsame]
  refine ⟨({ d₁ with alarmSearchJunction := J }).takeAlarmBit path.length b, ?_, ?_, rfl, rfl⟩
  · rw [alarmSearchLoop, A.bus, readBit_searchBit]
    dsimp only
    rw [readBit_searchComplement]
    dsimp only
    rw [if_neg hnone, hway]
  · have htake := A.take hprev b
    rw [← ibit_eq_mask _ hi] at htake
    exact htake

/-- What a pass makes of the way of the walk. -/
theorem pass_at {p : Bool} (A : Along bus active path (p :: prev) d.alarmSearchAddress d.wire.bus)
    (H : l.At d.alarmSearchJunction path.length junction last)
    (hjunction : junction = some 0 → p :: prev ∈ behind path (bus.addresses active) ∧
      pending (p :: prev) (behind path (bus.addresses active)) = some 0)
    (hb : choose junction p (behind path (bus.addresses active)) = b)
    (hbranch : branch b (behind path (bus.addresses active)) ≠ []) :
    ∃ J l', (if branch (!b) (behind path (bus.addresses active)) = [] then
        (b, d.alarmSearchJunction, l) else d.alarmJunction l path.length) = (b, J, l') ∧
      l'.At J (path.length + 1) (approach junction)
        (if b = false ∧ branch true (behind path (bus.addresses active)) ≠ [] then path.length
          else last) := by
  have hi : path.length < 64 := by
    have hlen := A.length_prev
    rw [List.length_cons] at hlen
    omega
  by_cases hother : branch (!b) (behind path (bus.addresses active)) = []
  · rw [if_pos hother]
    refine ⟨_, _, rfl, ?_⟩
    have hlast : ¬(b = false ∧ branch true (behind path (bus.addresses active)) ≠ []) := by
      rintro ⟨rfl, ht⟩
      exact ht hother
    rw [if_neg hlast]
    apply H.next
    intro hup
    obtain ⟨hmem, hk⟩ := hjunction hup
    obtain ⟨hp, ht⟩ := pending_eq_zero hk
    have hf := branch_ne_nil hmem
    rw [List.headD_cons] at hp
    rw [hp] at hf
    cases b with
    | false => exact ht hother
    | true => exact hf hother
  · rw [if_neg hother]
    have hfork : branch true (behind path (bus.addresses active)) ≠ [] ∧
        branch false (behind path (bus.addresses active)) ≠ [] := by
      cases b with
      | false => exact ⟨hother, hbranch⟩
      | true => exact ⟨hbranch, hother⟩
    have hturn : turn junction ((bytesBits d.alarmSearchAddress).getD path.length false) = b := by
      rw [A.getD, List.headD_cons, ← hb, choose, if_neg hfork.1, if_neg hfork.2]
    obtain ⟨J, l', hway, H'⟩ := alarmJunction_eq H hi hturn
    refine ⟨J, l', hway, ?_⟩
    simp only [hfork.1, ne_eq, not_false_eq_true, and_true]
    exact H'

theorem approach_eq_some : approach junction = some k ↔ junction = some (k + 1) := by
  rcases junction with _ | _ | _ <;> simp [approach]

theorem lastAt_pending : lastAt i last (pending (b :: as) ds) =
    lastAt (i + 1) (if b = false ∧ branch true ds ≠ [] then i else last)
      (pending as (branch b ds)) := by
  have hpos : (fun k => ((i + (k + 1) : Nat) : Int)) = fun k => ((i + 1 + k : Nat) : Int) := by
    funext k
    omega
  rw [lastAt, pending_elim, hpos, lastAt]
  rfl

/-! ### The loop -/

/-- The loop takes the walk to its end. -/
theorem alarmSearchLoop_eq (U : Uniform 64 (bus.addresses active))
    (A : Along bus active path prev d.alarmSearchAddress d.wire.bus)
    (H : l.At d.alarmSearchJunction path.length junction last) (hn : path.length + n = 64)
    (hds : behind path (bus.addresses active) ≠ [])
    (hjunction : ∀ k, junction = some k → prev ∈ behind path (bus.addresses active) ∧
      pending prev (behind path (bus.addresses active)) = some k)
    (has : walk n junction prev (behind path (bus.addresses active)) = as) :
    ∃ d' l', alarmSearchLoop n path.length d l = (some l', d') ∧
      Along bus active (path ++ as) [] d'.alarmSearchAddress d'.wire.bus ∧
      d'.alarmSearchJunction =
        lastAt path.length last (pending as (behind path (bus.addresses active))) ∧
      l'.done = decide (d'.alarmSearchJunction = -1) ∧
      d'.alarmSearchExhausted = d.alarmSearchExhausted := by
  induction n generalizing path prev d l as junction last with
  | zero =>
    have hprev : prev = [] := List.eq_nil_of_length_eq_zero (by have := A.length_prev; omega)
    rw [hprev] at A hjunction
    have hdown : junction = none := by
      cases junction with
      | none => rfl
      | some k => exact absurd (hjunction k rfl).2 nofun
    have hJ := H.down hdown
    rw [← has, walk, List.append_nil]
    exact ⟨d, l, rfl, A, hJ, by rw [hJ]; exact H.done, rfl⟩
  | succ n ih =>
    have hprev : prev ≠ [] := List.ne_nil_of_length_pos (by have := A.length_prev; omega)
    obtain ⟨p, prev, rfl⟩ := List.exists_cons_of_ne_nil hprev
    rw [walk] at has
    generalize hb : choose junction ((p :: prev).headD false)
      (behind path (bus.addresses active)) = b at has
    have hbranch : branch b (behind path (bus.addresses active)) ≠ [] := by
      rw [← hb]
      exact branch_choose_ne_nil (Uniform.behind (hn ▸ U)) hds
    obtain ⟨J, l₁, hpass, H₁⟩ := pass_at A H (fun h => hjunction 0 h) hb hbranch
    obtain ⟨d₁, hloop, A₁, rfl, hex₁⟩ := alarmSearchLoop_succ (n := n) A hprev hbranch hpass
    have hpath : path.length + 1 = (path ++ [b]).length := by
      rw [List.length_append, List.length_singleton]
    rw [hpath, branch_behind] at H₁
    rw [branch_behind] at has hbranch
    have hjunction₁ (k : Nat) (hk : approach junction = some k) :
        prev ∈ behind (path ++ [b]) (bus.addresses active) ∧
          pending prev (behind (path ++ [b]) (bus.addresses active)) = some k := by
      have hup := approach_eq_some.mp hk
      obtain ⟨hmem, hpending⟩ := hjunction _ hup
      have hp : p = b := by
        rw [← hb, hup, List.headD_cons, choose_succ (branch_ne_nil hmem)]
      rw [← branch_behind, ← hp]
      exact ⟨mem_branch.mpr hmem, pending_eq_succ hpending⟩
    obtain ⟨d', l', hrest, A', hJ, hdone, hex⟩ := ih A₁ H₁ (by omega) hbranch hjunction₁ rfl
    rw [List.append_assoc] at A'
    refine ⟨d', l', ?_, ?_, ?_, hdone, hex.trans hex₁⟩
    · rw [hloop, hpath]
      exact hrest
    · rw [← has]
      exact A'
    · rw [hJ, ← has, lastAt_pending, hpath, branch_behind, branch_behind]

/-! ### One search -/

/-- The alarms on the bus. -/
def alarmed (bus : Bus) : List (List Bool) := bus.addresses (searched false)

theorem write_alarmSearch :
    bus.reset.2.write 0xEC = bus.within (searched false) .searchBit [] := by
  have h : bus.reset.2.write (if false then 0xF0 else 0xEC) =
    bus.within (searched false) .searchBit [] := write_search
  rw [if_neg Bool.false_ne_true] at h
  exact h

/-- Nobody responds where there is no alarm. -/
theorem alarmSearch_eq_none (hexhausted : d.alarmSearchExhausted = false)
    (hds : alarmed d.wire.bus = []) :
    ∃ bus, d.alarmSearch = (none, d.withBus bus) ∧ bus.chips = d.wire.bus.chips := by
  rw [alarmSearch, if_neg (by rw [hexhausted]; exact Bool.false_ne_true)]
  cases hbus : d.wire.bus with
  | nil => exact ⟨[], rfl, rfl⟩
  | cons s bus =>
    have hreset : Bus.reset (s :: bus) = (true, (Bus.reset (s :: bus)).2) := rfl
    have hbranch (b : Bool) :
        branch b (behind [] (Bus.addresses (s :: bus) (searched false))) = [] := by
      rw [hbus] at hds
      rw [behind_nil, ← alarmed, hds]
      rfl
    rw [hreset]
    dsimp only
    rw [write_alarmSearch, alarmSearchLoop]
    dsimp only [withBus]
    rw [readBit_searchBit]
    dsimp only
    rw [readBit_searchComplement, hbranch, hbranch]
    exact ⟨_, rfl, chips_within⟩

theorem alarmSearch_of_loop (hexhausted : d.alarmSearchExhausted = false)
    (hds : alarmed d.wire.bus ≠ [])
    (hloop : alarmSearchLoop 64 0
        (d.withBus (d.wire.bus.within (searched false) .searchBit [])) {} =
      (some l', d')) :
    d.alarmSearch = (some d'.alarmSearchAddress,
      if l'.done then { d' with alarmSearchExhausted := true } else d') := by
  rw [alarmSearch, if_neg (by rw [hexhausted]; exact Bool.false_ne_true), reset_of_addresses hds]
  dsimp only
  rw [if_neg (by decide), write_alarmSearch, hloop]
  dsimp only
  cases l'.done <;> rfl

/-- `alarmSearch` where there is an alarm. -/
theorem alarmSearch_eq_some (hexhausted : d.alarmSearchExhausted = false)
    (hlen : d.alarmSearchAddress.length = 8) (hds : alarmed d.wire.bus ≠ [])
    (hjunction : d.alarmSearchJunction = lastAt 0 (-1) junction)
    (hpending : ∀ k, junction = some k → bytesBits d.alarmSearchAddress ∈ alarmed d.wire.bus ∧
      pending (bytesBits d.alarmSearchAddress) (alarmed d.wire.bus) = some k)
    (has : walk 64 junction (bytesBits d.alarmSearchAddress) (alarmed d.wire.bus) = as) :
    ∃ d', d.alarmSearch = (some d'.alarmSearchAddress, d') ∧ d'.alarmSearchAddress.length = 8 ∧
      bytesBits d'.alarmSearchAddress = as ∧ d'.wire.bus.chips = d.wire.bus.chips ∧
      d'.alarmSearchJunction = lastAt 0 (-1) (pending as (alarmed d.wire.bus)) ∧
      d'.alarmSearchExhausted = decide (d'.alarmSearchJunction = -1) := by
  let d₁ := d.withBus (d.wire.bus.within (searched false) .searchBit [])
  have A : Along d.wire.bus (searched false) [] (bytesBits d.alarmSearchAddress)
      d₁.alarmSearchAddress d₁.wire.bus := ⟨hlen, rfl, rfl⟩
  have H : AlarmPass.At {} d₁.alarmSearchJunction 0 junction (-1) := by
    have hJ : d₁.alarmSearchJunction = lastAt 0 (-1) junction := hjunction
    cases junction with
    | none => exact ⟨nofun, fun _ => hJ, by decide, rfl⟩
    | some k =>
      refine ⟨?_, nofun, by decide, rfl⟩
      rintro k ⟨⟩
      rw [hJ, lastAt, Option.elim_some]
      exact ⟨by omega, rfl⟩
  have hbehind : behind [] (d.wire.bus.addresses (searched false)) = alarmed d.wire.bus :=
    behind_nil
  rw [← hbehind] at hds hpending has
  obtain ⟨d', l', hloop, A', hJ, hdone, hex⟩ :=
    alarmSearchLoop_eq uniform_addresses A H rfl hds hpending has
  rw [hbehind] at hJ
  rw [List.nil_append] at A'
  have hmem : bytesBits d'.alarmSearchAddress = as := by rw [A'.bits, List.append_nil]
  have hchips : d'.wire.bus.chips = d.wire.bus.chips := by
    rw [A'.bus]
    exact chips_within
  rw [alarmSearch_of_loop hexhausted (hbehind ▸ hds) hloop]
  cases hend : l'.done with
  | true =>
    rw [hend] at hdone
    exact ⟨{ d' with alarmSearchExhausted := true }, rfl, A'.length, hmem, hchips, hJ, hdone⟩
  | false =>
    rw [hend] at hdone
    exact ⟨d', rfl, A'.length, hmem, hchips, hJ, hex.trans (hexhausted.trans hdone)⟩

/-! ### Every alarm -/

/-- The object between two searches, with the alarms that are still to come. -/
structure Alarms (addresses : List (List Bool)) (d : DallasTemperature) : Prop where
  length : d.alarmSearchAddress.length = 8
  state :
    d.alarmSearchJunction = -1 ∧ d.alarmSearchExhausted = false ∧
        Enumerates {as | as ∈ alarmed d.wire.bus} addresses ∨
      bytesBits d.alarmSearchAddress ∈ alarmed d.wire.bus ∧
        d.alarmSearchJunction =
          lastAt 0 (-1) (pending (bytesBits d.alarmSearchAddress) (alarmed d.wire.bus)) ∧
        d.alarmSearchExhausted = decide (d.alarmSearchJunction = -1) ∧
        Enumerates {as | as ∈ alarmed d.wire.bus ∧ bytesBits d.alarmSearchAddress < as} addresses

variable {addresses : List (List Bool)}

/-- What happens on the bus between two searches does not matter, as long as the alarms stay. -/
theorem Alarms.withBus (H : Alarms addresses d) (h : alarmed bus = alarmed d.wire.bus) :
    Alarms addresses (d.withBus bus) := by
  refine ⟨H.length, ?_⟩
  have hsame : alarmed (d.withBus bus).wire.bus = alarmed d.wire.bus := h
  rw [hsame]
  exact H.state

/-- A search that finds nothing more leaves all as it is. -/
theorem Alarms.alarmSearch_nil (H : Alarms [] d) :
    ∃ bus, d.alarmSearch = (none, d.withBus bus) ∧ bus.chips = d.wire.bus.chips := by
  rcases H.state with ⟨-, hex, E⟩ | ⟨hmem, hJ, hex, E⟩
  · apply alarmSearch_eq_none hex
    apply List.eq_nil_iff_forall_not_mem.mpr
    exact fun as has => E.eq_empty has
  · rw [hJ, E.pending_eq_none uniform_addresses hmem] at hex
    exact ⟨d.wire.bus, by rw [alarmSearch, hex]; rfl, rfl⟩

/-- A search finds the next alarm. -/
theorem Alarms.alarmSearch_cons (H : Alarms (as :: addresses) d) :
    ∃ d', d.alarmSearch = (some d'.alarmSearchAddress, d') ∧
      bytesBits d'.alarmSearchAddress = as ∧ d'.wire.bus.chips = d.wire.bus.chips ∧
      Alarms addresses d' := by
  have hmem : as ∈ alarmed d.wire.bus := by
    rcases H.state with ⟨-, -, E⟩ | ⟨-, -, -, E⟩
    · exact E.isLeast.1
    · exact E.isLeast.1.1
  have hnext : ∃ junction, d.alarmSearchExhausted = false ∧
      d.alarmSearchJunction = lastAt 0 (-1) junction ∧
      (∀ k, junction = some k → bytesBits d.alarmSearchAddress ∈ alarmed d.wire.bus ∧
        pending (bytesBits d.alarmSearchAddress) (alarmed d.wire.bus) = some k) ∧
      walk 64 junction (bytesBits d.alarmSearchAddress) (alarmed d.wire.bus) = as := by
    rcases H.state with ⟨hJ, hex, E⟩ | ⟨hprev, hJ, hex, E⟩
    · exact ⟨none, hex, hJ, nofun, E.walk_first uniform_addresses _⟩
    · obtain ⟨k, hk, hwalk⟩ := E.walk_next uniform_addresses hprev
      have hopen : d.alarmSearchJunction ≠ -1 := by
        rw [hJ, hk, lastAt, Option.elim_some]
        omega
      refine ⟨some k, hex.trans (decide_eq_false hopen), hk ▸ hJ, ?_, hwalk⟩
      rintro k ⟨⟩
      exact ⟨hprev, hk⟩
  have hrest : Enumerates {cs | cs ∈ alarmed d.wire.bus ∧ as < cs} addresses := by
    rcases H.state with ⟨-, -, E⟩ | ⟨-, -, -, E⟩
    · exact E.tail
    · exact E.tail_lt
  obtain ⟨junction, hex, hJ, hpending, hwalk⟩ := hnext
  obtain ⟨d', hsearch, hlen, hbits, hchips, hJ', hex'⟩ :=
    alarmSearch_eq_some hex H.length (List.ne_nil_of_mem hmem) hJ hpending hwalk
  have hsame : alarmed d'.wire.bus = alarmed d.wire.bus := addresses_eq hchips
  refine ⟨d', hsearch, hbits, hchips, hlen, .inr ?_⟩
  rw [hsame, hbits]
  exact ⟨hmem, hJ', hex', hrest⟩

theorem alarms_resetAlarmSearch (hlen : d.alarmSearchAddress.length = 8) :
    ∃ addresses, Enumerates {as | as ∈ alarmed d.wire.bus} addresses ∧
      Alarms addresses d.resetAlarmSearch := by
  obtain ⟨addresses, E⟩ := exists_enumerates (alarmed d.wire.bus)
  refine ⟨addresses, E, ?_, .inl ⟨rfl, rfl, E⟩⟩
  rw [resetAlarmSearch, List.length_append, List.length_drop, List.length_replicate, hlen]

theorem Alarms.processAlarmsLoop {alarmHandler : List UInt8 → Bus → Bus}
    (hhandler : ∀ alarmAddr bus, alarmed (alarmHandler alarmAddr bus) = alarmed bus)
    (H : Alarms addresses d) :
    ∃ (roms : List (List UInt8)) (d' : DallasTemperature), (∀ n > addresses.length,
        DallasTemperature.processAlarmsLoop alarmHandler n d =
          some (roms.filter validAddress, d')) ∧
      roms.map bytesBits = addresses ∧ (∀ rom ∈ roms, rom.length = 8) ∧
      d'.alarmSearch.1 = none := by
  induction addresses generalizing d with
  | nil =>
    obtain ⟨bus, hsearch, hchips⟩ := H.alarmSearch_nil
    have H' : Alarms [] (d.withBus bus) := H.withBus (addresses_eq hchips)
    obtain ⟨bus', hsearch', -⟩ := H'.alarmSearch_nil
    refine ⟨[], d.withBus bus, fun n hn => ?_, rfl, nofun, congrArg Prod.fst hsearch'⟩
    obtain ⟨n, rfl⟩ := Nat.exists_eq_add_one.mpr hn
    rw [DallasTemperature.processAlarmsLoop, hsearch]
    rfl
  | cons as addresses ih =>
    obtain ⟨d₁, hsearch, hbits, hchips, H₁⟩ := H.alarmSearch_cons
    cases hvalid : validAddress d₁.alarmSearchAddress with
    | true =>
      obtain ⟨roms, d', hloop, hroms, hlen, hnone⟩ := ih (H₁.withBus (hhandler _ _))
      refine ⟨d₁.alarmSearchAddress :: roms, d', fun n hn => ?_, ?_, ?_, hnone⟩
      · obtain ⟨n, rfl⟩ := Nat.exists_eq_add_one.mpr (Nat.zero_lt_of_lt hn)
        rw [DallasTemperature.processAlarmsLoop, hsearch]
        dsimp only
        rw [if_pos hvalid, hloop n (Nat.lt_of_succ_lt_succ hn), List.filter_cons_of_pos hvalid]
        rfl
      · rw [List.map_cons, hbits, hroms]
      · rw [List.forall_mem_cons]
        exact ⟨H₁.length, hlen⟩
    | false =>
      obtain ⟨roms, d', hloop, hroms, hlen, hnone⟩ := ih H₁
      refine ⟨d₁.alarmSearchAddress :: roms, d', fun n hn => ?_, ?_, ?_, hnone⟩
      · obtain ⟨n, rfl⟩ := Nat.exists_eq_add_one.mpr (Nat.zero_lt_of_lt hn)
        have hskip : ¬validAddress d₁.alarmSearchAddress := by rw [hvalid]; exact Bool.false_ne_true
        rw [DallasTemperature.processAlarmsLoop, hsearch]
        dsimp only
        rw [if_neg hskip, hloop n (Nat.lt_of_succ_lt_succ hn), List.filter_cons_of_neg hskip]
      · rw [List.map_cons, hbits, hroms]
      · rw [List.forall_mem_cons]
        exact ⟨H₁.length, hlen⟩

theorem mem_alarmed : as ∈ alarmed bus ↔ ∃ c ∈ bus.chips, c.alarm ∧ c.address = as := by
  simp [alarmed, Bus.addresses, searched, and_assoc]

/-- `processAlarms` gives each device in alarm with a valid address to the handler, once and in
order, if the handler leaves the alarms as they are. -/
theorem processAlarms_enumerates {alarmHandler : List UInt8 → Bus → Bus}
    (hlen : d.alarmSearchAddress.length = 8)
    (hhandler : ∀ alarmAddr bus, alarmed (alarmHandler alarmAddr bus) = alarmed bus) :
    ∃ alarmAddrs d',
      (∀ n > d.wire.bus.length, d.processAlarms (some alarmHandler) n = some (alarmAddrs, d')) ∧
      Enumerates {as | ∃ c ∈ d.wire.bus.chips, c.alarm ∧ valid c ∧ c.address = as}
        (alarmAddrs.map bytesBits) ∧
      d'.alarmSearch.1 = none := by
  obtain ⟨addresses, E, H⟩ := alarms_resetAlarmSearch hlen
  obtain ⟨roms, d', hloop, hroms, hlen, hnone⟩ := H.processAlarmsLoop hhandler
  have hcount : addresses.length ≤ d.wire.bus.length := by
    have hsub : addresses ⊆ alarmed d.wire.bus := fun as has => (E.mem_iff as).mp has
    have hle := (List.subperm_of_subset E.sorted.nodup hsub).length_le
    rw [alarmed, Bus.addresses, List.length_map] at hle
    exact hle.trans ((List.length_filter_le _ _).trans (List.length_map _).le)
  refine ⟨roms.filter validAddress, d', fun n hn => hloop n (hcount.trans_lt hn), ⟨?_, ?_⟩, hnone⟩
  · rw [← hroms] at E
    exact E.sorted.sublist (List.filter_sublist.map _)
  · intro as
    have hrom (rom : List UInt8) (hrom : rom ∈ roms) (c : Chip) (hc : c.address = bytesBits rom) :
        rom = c.rom.toList := by
      apply bytesBits_injective _ hc.symm
      rw [hlen rom hrom, Vector.length_toList]
    rw [List.mem_map]
    constructor
    · rintro ⟨rom, hmem, rfl⟩
      rw [List.mem_filter] at hmem
      have hfound : bytesBits rom ∈ addresses := by
        rw [← hroms]
        exact List.mem_map_of_mem hmem.1
      obtain ⟨c, hc, halarm, haddress⟩ := mem_alarmed.mp ((E.mem_iff _).mp hfound)
      refine ⟨c, hc, halarm, ?_, haddress⟩
      rw [valid, ← hrom rom hmem.1 c haddress]
      exact hmem.2
    · rintro ⟨c, hc, halarm, hvalid, rfl⟩
      have hfound : c.address ∈ addresses :=
        (E.mem_iff _).mpr (mem_alarmed.mpr ⟨c, hc, halarm, rfl⟩)
      rw [← hroms] at hfound
      obtain ⟨rom, hmem, hbits⟩ := List.mem_map.mp hfound
      refine ⟨rom, List.mem_filter.mpr ⟨hmem, ?_⟩, hbits⟩
      rw [hrom rom hmem c hbits.symm]
      exact hvalid

theorem processAlarms_enumerates_two :
    let d : DallasTemperature :=
      ⟨⟨[], 0, 0, false, [⟨{ Chip.ds18b20 7 with alarm := true }, .idle⟩, ⟨.ds18b20 5, .idle⟩]⟩,
        2, 2, false, 12, true, List.replicate 8 0, -1, false⟩
    ∃ alarmAddrs d',
      (∀ n > d.wire.bus.length,
        d.processAlarms (some fun _ bus => bus.reset.2) n = some (alarmAddrs, d')) ∧
      Enumerates {as | ∃ c ∈ d.wire.bus.chips, c.alarm ∧ valid c ∧ c.address = as}
        (alarmAddrs.map bytesBits) ∧
      d'.alarmSearch.1 = none :=
  processAlarms_enumerates rfl fun _ _ => addresses_eq Bus.chips_reset

theorem hasAnyAlarm_eq (hlen : d.alarmSearchAddress.length = 8) :
    d.hasAnyAlarm.1 = d.wire.bus.chips.any (·.alarm) := by
  obtain ⟨addresses, E, H⟩ := alarms_resetAlarmSearch hlen
  rw [hasAnyAlarm]
  cases addresses with
  | nil =>
    obtain ⟨bus, hsearch, -⟩ := H.alarmSearch_nil
    have hnone : d.wire.bus.chips.any (·.alarm) = false := by
      rw [List.any_eq_false]
      intro c hc halarm
      exact E.eq_empty (mem_alarmed.mpr ⟨c, hc, halarm, rfl⟩)
    rw [hsearch, hnone]
    rfl
  | cons as addresses =>
    obtain ⟨d', hsearch, -⟩ := H.alarmSearch_cons
    obtain ⟨c, hc, halarm, -⟩ := mem_alarmed.mp E.isLeast.1
    have hsome : d.wire.bus.chips.any (·.alarm) = true := List.any_eq_true.mpr ⟨c, hc, halarm⟩
    rw [hsearch, hsome]
    rfl

/-! ### The flag of a device and its registers -/

/-- What a device makes of its last conversion: it compares whole degrees. -/
def alarmCondition (c : Chip) : Prop :=
  temperature c / 16 ≤ c.lowAlarmTemp.toInt8.toInt ∨
    c.highAlarmTemp.toInt8.toInt ≤ temperature c / 16

/-- `hasAlarm` finds out what the flag of the device says. -/
theorem hasAlarm_iff (D : Distinct bus) {c : Chip} (hc : c ∈ bus.chips) (hblank : blank c = false)
    (hfamily : c.family ≠ Chip.ds18s20Model) (hlow : -2048 ≤ temperature c)
    (hhigh : temperature c < 2048) (hflag : c.alarm ↔ alarmCondition c) :
    (hasAlarm c.rom.toList bus).1 = c.alarm := by
  have hmodel : c.rom.toList.getD 0 0 ≠ Chip.ds18s20Model := by
    rw [getD_rom]
    exact hfamily
  have htemp : (calculateTemperature c.rom.toList c.registers >>> 7).toInt8.toInt =
      temperature c / 16 := by
    have hfixed := calculateTemperature_fixed hmodel (by omega) (by omega : temperature c < 4096)
    have hshift : (calculateTemperature c.rom.toList c.registers >>> 7).toInt =
        (calculateTemperature c.rom.toList c.registers).toInt >>> (7 : Nat) :=
      BitVec.toInt_sshiftRight'
    rw [Int16.toInt_toInt8, hshift, hfixed, Int.shiftRight_eq_div_pow]
    have hdiv : 8 * temperature c / (2 ^ 7 : Nat) = temperature c / 16 := by omega
    rw [hdiv]
    exact Int.bmod_eq_of_le (by omega) (by omega)
  have hbytes : c.registers.getD 3 0 = c.lowAlarmTemp ∧ c.registers.getD 2 0 = c.highAlarmTemp := by
    rw [Chip.registers_eq]
    exact ⟨rfl, rfl⟩
  rw [Bool.eq_iff_iff, hflag, alarmCondition, hasAlarm,
    isConnected_some D Vector.length_toList (deviceAt_of_mem D hc) hblank]
  dsimp only
  rw [hbytes.1, hbytes.2]
  simp [Int8.le_iff_toInt_le, htemp]

theorem hasAlarm_iff_hot :
    let c : Chip := { Chip.ds18b20 7 with alarm := true }
    (hasAlarm c.rom.toList [⟨c, .idle⟩, ⟨.ds18b20 5, .idle⟩]).1 = c.alarm :=
  hasAlarm_iff (by decide) List.mem_cons_self (by decide) (by decide) (by decide) (by decide)
    ⟨fun _ => .inr (by decide), fun _ => rfl⟩

/-! ### An alarm that goes away -/

/-- The last device that was found is the only one left behind the junction at which the next
search is to go up, and there is an alarm to come. -/
structure Stuck (d : DallasTemperature) : Prop where
  length : d.alarmSearchAddress.length = 8
  exhausted : d.alarmSearchExhausted = false
  mem : bytesBits d.alarmSearchAddress ∈ alarmed d.wire.bus
  later : ∃ as ∈ alarmed d.wire.bus, bytesBits d.alarmSearchAddress < as
  junction : 0 ≤ d.alarmSearchJunction
  only : ∀ as ∈ alarmed d.wire.bus, as.take d.alarmSearchJunction.toNat =
    (bytesBits d.alarmSearchAddress).take d.alarmSearchJunction.toNat →
      as = bytesBits d.alarmSearchAddress

/-- The loop goes along the old address and does not come to its junction. -/
theorem alarmSearchLoop_again {k : Nat}
    (A : Along bus active path prev d.alarmSearchAddress d.wire.bus)
    (hn : path.length + n = 64) (hmem : prev ∈ behind path (bus.addresses active))
    (hJ : d.alarmSearchJunction = k)
    (honly : ∀ as ∈ behind path (bus.addresses active),
      as.take (k - path.length) = prev.take (k - path.length) → as = prev) :
    ∃ d' l', alarmSearchLoop n path.length d l = (some l', d') ∧
      Along bus active (path ++ prev) [] d'.alarmSearchAddress d'.wire.bus ∧
      d'.alarmSearchJunction = k ∧ d'.alarmSearchExhausted = d.alarmSearchExhausted ∧
      l'.done = (l.done && (pending prev (behind path (bus.addresses active))).isNone) := by
  induction n generalizing path prev d l with
  | zero =>
    have hprev : prev = [] := List.eq_nil_of_length_eq_zero (by have := A.length_prev; omega)
    rw [hprev] at A ⊢
    rw [List.append_nil]
    exact ⟨d, l, rfl, A, hJ, rfl, (Bool.and_true _).symm⟩
  | succ n ih =>
    have hprev : prev ≠ [] := List.ne_nil_of_length_pos (by have := A.length_prev; omega)
    obtain ⟨p, prev, rfl⟩ := List.exists_cons_of_ne_nil hprev
    have hbranch := branch_ne_nil hmem
    have hpass : ∃ l₁ : AlarmPass, (if branch (!p) (behind path (bus.addresses active)) = [] then
        (p, d.alarmSearchJunction, l) else d.alarmJunction l path.length) = (p, (k : Int), l₁) ∧
        l₁.done = (l.done &&
          !decide (p = false ∧ branch true (behind path (bus.addresses active)) ≠ [])) := by
      by_cases hother : branch (!p) (behind path (bus.addresses active)) = []
      · have hpassed : ¬(p = false ∧ branch true (behind path (bus.addresses active)) ≠ []) := by
          rintro ⟨rfl, ht⟩
          exact ht hother
        rw [if_pos hother, hJ, decide_eq_false hpassed]
        exact ⟨l, rfl, (Bool.and_true _).symm⟩
      · have hlt : path.length < k := by
          by_contra hge
          obtain ⟨as, has⟩ := List.exists_mem_of_ne_nil _ hother
          have hsame := honly _ (mem_branch.mp has)
          rw [Nat.sub_eq_zero_of_le (Nat.le_of_not_lt hge), List.take_zero, List.take_zero] at hsame
          have hhead := (List.cons.inj (hsame rfl)).1
          cases p <;> cases hhead
        have hi : path.length < 64 := by omega
        rw [if_neg hother, alarmJunction_of_lt hi (by omega) A.getD, List.headD_cons, hJ]
        refine ⟨_, rfl, ?_⟩
        cases p with
        | true => rw [decide_eq_false (by simp)]; exact (Bool.and_true _).symm
        | false => rw [decide_eq_true ⟨rfl, hother⟩]; exact (Bool.and_false _).symm
    obtain ⟨l₁, hpass, hdone₁⟩ := hpass
    obtain ⟨d₁, hloop, A₁, hJ₁, hex₁⟩ := alarmSearchLoop_succ (n := n) A hprev hbranch hpass
    have hpath : path.length + 1 = (path ++ [p]).length := by
      rw [List.length_append, List.length_singleton]
    have honly₁ : ∀ as ∈ behind (path ++ [p]) (bus.addresses active),
        as.take (k - (path ++ [p]).length) = prev.take (k - (path ++ [p]).length) → as = prev := by
      intro as has htake
      rw [← branch_behind, mem_branch] at has
      refine (List.cons.inj (honly _ has ?_)).2
      rcases Nat.lt_or_ge path.length k with h | h
      · have hsub : k - path.length = k - (path ++ [p]).length + 1 := by omega
        rw [hsub, List.take_succ_cons, List.take_succ_cons, htake]
      · rw [Nat.sub_eq_zero_of_le h, List.take_zero, List.take_zero]
    have hmem₁ : prev ∈ behind (path ++ [p]) (bus.addresses active) := by
      rw [← branch_behind]
      exact mem_branch.mpr hmem
    obtain ⟨d', l', hrest, A', hJ', hex, hdone⟩ := ih A₁ (by omega) hmem₁ hJ₁ honly₁
    rw [List.append_assoc] at A'
    refine ⟨d', l', ?_, A', hJ', hex.trans hex₁, ?_⟩
    · rw [hloop, hpath]
      exact hrest
    · rw [hdone, hdone₁, isNone_pending, branch_behind, branch_behind, Bool.and_assoc]
      congr 1
      exact Bool.and_comm _ _

theorem Stuck.withBus (H : Stuck d) (h : alarmed bus = alarmed d.wire.bus) :
    Stuck (d.withBus bus) := by
  have hsame : alarmed (d.withBus bus).wire.bus = alarmed d.wire.bus := h
  constructor
  · exact H.length
  · exact H.exhausted
  · rw [hsame]; exact H.mem
  · rw [hsame]; exact H.later
  · exact H.junction
  · rw [hsame]; exact H.only

/-- The search finds the last device again. -/
theorem Stuck.alarmSearch (H : Stuck d) :
    ∃ d', d.alarmSearch = (some d.alarmSearchAddress, d') ∧ Stuck d' := by
  obtain ⟨k, hk⟩ := Int.eq_ofNat_of_zero_le H.junction
  let d₁ := d.withBus (d.wire.bus.within (searched false) .searchBit [])
  have A : Along d.wire.bus (searched false) [] (bytesBits d.alarmSearchAddress)
      d₁.alarmSearchAddress d₁.wire.bus := ⟨H.length, rfl, rfl⟩
  have hbehind : behind [] (d.wire.bus.addresses (searched false)) = alarmed d.wire.bus :=
    behind_nil
  have hmem := H.mem
  have honly := H.only
  rw [hk, Int.toNat_natCast] at honly
  rw [← hbehind] at hmem honly
  obtain ⟨d', l', hloop, A', hJ, hex, hdone⟩ :=
    alarmSearchLoop_again (l := {}) A (by decide : 0 + 64 = 64) hmem hk honly
  have hbits : bytesBits d'.alarmSearchAddress = bytesBits d.alarmSearchAddress := by
    rw [A'.bits, List.append_nil, List.nil_append]
  have haddress : d'.alarmSearchAddress = d.alarmSearchAddress :=
    bytesBits_injective (A'.length.trans H.length.symm) hbits
  have hpending :
      (pending (bytesBits d.alarmSearchAddress) (alarmed d.wire.bus)).isNone = false := by
    obtain ⟨as, has, hlt⟩ := H.later
    cases hp : pending (bytesBits d.alarmSearchAddress) (alarmed d.wire.bus) with
    | some k => rfl
    | none =>
      exact absurd hlt (not_lt_of_pending uniform_addresses (uniform_addresses _ H.mem) hp has)
  rw [hbehind, hpending, Bool.and_false] at hdone
  have hsame : alarmed d'.wire.bus = alarmed d.wire.bus := by
    apply addresses_eq
    rw [A'.bus]
    exact chips_within
  refine ⟨d', ?_, ?_⟩
  · rw [alarmSearch_of_loop H.exhausted (List.ne_nil_of_mem H.mem) hloop, hdone, haddress]
    rfl
  · constructor
    · exact A'.length
    · exact hex.trans H.exhausted
    · rw [haddress, hsame]; exact H.mem
    · rw [haddress, hsame]; exact H.later
    · rw [hJ]; exact Int.natCast_nonneg k
    · rw [haddress, hsame, hJ, ← hk]; exact H.only

-- This state comes from the first search, when the alarm of the device 2 goes away.
example :
    let d : DallasTemperature :=
      ⟨⟨[], 0, 0, false, [⟨{ Chip.ds18b20 1 with alarm := true }, .idle⟩,
        ⟨{ Chip.ds18b20 2 with alarm := true }, .idle⟩,
        ⟨{ Chip.ds18b20 4 with alarm := true }, .idle⟩]⟩, 3, 3, false, 12, true,
        List.replicate 8 0, -1, false⟩
    let d' := d.resetAlarmSearch.alarmSearch.2
    (d'.alarmSearchAddress, d'.alarmSearchJunction, d'.alarmSearchExhausted) =
      ((Chip.ds18b20 4).rom.toList, 9, false) := by
  decide +kernel

end D1Mini.DallasTemperature
