import D1Mini.Lib.EventMachine
import D1Mini.Webserv.Timers

/-!
# The pages of `webserv.ino`

The pages `/dht` and `/ds` show what the global variables hold. `runLoop_pages` says that these are
the last readings taken, whether a request took them or a timer that was due.
-/

namespace D1Mini.Webserv
open EventMachine Decimal WrapClock

/-! ### The readings that are shown -/

inductive Measured
  | dht (humidity temperature : Int)
  | ds (temp : Int)
deriving DecidableEq, Repr

/-- The readings that the pages show. -/
structure View where
  h : Int
  t : Int
  tempDs : Int
deriving DecidableEq, Repr

def View.update (v : View) : Measured → View
  | .dht humidity temperature => { v with h := humidity, t := temperature }
  | .ds temp => { v with tempDs := temp }

def State.view (s : State) : View := ⟨s.h, s.t, s.tempDs⟩

/-- The pages whose handler takes a reading that it keeps; `/current_ds` keeps none. -/
def Request.measured (req : Request) : List Measured :=
  if req.uri = "/current_dht".toList ∨ req.uri = "/publish".toList then
    [.dht req.humidity req.temperature]
  else []

/-- What a sensor measures in an iteration that reads it. -/
def Input.measured (inp : Input) : Sensor → Measured
  | .dht => .dht inp.humidity inp.temperature
  | .ds => .ds inp.tempC

/-- A timer branch reads its sensor when it stores a reading of the clock. -/
def Branch.measured (branch : Branch) (m : Measured) : List Measured :=
  if branch.poll.stored.isSome then [m] else []

/-- The readings an iteration takes, in order. -/
def Pass.measured (inp : Input) (pass : Pass) : List Measured :=
  inp.request.toList.flatMap Request.measured
  ++ pass.dht.measured (inp.measured .dht) ++ pass.ds.measured (inp.measured .ds)

section
variable {clock : Nat → Nat} {s s' : State} {inp : Input} {inps : List Input} {pass : Pass}
variable {passes : List Pass} {branch : Branch} {req : Request} {sensor : Sensor}

theorem handleRequest_view :
    (handleRequest s req).1.view = run View.update s.view req.measured := by
  unfold handleRequest Request.measured
  repeat' split
  all_goals simp_all [State.view, View.update, readCurrent, webPublishMqtt]

theorem sensorBranch_view (h : sensorBranch clock s inp sensor = (s', branch)) :
    s'.view = run View.update s.view (branch.measured (inp.measured sensor)) := by
  cases sensor
  all_goals
    simp only [sensorBranch, dhtBranch, dsBranch] at h
    split at h
    all_goals
      obtain ⟨rfl, rfl⟩ := Prod.mk.inj h
      rfl

theorem loop_view (hloop : loop clock s inp = some (s', pass)) :
    s'.view = run View.update s.view (pass.measured inp) := by
  obtain ⟨s₁, s₂, hclient, hdht, hds⟩ := loop_cases hloop
  have hrequest :
      s₁.view = run View.update s.view (inp.request.toList.flatMap Request.measured) := by
    cases hr : inp.request with
    | none =>
      rw [hr] at hclient
      obtain ⟨rfl, -⟩ := Prod.mk.inj hclient
      rfl
    | some req =>
      rw [hr] at hclient
      obtain ⟨rfl, -⟩ := Prod.mk.inj hclient
      simpa using handleRequest_view
  rw [sensorBranch_view hds, sensorBranch_view hdht, hrequest, Pass.measured, run_append,
    run_append]
  rfl

/-- After a run the pages show the last readings that were taken in it. -/
theorem run_view (hrun : runLoop clock s inps = some (s', passes)) :
    s'.view = run View.update s.view
      ((inps.zip passes).flatMap fun (inp, pass) => pass.measured inp) := by
  induction inps generalizing s passes with
  | nil =>
    cases hrun
    rfl
  | cons inp inps ih =>
    obtain ⟨s₁, pass, passes', hloop, hrest, rfl⟩ := runLoop_cons hrun
    rw [ih hrest, loop_view hloop, List.zip_cons_cons, List.flatMap_cons, run_append]

/-- The readings of the `n`-th iteration: those of a request, and of the timers that are due. -/
def Input.measuredAt (clock : Nat → Nat) (n : Nat) (inp : Input) : List Measured :=
  inp.request.toList.flatMap Request.measured
  ++ (if (timersAt clock n .dht).Due clock 60000 .dht then [inp.measured .dht] else [])
  ++ (if (timersAt clock n .ds).Due clock 60000 .ds then [inp.measured .ds] else [])

/-- The last readings, from the debug values the variables start with. -/
def shown (clock : Nat → Nat) (inps : List Input) : View :=
  run View.update ({} : State).view (inps.mapIdx (Input.measuredAt clock)).flatten

theorem branchOf_measured {T : Timers Sensor} {m : Measured} :
    (branchOf clock T inp sensor).measured m =
      if T.Due clock 60000 sensor then [m] else [] := by
  unfold Branch.measured
  rw [← branchOf_isSome]
  simp only [branchOf_published]

theorem run_shown (hclock : Monotone clock) (hrun : runLoop clock {} inps = some (s', passes))
    (hs : ∀ sensor, Spaced (2 ^ 32) 60000 (passes.map (Pass.poll sensor))) :
    s'.view = shown clock inps := by
  have hlength := runLoop_length hrun
  have hmeasured : (inps.zip passes).map (fun (inp, pass) => pass.measured inp) =
      inps.mapIdx (Input.measuredAt clock) := by
    refine List.ext_getElem (by simp [hlength]) fun n hn _ => ?_
    simp only [List.length_map, List.length_zip, hlength, Nat.min_self] at hn
    have hn' : n < passes.length := by rwa [hlength]
    have hbranch := (run_follows hclock hrun hs).2 n inps[n] (List.getElem?_eq_getElem hn)
      passes[n] (List.getElem?_eq_getElem hn')
    have hdht : passes[n].dht = _ := hbranch .dht
    have hds : passes[n].ds = _ := hbranch .ds
    simp only [List.getElem_map, List.getElem_mapIdx, List.getElem_zip]
    rw [Pass.measured, hdht, hds, branchOf_measured, branchOf_measured, Input.measuredAt]
  rw [run_view hrun, shown, ← hmeasured]
  rfl

theorem handleRequest_dht (h : req.uri = "/dht".toList) : handleRequest s req = (s, dht22 s) := by
  simp [handleRequest, h]

theorem handleRequest_ds (h : req.uri = "/ds".toList) : handleRequest s req = (s, readTemp s) := by
  simp [handleRequest, h]

/-- A request after a run is answered with the last readings. -/
theorem runLoop_pages (hclock : Monotone clock) (hrun : runLoop clock {} inps = some (s', passes))
    (hs : ∀ sensor, Spaced (2 ^ 32) 60000 (passes.map (Pass.poll sensor))) (req : Request) :
    (req.uri = "/dht".toList → (handleRequest s' req).2.response.body =
      "Temprature: ".toList ++ floatText (shown clock inps).t ++
        " Humidity: ".toList ++ floatText (shown clock inps).h) ∧
    (req.uri = "/ds".toList → (handleRequest s' req).2.response.body =
      "temprature ".toList ++ floatText (shown clock inps).tempDs) := by
  have hview : s'.view = shown clock inps := run_shown hclock hrun hs
  rw [← hview]
  constructor
  · intro h
    rw [handleRequest_dht h]
    rfl
  · intro h
    rw [handleRequest_ds h]
    rfl

theorem runLoop_pages_slowClock : ∃ s' passes,
    runLoop slowClock {} [quiet, quiet] = some (s', passes) ∧
      (handleRequest s' ⟨"/ds".toList, 0, 0, 0, true⟩).2.response.body =
        "temprature ".toList ++ floatText 1900 := by
  obtain ⟨s', p, q, hrun, -, hs⟩ := runLoop_slowClock
  exact ⟨s', [p, q], hrun,
    (runLoop_pages monotone_slowClock hrun hs ⟨"/ds".toList, 0, 0, 0, true⟩).2 rfl⟩

end

/-! ### The buffer of `web_publish_mqtt` -/

/-- `sprintf` writes the text and a `nul` into `char dis[64]`. -/
theorem publishText_fits {t h : Int} : (publishText t h).length + 1 ≤ 64 ↔
    wholeWidth 6 (t * 10000) + wholeWidth 6 (h * 10000) ≤ 24 := by
  have hfixed (x : Int) : (renderFixed 6 x).length = wholeWidth 6 x + 7 :=
    length_renderFixed (by decide)
  have h1 : "temp: ".toList.length = 6 := rfl
  have h2 : " humidity: ".toList.length = 11 := rfl
  have h3 : " idx: ".toList.length = 6 := rfl
  have h4 : (intText 43).length = 2 := rfl
  unfold publishText
  simp only [List.length_append, hfixed, h1, h2, h3, h4]
  omega

end D1Mini.Webserv
