import D1Mini.Lib.WrapClock
import D1Mini.Webserv.Publish

/-!
# `webserv.ino`

A web server that shows the last readings of two sensors, and publishes them over MQTT once a
minute. The sketch is modelled with `dht`, `ds`, `bme` and `DS_SENSOR` compiled in. `clock n` is the
true time at the `n`-th call of `millis()`; whatever the calls in between take shows in it.
-/

namespace D1Mini.Webserv
open WrapClock

/-- The global variables, with the readings in hundredths; `calls` counts the calls of `millis()`.
-/
structure State where
  periodDs : Int32 := 60000
  timeNowDs : Int32 := 0
  periodDht : Int32 := 60000
  timeNowDht : Int32 := 0
  tempDs : Int := -12000
  h : Int := -5000
  t : Int := -6000
  calls : Nat := 0
deriving DecidableEq, Repr

/-- `AIO_IDX` -/
def aioIdx : Int32 := 43

/-! ### `MQTT_connect` -/

def connectErrorString (code : Int8) : List Char :=
  if code = 1 then
    "The Server does not support the level of the MQTT protocol requested".toList
  else if code = 2 then
    "The Client identifier is correct UTF-8 but not allowed by the Server".toList
  else if code = 3 then "The MQTT service is unavailable".toList
  else if code = 4 then "The data in the user name or password is malformed".toList
  else if code = 5 then "Not authorized to connect".toList
  else if code = 6 then "Exceeded reconnect rate limit. Please try again later.".toList
  else if code = 7 then
    ("You have been banned from connecting. Please contact the MQTT " ++
      "server administrator for more details.").toList
  else if code = -1 then "Connection failed".toList
  else if code = -2 then "Failed to subscribe".toList
  else "Unknown error".toList

/-- The loop over the attempts, with what they return: the text it prints, or `none` when it runs
out of retries and stays in `while (1);`. -/
def retryConnect (connect : Nat → Int8) : Nat → Nat → Option (List Char)
  | 0, _ => none
  | retries + 1, attempt =>
    if connect attempt = 0 then some []
    else (retryConnect connect retries (attempt + 1)).map fun text =>
      connectErrorString (connect attempt) ++ "\r\n".toList
        ++ "Retrying MQTT connection in 5 seconds...\r\n".toList ++ text

def mqttConnect (connected : Bool) (connect : Nat → Int8) : Option (List Char) :=
  if connected then some []
  else (retryConnect connect 5 0).map fun text =>
    "Connecting to MQTT... ".toList ++ text ++ "MQTT Connected!\r\n".toList

/-! ### The pages -/

/-- A request, with what the sensors return to its handler. -/
structure Request where
  uri : List Char
  humidity : Int
  temperature : Int
  tempC : Int
  published : Bool
deriving DecidableEq, Repr

/-- `webserver.send(code, "text/plain", body);` -/
structure Response where
  code : Nat
  body : List Char
deriving DecidableEq, Repr

/-- What a handler does: it may publish before it responds. -/
structure Served where
  response : Response
  published : Option Publication := none
deriving DecidableEq, Repr

def rootPage : Served where
  response := ⟨200, "Vlad Api \n/current_dht \n/dht \n/current_ds \n/ds \n/bme \n".toList⟩

def readTemp (s : State) : Served where
  response := ⟨200, "temprature ".toList ++ floatText s.tempDs⟩

def dht22 (s : State) : Served where
  response := ⟨200, "Temprature: ".toList ++ floatText s.t ++ " Humidity: ".toList ++ floatText s.h⟩

def readCurrent (s : State) (req : Request) : State × Served :=
  let s := { s with h := req.humidity, t := req.temperature }
  (s, dht22 s)

def dsCurrent (req : Request) : Served where
  response := ⟨200, floatText req.tempC⟩

def notfoundPage : Served where
  response := ⟨404, "404: Not found".toList⟩

/-- `sprintf(dis, "temp: %f humidity: %f idx: %d", t, h, 43);` -/
def publishText (t h : Int) : List Char :=
  "temp: ".toList ++ Decimal.renderFixed 6 (t * 10000)
  ++ " humidity: ".toList ++ Decimal.renderFixed 6 (h * 10000)
  ++ " idx: ".toList ++ intText 43

def webPublishMqtt (s : State) (req : Request) : State × Served :=
  let s := { s with h := req.humidity, t := req.temperature }
  (s, { response := ⟨200, publishText s.t s.h⟩
        published := some (publishMqtt req.published aioIdx s.t s.h) })

/-- The handlers, as `setup()` registers them. -/
def handleRequest (s : State) (req : Request) : State × Served :=
  if req.uri = "/".toList then (s, rootPage)
  else if req.uri = "/ds".toList then (s, readTemp s)
  else if req.uri = "/current_ds".toList then (s, dsCurrent req)
  else if req.uri = "/dht".toList then (s, dht22 s)
  else if req.uri = "/current_dht".toList then readCurrent s req
  else if req.uri = "/publish".toList then webPublishMqtt s req
  else (s, notfoundPage)

def handleClient (s : State) : Option Request → State × Option Served
  | none => (s, none)
  | some req => ((handleRequest s req).1, some (handleRequest s req).2)

/-! ### `loop` -/

/-- What the calls of an iteration return. -/
structure Input where
  connected : Bool
  connect : Nat → Int8
  request : Option Request
  humidity : Int
  temperature : Int
  publishedDht : Bool
  tempC : Int
  publishedDs : Bool

/-- An iteration without a request. -/
def quiet : Input where
  connected := true
  connect := fun _ => 0
  request := none
  humidity := 6520
  temperature := 3510
  publishedDht := true
  tempC := 1900
  publishedDs := true

/-- What a timer branch does: when it polled the clock, and what it published. -/
structure Branch where
  poll : Poll
  published : Option Publication
deriving DecidableEq, Repr

/-- `millis() - time_now > period`, where `millis()` is unsigned and the others are converted. -/
def Due (now : Nat) (timeNow period : Int32) : Prop :=
  UInt32.ofNat now - timeNow.toUInt32 > period.toUInt32

instance : Decidable (Due now timeNow period) := inferInstanceAs (Decidable (_ > _))

def dhtBranch (clock : Nat → Nat) (s : State) (inp : Input) : State × Branch :=
  let now := clock s.calls
  if Due now s.timeNowDht s.periodDht then
    let again := clock (s.calls + 1)
    let s := { s with
      timeNowDht := (UInt32.ofNat again).toInt32, calls := s.calls + 2
      h := inp.humidity, t := inp.temperature }
    (s, ⟨⟨now, some again⟩, some (publishMqtt inp.publishedDht aioIdx s.t s.h)⟩)
  else ({ s with calls := s.calls + 1 }, ⟨⟨now, none⟩, none⟩)

def dsBranch (clock : Nat → Nat) (s : State) (inp : Input) : State × Branch :=
  let now := clock s.calls
  if Due now s.timeNowDs s.periodDs then
    let again := clock (s.calls + 1)
    let s := { s with
      timeNowDs := (UInt32.ofNat again).toInt32, calls := s.calls + 2
      tempDs := inp.tempC }
    let index := 42
    (s, ⟨⟨now, some again⟩, some (publishMqtt inp.publishedDs index s.tempDs)⟩)
  else ({ s with calls := s.calls + 1 }, ⟨⟨now, none⟩, none⟩)

/-- What an iteration does. -/
structure Pass where
  connecting : List Char
  served : Option Served
  dht : Branch
  ds : Branch
deriving DecidableEq, Repr

def loop (clock : Nat → Nat) (s : State) (inp : Input) : Option (State × Pass) :=
  (mqttConnect inp.connected inp.connect).map fun connecting =>
    let (s, served) := handleClient s inp.request
    let (s, dht) := dhtBranch clock s inp
    let (s, ds) := dsBranch clock s inp
    (s, { connecting, served, dht, ds })

/-- The iterations of a run that does not get stuck in `MQTT_connect`. -/
def runLoop (clock : Nat → Nat) : State → List Input → Option (State × List Pass)
  | s, [] => some (s, [])
  | s, inp :: inps =>
    match loop clock s inp with
    | none => none
    | some (s, pass) => (runLoop clock s inps).map fun (s, passes) => (s, pass :: passes)

/-! ### The two sensors -/

inductive Sensor
  | dht | ds
deriving DecidableEq, Repr

def State.timeNow (s : State) : Sensor → Int32
  | .dht => s.timeNowDht
  | .ds => s.timeNowDs

def State.period (s : State) : Sensor → Int32
  | .dht => s.periodDht
  | .ds => s.periodDs

def Pass.branch (pass : Pass) : Sensor → Branch
  | .dht => pass.dht
  | .ds => pass.ds

/-- The timer branch of a sensor. -/
def sensorBranch (clock : Nat → Nat) (s : State) (inp : Input) : Sensor → State × Branch
  | .dht => dhtBranch clock s inp
  | .ds => dsBranch clock s inp

/-- The call of `publish_mqtt` with the readings that a sensor takes in an iteration. -/
def Input.publication (inp : Input) : Sensor → Publication
  | .dht => publishMqtt inp.publishedDht aioIdx inp.temperature inp.humidity
  | .ds => publishMqtt inp.publishedDs 42 inp.tempC

section
variable {clock : Nat → Nat} {s s' : State} {inp : Input} {inps : List Input} {pass : Pass}
variable {passes : List Pass} {branch : Branch} {sensor : Sensor}

/-- A timer branch reads the clock. If the timer is due it stores a second reading and publishes the
sensor, and otherwise it does nothing. -/
theorem sensorBranch_cases (h : sensorBranch clock s inp sensor = (s', branch)) :
    (Due (clock s.calls) (s.timeNow sensor) (s.period sensor) ∧ s'.calls = s.calls + 2 ∧
      s'.timeNow sensor = (UInt32.ofNat (clock (s.calls + 1))).toInt32 ∧
      branch = ⟨⟨clock s.calls, some (clock (s.calls + 1))⟩, some (inp.publication sensor)⟩) ∨
    (¬ Due (clock s.calls) (s.timeNow sensor) (s.period sensor) ∧ s'.calls = s.calls + 1 ∧
      s'.timeNow sensor = s.timeNow sensor ∧ branch = ⟨⟨clock s.calls, none⟩, none⟩) := by
  cases sensor
  all_goals
    simp only [sensorBranch, dhtBranch, dsBranch] at h
    split at h
    case isTrue hdue =>
      obtain ⟨rfl, rfl⟩ := Prod.mk.inj h
      exact .inl ⟨hdue, rfl, rfl, rfl⟩
    case isFalse hdue =>
      obtain ⟨rfl, rfl⟩ := Prod.mk.inj h
      exact .inr ⟨hdue, rfl, rfl, rfl⟩

/-- A timer branch leaves the periods and the other timer alone. -/
theorem sensorBranch_frame (h : sensorBranch clock s inp sensor = (s', branch)) :
    s'.period = s.period ∧ ∀ other ≠ sensor, s'.timeNow other = s.timeNow other := by
  cases sensor
  all_goals
    simp only [sensorBranch, dhtBranch, dsBranch] at h
    split at h
    all_goals
      obtain ⟨rfl, rfl⟩ := Prod.mk.inj h
      refine ⟨by funext sensor; cases sensor <;> rfl, fun other hne => ?_⟩
      cases other
      all_goals first | rfl | exact absurd rfl hne

theorem handleClient_frame (h : handleClient s req = (s', served)) :
    s'.period = s.period ∧ s'.timeNow = s.timeNow ∧ s'.calls = s.calls := by
  cases req with
  | none =>
    obtain ⟨rfl, -⟩ := Prod.mk.inj h
    exact ⟨rfl, rfl, rfl⟩
  | some req =>
    obtain ⟨rfl, -⟩ := Prod.mk.inj h
    unfold handleRequest
    repeat' split
    all_goals exact ⟨rfl, rfl, rfl⟩

theorem loop_cases (h : loop clock s inp = some (s', pass)) :
    ∃ s₁ s₂, handleClient s inp.request = (s₁, pass.served) ∧
      sensorBranch clock s₁ inp .dht = (s₂, pass.branch .dht) ∧
      sensorBranch clock s₂ inp .ds = (s', pass.branch .ds) := by
  obtain ⟨_, -, hpass⟩ := Option.map_eq_some_iff.mp h
  refine ⟨_, _, Prod.ext rfl (congrArg (·.2.served) hpass),
    Prod.ext rfl (congrArg (·.2.dht) hpass), ?_⟩
  exact Prod.ext (congrArg (·.1) hpass) (congrArg (·.2.ds) hpass)

theorem runLoop_cons (h : runLoop clock s (inp :: inps) = some (s', passes)) :
    ∃ s₁ pass passes', loop clock s inp = some (s₁, pass) ∧
      runLoop clock s₁ inps = some (s', passes') ∧ passes = pass :: passes' := by
  rw [runLoop] at h
  split at h
  · cases h
  · rename_i s₁ pass hloop
    obtain ⟨⟨s₂, passes'⟩, hrun, hpasses⟩ := Option.map_eq_some_iff.mp h
    obtain ⟨rfl, rfl⟩ := Prod.mk.inj hpasses
    exact ⟨s₁, pass, passes', hloop, hrun, rfl⟩

theorem runLoop_length (h : runLoop clock s inps = some (s', passes)) :
    passes.length = inps.length := by
  induction inps generalizing s passes with
  | nil =>
    cases h
    rfl
  | cons inp inps ih =>
    obtain ⟨s₁, pass, passes', -, hrun, rfl⟩ := runLoop_cons h
    rw [List.length_cons, List.length_cons, ih hrun]

end

end D1Mini.Webserv
