/-! The `int` at address 0 of ESP_EEPROM: the word in flash and, from `begin()` on, the copy in RAM
that `get` and `put` work on and `commit` writes back. -/

namespace D1Mini

structure Eeprom where
  flash : Int32
  data : Option Int32 := none
deriving DecidableEq, Repr

namespace Eeprom
variable (m : Eeprom)

/-- `begin(1)`. The library rounds the size up, so that the copy holds the whole `int`. -/
def begin : Eeprom := { m with data := some m.flash }

/-- `get(0, t)`: what `t` holds afterwards. Without `begin()` it is left alone. -/
def get (t : Int32) : Int32 := m.data.getD t

/-- `put(0, x)`. -/
def put (x : Int32) : Eeprom := { m with data := m.data.map fun _ => x }

def commit : Eeprom := { m with flash := m.data.getD m.flash }

/-- A reset or a loss of power: the copy in RAM is gone. -/
def lose : Eeprom := { m with data := none }

end Eeprom

end D1Mini
