/-! Serial ports of the Arduino core and of SoftwareSerial: a FIFO of received bytes that have not
been read, and a log of what was written. `consumed` is a ghost field, the bytes `read` has popped.
The type of the log entries is a parameter, so that a sketch's model can tag what it writes. -/

namespace D1Mini

structure Port (β : Type) where
  unread : List UInt8 := []
  consumed : List UInt8 := []
  log : List β := []
deriving DecidableEq, Repr

namespace Port
variable (p : Port β)

/-- The arrival of a byte. -/
def receive (b : UInt8) : Port β := { p with unread := p.unread ++ [b] }

/-- `available()`, the number of bytes waiting. -/
def available : Nat := p.unread.length

/-- `read()`: the head of the FIFO, or -1 when it is empty. -/
def read : Int × Port β :=
  match p.unread with
  | [] => (-1, p)
  | b :: bs => (b.toNat, { p with unread := bs, consumed := p.consumed ++ [b] })

/-- `write(x)` for what the sketch's log records of `x`. -/
def write (x : β) : Port β := { p with log := p.log ++ [x] }

/-- `print` of a text, one log entry a byte. -/
def print (xs : List β) : Port β := { p with log := p.log ++ xs }

@[simp] theorem receive_unread : (p.receive b).unread = p.unread ++ [b] := rfl
@[simp] theorem receive_consumed : (p.receive b).consumed = p.consumed := rfl
@[simp] theorem receive_log : (p.receive b).log = p.log := rfl
@[simp] theorem write_unread : (p.write x).unread = p.unread := rfl
@[simp] theorem write_consumed : (p.write x).consumed = p.consumed := rfl
@[simp] theorem write_log : (p.write x).log = p.log ++ [x] := rfl
@[simp] theorem print_unread : (p.print xs).unread = p.unread := rfl
@[simp] theorem print_consumed : (p.print xs).consumed = p.consumed := rfl
@[simp] theorem print_log : (p.print xs).log = p.log ++ xs := rfl

@[simp] theorem available_eq_zero : p.available = 0 ↔ p.unread = [] := List.length_eq_zero_iff

theorem read_of_cons (h : p.unread = b :: bs) :
    p.read = ((b.toNat : Int), { p with unread := bs, consumed := p.consumed ++ [b] }) := by
  simp [read, h]

theorem read_unread : p.read.2.unread = p.unread.tail := by
  unfold read; split <;> simp [*]

/-- Reading moves bytes from the FIFO to the consumed bytes, and loses none. -/
theorem read_stream : p.read.2.consumed ++ p.read.2.unread = p.consumed ++ p.unread := by
  unfold read; split <;> simp [*]

end Port

/-- A byte survives `int` and the conversion back to a byte. -/
@[simp] theorem ofInt_toNat (b : UInt8) : UInt8.ofInt (b.toNat : Int) = b := by
  have h : ((b.toNat : Int) % 2 ^ 8).toNat = b.toNat := by have := b.toNat_lt; omega
  rw [UInt8.ofInt, h, UInt8.ofNat_toNat]

/-- A byte survives a signed `char`, also from 128 on. -/
@[simp] theorem ofInt_toNat_toUInt8 (b : UInt8) : (Int8.ofInt (b.toNat : Int)).toUInt8 = b := by
  simp [Int8.ofInt_eq_ofNat]

/-- What is written of the -1 that `read()` returns. -/
theorem neg_one_eq : (-1 : UInt8) = 255 := rfl

end D1Mini
