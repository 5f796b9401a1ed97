import DirectoryWatch.Text.Decimal

/-!
# Points in time and lengths of time

A `Moment` is a point on a clock, counted from the clock's origin in whole seconds of 64 bits and
nanoseconds after them; a `Duration` is a length of time. `Moment.add?` says when their sum is
again a moment.
-/

namespace DirectoryWatch

def nanosPerSecond : Nat := 1000000000

def nanosPerMilli : Nat := 1000000

/-! ## Lengths -/

structure Duration where
  seconds : UInt64
  nanos : Fin nanosPerSecond
  deriving DecidableEq, Repr

namespace Duration

def nanoseconds (d : Duration) : Nat := d.seconds.toNat * nanosPerSecond + d.nanos

def ofMillis (ms : UInt64) : Duration :=
  ⟨ms / 1000, ⟨ms.toNat % 1000 * nanosPerMilli, by unfold nanosPerMilli nanosPerSecond; omega⟩⟩

def ofSeconds (s : UInt64) : Duration := ⟨s, ⟨0, by decide⟩⟩

def zero : Duration := ofSeconds 0

/-- Whole milliseconds, a part of one counted as one. -/
def millisCeil (d : Duration) : Nat := (d.nanoseconds + (nanosPerMilli - 1)) / nanosPerMilli

/-- Whole milliseconds, a part of one dropped. -/
def millis (d : Duration) : Nat := d.nanoseconds / nanosPerMilli

/-- A whole number and a fraction of `width` digits, zeros at the end of the fraction left out. -/
def decimalParts (whole fraction width : Nat) : String :=
  let digits := (Text.padLeft '0' width (Text.decimal fraction)).toList
  let kept := (digits.reverse.dropWhile (· = '0')).reverse
  if fraction = 0 then Text.decimal whole
  else Text.decimal whole ++ "." ++ String.ofList kept

/-- The length in the greatest unit of which it holds at least one. -/
def text (d : Duration) : String :=
  let n := d.nanos.val
  if 0 < d.seconds.toNat then decimalParts d.seconds.toNat n 9 ++ "s"
  else if 1000000 ≤ n then decimalParts (n / 1000000) (n % 1000000) 6 ++ "ms"
  else if 1000 ≤ n then decimalParts (n / 1000) (n % 1000) 3 ++ "µs"
  else Text.decimal n ++ "ns"

end Duration

/-! ## Points -/

structure Moment where
  seconds : Int64
  nanos : Fin nanosPerSecond
  deriving DecidableEq, Repr

namespace Moment

/-- The moment at which the clock started to count. -/
def origin : Moment := ⟨0, ⟨0, by decide⟩⟩

/-- Nanoseconds since the origin, negative before it. -/
def nanoseconds (m : Moment) : Int := m.seconds.toInt * nanosPerSecond + m.nanos

/-- The moment a number of seconds and then of nanoseconds after the origin. -/
def ofParts? (seconds : Int) (nanos : Nat) : Option Moment :=
  let total := seconds + (nanos / nanosPerSecond : Nat)
  if Int64.minValue.toInt ≤ total ∧ total ≤ Int64.maxValue.toInt then
    some ⟨Int64.ofInt total, ⟨nanos % nanosPerSecond, Nat.mod_lt _ (by decide)⟩⟩
  else none

instance : LE Moment where
  le m n := m.seconds.toInt < n.seconds.toInt ∨ m.seconds = n.seconds ∧ m.nanos ≤ n.nanos

instance (m n : Moment) : Decidable (m ≤ n) :=
  inferInstanceAs (Decidable (_ ∨ _))

/-- The moment a length of time later, if the clock can count to it. -/
def add? (m : Moment) (d : Duration) : Option Moment :=
  ofParts? (m.seconds.toInt + d.seconds.toNat) (m.nanos + d.nanos)

/-- The time from the origin to the moment, if it is not before the origin. -/
def sinceOrigin? (m : Moment) : Option Duration :=
  if 0 ≤ m.seconds.toInt then some ⟨m.seconds.toInt.toNat.toUInt64, m.nanos⟩ else none

/-- The earlier of two moments. -/
def min (m n : Moment) : Moment := if m ≤ n then m else n

/-- The earliest of some moments. -/
def earliest? : List Moment → Option Moment
  | [] => none
  | m :: rest => some ((earliest? rest).elim m (min m))

end Moment

end DirectoryWatch
