/-!
# Durations

A span of time in nanoseconds. The longest one has a 64-bit count of whole seconds; products stop
there.

    (d.times n).nanos = min (d.nanos * n) longest.nanos      (times_nanos)
-/

namespace SuiteSearch

structure Duration where
  nanos : Nat
  deriving DecidableEq, Repr

namespace Duration

/-- Nanoseconds of a microsecond. -/
def micro : Nat := 1000

/-- Nanoseconds of a millisecond. -/
def milli : Nat := 1000000

/-- Nanoseconds of a second. -/
def second : Nat := 1000000000

/-- Whole seconds and nanoseconds beyond them. -/
def ofParts (seconds nanos : Nat) : Duration := ⟨seconds * second + nanos⟩

def ofSeconds (s : Nat) : Duration := ⟨s * second⟩

def ofMillis (ms : Nat) : Duration := ⟨ms * milli⟩

/-- Whole seconds. -/
def seconds (d : Duration) : Nat := d.nanos / second

/-- Nanoseconds beyond the whole seconds. -/
def subsecond (d : Duration) : Nat := d.nanos % second

/-- Whole milliseconds. -/
def millis (d : Duration) : Nat := d.nanos / milli

/-- The longest duration. -/
def longest : Duration := ofParts (UInt64.size - 1) (second - 1)

instance : Add Duration := ⟨fun a b => ⟨a.nanos + b.nanos⟩⟩

/-- The duration taken `n` times, as far as it can be told. -/
def times (d : Duration) (n : Nat) : Duration := ⟨min (d.nanos * n) longest.nanos⟩

/-- The shorter of two durations. -/
def least (a b : Duration) : Duration := if b.nanos < a.nanos then b else a

/-- A number of units with as many decimals of the next smaller ones as it needs. -/
def decimals (whole : Nat) (rest width : Nat) : String :=
  let digits := Nat.toDigits 10 rest
  let padded := List.replicate (width - digits.length) '0' ++ digits
  let kept := (padded.reverse.dropWhile (· = '0')).reverse
  toString whole ++ (if kept.isEmpty then "" else "." ++ String.ofList kept)

/-- The duration in the largest unit of which it has at least one. -/
def render (d : Duration) : String :=
  if second ≤ d.nanos then decimals d.seconds d.subsecond 9 ++ "s"
  else if milli ≤ d.nanos then decimals (d.nanos / milli) (d.nanos % milli) 6 ++ "ms"
  else if micro ≤ d.nanos then decimals (d.nanos / micro) (d.nanos % micro) 3 ++ "µs"
  else decimals d.nanos 0 0 ++ "ns"

theorem times_nanos (d : Duration) (n : Nat) :
    (d.times n).nanos = min (d.nanos * n) longest.nanos := rfl

end Duration

end SuiteSearch
