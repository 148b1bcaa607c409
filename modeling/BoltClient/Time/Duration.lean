namespace BoltClient

structure Duration where
  nanos : Nat
  deriving DecidableEq, Repr, Inhabited

namespace Duration

def nanosPerSecond : Nat := 1000000000

def nanosPerMilli : Nat := 1000000

def nanosPerMicro : Nat := 1000

def zero : Duration := ⟨0⟩

def ofSeconds (n : Nat) : Duration := ⟨n * nanosPerSecond⟩

def ofMillis (n : Nat) : Duration := ⟨n * nanosPerMilli⟩

/-- The longest length of time that is told apart from its neighbours. -/
def longest : Duration := ⟨0x10000000000000000 * nanosPerSecond - 1⟩

def seconds (d : Duration) : Nat := d.nanos / nanosPerSecond

/-- Nanoseconds beyond the whole seconds. -/
def subsecond (d : Duration) : Nat := d.nanos % nanosPerSecond

def millis (d : Duration) : Nat := d.nanos / nanosPerMilli

/-- Digits behind a point, `places` of them and no zeros at the end. -/
def fraction (n places : Nat) : String :=
  let digits := Nat.toDigits 10 (Nat.pow 10 places + n) |>.drop 1
  let digits := (digits.reverse.dropWhile (· = '0')).reverse
  if digits.isEmpty then "" else String.ofList ('.' :: digits)

/-- The written form, in the largest unit that leaves a whole number in front of the point. -/
def text (d : Duration) : String :=
  let n := d.nanos
  if nanosPerSecond ≤ n then toString (n / nanosPerSecond) ++ fraction (n % nanosPerSecond) 9 ++ "s"
  else if nanosPerMilli ≤ n then toString (n / nanosPerMilli) ++ fraction (n % nanosPerMilli) 6 ++ "ms"
  else if nanosPerMicro ≤ n then toString (n / nanosPerMicro) ++ fraction (n % nanosPerMicro) 3 ++ "µs"
  else toString n ++ "ns"

end Duration
end BoltClient
