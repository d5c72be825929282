/-!
# Durations

A duration is a whole number of nanoseconds, at most `18446744073709551615.999999999` seconds.
Sums stop at that length and differences stop at zero, so adding up waits never fails.
-/

namespace Choreo

/-- A point in time, in nanoseconds after the clock's origin. -/
abbrev Instant := Nat

/-- The longest duration: `2 ^ 64` seconds less one nanosecond. -/
def maxNanos : Nat := 18446744073709551615999999999

structure Duration where
  nanos : Nat
  nanos_le : nanos ≤ maxNanos
deriving DecidableEq

namespace Duration

@[ext] theorem ext {a b : Duration} (h : a.nanos = b.nanos) : a = b := by
  cases a; cases b; cases h; rfl

/-- The duration of `n` nanoseconds, or the longest one. -/
def ofNanos (n : Nat) : Duration := ⟨min n maxNanos, Nat.min_le_right n maxNanos⟩

def ofMillis (n : Nat) : Duration := ofNanos (n * 1000000)

def ofSeconds (n : Nat) : Duration := ofNanos (n * 1000000000)

def zero : Duration := ofNanos 0

def longest : Duration := ofNanos maxNanos

instance : Inhabited Duration := ⟨zero⟩

instance : Add Duration := ⟨fun a b => ofNanos (a.nanos + b.nanos)⟩

instance : Sub Duration := ⟨fun a b => ofNanos (a.nanos - b.nanos)⟩

instance : LE Duration := ⟨fun a b => a.nanos ≤ b.nanos⟩

instance : LT Duration := ⟨fun a b => a.nanos < b.nanos⟩

instance (a b : Duration) : Decidable (a ≤ b) := inferInstanceAs (Decidable (a.nanos ≤ b.nanos))

instance (a b : Duration) : Decidable (a < b) := inferInstanceAs (Decidable (a.nanos < b.nanos))

@[simp] theorem nanos_ofNanos (n : Nat) : (ofNanos n).nanos = min n maxNanos := rfl

@[simp] theorem nanos_zero : zero.nanos = 0 := rfl

theorem nanos_add (a b : Duration) : (a + b).nanos = min (a.nanos + b.nanos) maxNanos := rfl

theorem nanos_sub (a b : Duration) : (a - b).nanos = a.nanos - b.nanos :=
  Nat.min_eq_left (Nat.le_trans (Nat.sub_le a.nanos b.nanos) a.nanos_le)

/-- The time from `earlier` to `later`, or none at all if `later` comes first. -/
def between (earlier later : Instant) : Duration := ofNanos (later - earlier)

def seconds (d : Duration) : Nat := d.nanos / 1000000000

/-- Nanoseconds beyond the whole seconds. -/
def subsecond (d : Duration) : Nat := d.nanos % 1000000000

/-- Milliseconds, a part of one counted as one. -/
def ceilMillis (d : Duration) : Nat := (d.nanos + 999999) / 1000000

def sum (ds : List Duration) : Duration := ds.foldl (· + ·) zero

/-- `digits` written with at least `width` digits. -/
def padded (width digits : Nat) : String :=
  let text := Nat.repr digits
  String.ofList (List.replicate (width - text.length) '0') ++ text

/-- Seconds with nine decimals. -/
def text (d : Duration) : String := Nat.repr d.seconds ++ "." ++ padded 9 d.subsecond

end Duration

end Choreo
