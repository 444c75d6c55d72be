import EventScript.Number.Exact

/-!
# Durations

A duration is a whole number of nanoseconds that fits in 2^64 seconds. Addition saturates at the
longest duration (`add_nanoseconds`), so an event can be scheduled late but never wraps around.
-/

namespace EventScript

/-- A span of time in nanoseconds. -/
structure Duration where
  nanoseconds : Nat
deriving DecidableEq, Inhabited

namespace Duration

/-- Nanoseconds in a second. -/
def perSecond : Nat := Nat.pow 10 9

/-- No time at all. -/
def zero : Duration := ⟨0⟩

/-- The longest duration, one nanosecond short of 2^64 seconds. -/
def longest : Duration := ⟨Nat.pow 2 64 * perSecond - 1⟩

/-- The duration of some seconds and nanoseconds. -/
def ofParts (seconds nanoseconds : Nat) : Duration := ⟨seconds * perSecond + nanoseconds⟩

/-- Whole seconds of the duration. -/
def seconds (duration : Duration) : Nat := duration.nanoseconds / perSecond

/-- Nanoseconds beyond the whole seconds. -/
def fraction (duration : Duration) : Nat := duration.nanoseconds % perSecond

/-- The sum, cut off at the longest duration. -/
def add (left right : Duration) : Duration :=
  ⟨min (left.nanoseconds + right.nanoseconds) longest.nanoseconds⟩

/-- The time from `earlier` to `later`, zero if they are the other way round. -/
def since (later earlier : Duration) : Duration :=
  ⟨later.nanoseconds - earlier.nanoseconds⟩

instance : Add Duration := ⟨add⟩

instance : LE Duration := ⟨fun left right => left.nanoseconds ≤ right.nanoseconds⟩

instance : LT Duration := ⟨fun left right => left.nanoseconds < right.nanoseconds⟩

instance (left right : Duration) : Decidable (left ≤ right) :=
  inferInstanceAs (Decidable (left.nanoseconds ≤ right.nanoseconds))

instance (left right : Duration) : Decidable (left < right) :=
  inferInstanceAs (Decidable (left.nanoseconds < right.nanoseconds))

/-- Durations are ordered as their nanoseconds are. -/
theorem le_iff {left right : Duration} : left ≤ right ↔ left.nanoseconds ≤ right.nanoseconds :=
  Iff.rfl

/-- The sum in nanoseconds. -/
theorem add_nanoseconds (left right : Duration) :
    (left + right).nanoseconds =
      min (left.nanoseconds + right.nanoseconds) longest.nanoseconds := rfl

/-- A duration is no longer than itself. -/
theorem le_refl (duration : Duration) : duration ≤ duration := Nat.le_refl _

/-- The order of durations is transitive. -/
theorem le_trans {first second third : Duration} (left : first ≤ second) (right : second ≤ third) :
    first ≤ third := Nat.le_trans left right

/-- Of two durations, each no longer than the other, there is only one. -/
theorem le_antisymm {left right : Duration} (below : left ≤ right) (above : right ≤ left) :
    left = right := congrArg mk (Nat.le_antisymm below above)

/-- A duration that is not at most as long as another is longer. -/
theorem not_le {left right : Duration} : ¬left ≤ right ↔ right < left := Nat.not_le

/-- What is shorter is at most as long. -/
theorem le_of_lt {left right : Duration} (less : left < right) : left ≤ right := Nat.le_of_lt less

/-- No sum is longer than the longest duration. -/
theorem add_le_longest (left right : Duration) : left + right ≤ longest := Nat.min_le_right _ _

/-- A duration is no longer than its sum with another, also where the sum is cut off. -/
theorem le_add {left : Duration} (fits : left ≤ longest) (right : Duration) :
    left ≤ left + right := by
  rw [le_iff] at fits ⊢
  rw [add_nanoseconds]
  omega

/-- The duration nearest to a number of seconds, a half nanosecond going to the even neighbour.
There is none for a number below zero, from 2^64 on, or for NaN. -/
def ofSeconds? (seconds : Float) : Option Duration :=
  match Number.Exact.ofFloat seconds with
  | .notANumber => none
  | .infinite _ => none
  | .finite negative significand exponent =>
    let (numerator, denominator) := Number.Exact.quotient significand exponent
    if negative ∧ significand ≠ 0 then none
    else if Nat.pow 2 64 * denominator ≤ numerator then none
    else some ⟨Number.roundHalfEven (numerator * perSecond) denominator⟩

/-- The duration nearest to a number of milliseconds, where negative numbers and NaN count as
zero. -/
def ofMilliseconds? (milliseconds : Float) : Option Duration :=
  ofSeconds? ((if milliseconds > 0 then milliseconds else 0) / 1000)

end Duration

end EventScript
