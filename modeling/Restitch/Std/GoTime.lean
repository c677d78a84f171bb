import Mathlib.Data.Nat.Basic

/-!
# Times

A time is a number of milliseconds since the epoch.
-/

namespace Restitch.Std.GoTime

/-- `Truncate(time.Minute)`, as the number of the minute. -/
def minuteOf (time : Nat) : Nat := time / 60000

/-- A number of days. -/
def days (count : Nat) : Nat := count * 86400000

end Restitch.Std.GoTime
