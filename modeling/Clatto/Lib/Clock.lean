import Mathlib.Tactic.Common
import Mathlib.Data.Int.Init

/-! Points in time and durations, to the nanosecond. -/

namespace Clatto

/-- `time.Duration`: nanoseconds. -/
abbrev Duration := Int64

def Duration.seconds (d : Duration) : Int64 := d / 1000000000

/-- `time.Time`, which counts seconds from year one in 64 bits: what `Unix` returns
stays below the largest number of 64 bits by the seconds up to 1970. -/
structure Time where
  unix : Int64
  nano : Nat
  nano_lt : nano < 1000000000
  unix_le : unix.toInt ≤ 9223372036854775807 - 62135596800

def Time.ns (t : Time) : Int := t.unix.toInt * 1000000000 + t.nano

theorem Duration.toInt_seconds (d : Duration) : d.seconds.toInt = d.toInt.tdiv 1000000000 := by
  rw [seconds, Int64.toInt_div_of_ne_right _ _ (by decide)]
  rfl

theorem Duration.seconds_le (d : Duration) : d.seconds.toInt ≤ 9223372036 := by
  have bound : d.toInt ≤ 2 ^ 63 - 1 := d.toInt_le
  rw [toInt_seconds, Int.tdiv_eq_ediv]
  split
  · omega
  · rename_i negative
    have : d.toInt < 0 := by omega
    change d.toInt / 1000000000 + 1 ≤ _
    omega

theorem Duration.le_seconds (d : Duration) : -9223372036 ≤ d.seconds.toInt := by
  have bound : -2 ^ 63 ≤ d.toInt := d.le_toInt
  rw [toInt_seconds, Int.tdiv_eq_ediv]
  split
  · omega
  · change _ ≤ d.toInt / 1000000000 + 1
    omega

def Duration.Whole (d : Duration) : Prop := d.toInt % 1000000000 = 0

instance (d : Duration) : Decidable d.Whole := inferInstanceAs (Decidable (_ = _))

theorem Duration.Whole.toInt_eq {d : Duration} (whole : d.Whole) :
    d.toInt = d.seconds.toInt * 1000000000 := by
  rw [toInt_seconds, Int.tdiv_mul_cancel (Int.dvd_of_emod_eq_zero whole)]

namespace Time

variable {s t : Time}

theorem unix_mono (le : s.ns ≤ t.ns) : s.unix.toInt ≤ t.unix.toInt := by
  have := s.nano_lt
  have := t.nano_lt
  rw [ns, ns] at le
  omega

theorem unix_le_add {lease : Duration} (whole : lease.Whole) (le : t.ns ≤ s.ns + lease.toInt) :
    t.unix.toInt ≤ s.unix.toInt + lease.seconds.toInt := by
  have := s.nano_lt
  have := t.nano_lt
  rw [ns, ns, whole.toInt_eq] at le
  omega

theorem toInt_add_seconds {used : Int64} (pos : 0 < used.toInt) (past : used.toInt ≤ t.unix.toInt)
    (lease : Duration) : (used + lease.seconds).toInt = used.toInt + lease.seconds.toInt := by
  have := lease.seconds_le
  have := lease.le_seconds
  have := t.unix_le
  rw [Int64.toInt_add, Int.bmod_eq_of_le (by omega) (by omega)]

/-- Before a lease has run out, the machine's comparison does not say that it has. -/
theorem not_expired {used : Int64} {lease : Duration} (past : used.toInt ≤ t.unix.toInt)
    (early : t.unix.toInt ≤ used.toInt + lease.seconds.toInt) : ¬ used + lease.seconds < t.unix := by
  have short := lease.seconds_le
  have bound := t.unix_le
  have low := used.le_toInt
  rw [Int64.lt_iff_toInt_lt, Int64.toInt_add, Int.bmod_eq_of_le (by omega) (by omega)]
  omega

end Time

end Clatto
