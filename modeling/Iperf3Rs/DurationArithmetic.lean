import Iperf3Rs.Clock

/-! The order and the saturating product of durations, as whole numbers of nanoseconds. -/

namespace Iperf3Rs

namespace Duration

def max : Duration := ⟨2 ^ 64 - 1, 10 ^ 9 - 1, by decide, by decide⟩

theorem nanos_lt_of_millis (millis : ℕ) : 1000000 * (millis % 1000) < 10 ^ 9 := by
  omega

def fromMillis (millis : ℕ) (h : millis < 2 ^ 64) : Duration :=
  ⟨millis / 1000, 1000000 * (millis % 1000), by omega, nanos_lt_of_millis millis⟩

/-- The derived order compares the seconds first. -/
def le (d e : Duration) : Bool := d.secs < e.secs || (d.secs == e.secs && d.nanos ≤ e.nanos)

def min (d e : Duration) : Duration := if d.le e then d else e

/-- `saturating_mul` by a `u32`: the nanoseconds carry into the seconds, which may overflow. -/
def saturatingMul (d : Duration) (factor : ℕ) : Duration :=
  if h : d.secs * factor + d.nanos * factor / 10 ^ 9 < 2 ^ 64 then
    ⟨d.secs * factor + d.nanos * factor / 10 ^ 9, d.nanos * factor % 10 ^ 9, h, by omega⟩
  else max

theorem asNanos_injective : Function.Injective asNanos := by
  intro d e h
  obtain ⟨secs, nanos, hs, hn⟩ := d
  obtain ⟨secs', nanos', hs', hn'⟩ := e
  simp only [asNanos] at h
  obtain rfl : secs = secs' := by omega
  obtain rfl : nanos = nanos' := by omega
  rfl

theorem le_iff_asNanos (d e : Duration) : d.le e = true ↔ d.asNanos ≤ e.asNanos := by
  have hd := d.nanos_lt
  have he := e.nanos_lt
  simp only [le, asNanos, Bool.or_eq_true, decide_eq_true_eq, Bool.and_eq_true, beq_iff_eq]
  omega

theorem isZero_iff_asNanos (d : Duration) : d.isZero = true ↔ d.asNanos = 0 := by
  simp only [isZero, asNanos, Bool.and_eq_true, beq_iff_eq]
  omega

theorem asNanos_fromMillis (millis : ℕ) (h : millis < 2 ^ 64) :
    (fromMillis millis h).asNanos = 10 ^ 6 * millis := by
  simp only [fromMillis, asNanos]
  omega

theorem asNanos_min (d e : Duration) :
    (d.min e).asNanos = Min.min d.asNanos e.asNanos := by
  have hle := le_iff_asNanos d e
  by_cases h : d.le e = true
  · rw [min, if_pos h, Nat.min_eq_left (hle.mp h)]
  · have hlt : e.asNanos ≤ d.asNanos := by
      have hn := mt hle.mpr h
      omega
    rw [min, if_neg h, Nat.min_eq_right hlt]

theorem asNanos_saturatingMul (d : Duration) (factor : ℕ) :
    (d.saturatingMul factor).asNanos = Min.min (d.asNanos * factor) max.asNanos := by
  have hcarry := Nat.div_add_mod (d.nanos * factor) (10 ^ 9)
  have hrest : d.nanos * factor % 10 ^ 9 < 10 ^ 9 := Nat.mod_lt _ (by decide)
  have hprod : d.asNanos * factor = 10 ^ 9 * (d.secs * factor) + d.nanos * factor := by
    rw [asNanos, Nat.add_mul, Nat.mul_assoc]
  rw [hprod, saturatingMul]
  by_cases h : d.secs * factor + d.nanos * factor / 10 ^ 9 < 2 ^ 64
  · rw [dif_pos h]
    simp only [asNanos, max]
    omega
  · rw [dif_neg h]
    simp only [asNanos, max]
    omega

end Duration

end Iperf3Rs
