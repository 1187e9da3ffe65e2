import Iperf3Rs.Metrics
import Mathlib.Data.Rat.Defs
import Mathlib.Algebra.Order.Ring.Rat

/-! Exact arithmetic in place of rounding: rational numbers with a NaN and two infinities,
under the rules IEEE 754 gives for the special values. Zero carries no sign. -/

namespace Iperf3Rs

inductive ExactF64 where
  | nan
  | inf (negative : Bool)
  | finite (q : ℚ)
  deriving DecidableEq

namespace ExactF64

def add : ExactF64 → ExactF64 → ExactF64
  | finite a, finite b => finite (a + b)
  | inf s, inf t => if s = t then inf s else nan
  | inf s, finite _ => inf s
  | finite _, inf t => inf t
  | nan, _ => nan
  | _, nan => nan

def signed (s : Bool) (q : ℚ) : ExactF64 :=
  if q = 0 then nan else inf (s ^^ decide (q < 0))

def mul : ExactF64 → ExactF64 → ExactF64
  | finite a, finite b => finite (a * b)
  | inf s, inf t => inf (s ^^ t)
  | inf s, finite q => signed s q
  | finite q, inf t => signed t q
  | nan, _ => nan
  | _, nan => nan

def div : ExactF64 → ExactF64 → ExactF64
  | finite a, finite b => if b = 0 then signed false a else finite (a / b)
  | inf _, inf _ => nan
  | inf s, finite q => inf (s ^^ decide (q < 0))
  | finite _, inf _ => finite 0
  | nan, _ => nan
  | _, nan => nan

def lt : ExactF64 → ExactF64 → Bool
  | finite a, finite b => a < b
  | inf s, inf t => s && !t
  | inf s, finite _ => s
  | finite _, inf t => !t
  | nan, _ => false
  | _, nan => false

/-- `f64::min` and `f64::max` return the other operand when one is NaN. -/
def min : ExactF64 → ExactF64 → ExactF64
  | nan, b => b
  | a, nan => a
  | a, b => if lt b a then b else a

def max : ExactF64 → ExactF64 → ExactF64
  | nan, b => b
  | a, nan => a
  | a, b => if lt a b then b else a

def isFinite : ExactF64 → Bool
  | finite _ => true
  | _ => false

end ExactF64

instance : F64 ExactF64 where
  zero := .finite 0
  one := .finite 1
  add := ExactF64.add
  mul := ExactF64.mul
  div := ExactF64.div
  min := ExactF64.min
  max := ExactF64.max
  natCast n := .finite n
  isFinite := ExactF64.isFinite
  lt := ExactF64.lt

end Iperf3Rs
