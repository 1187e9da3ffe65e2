import Mathlib.Algebra.Group.Nat.Defs
import Mathlib.Data.List.Basic

/-! Durations, instants and the checked deadline, with the crate's error type. An error keeps
its category and text; the boxed source is only ever printed. An instant is a number of
nanoseconds, and `limit` is the last one the platform can represent. -/

namespace Iperf3Rs

inductive ErrorKind where
  | invalidArgument
  | invalidMetricsMode
  | libiperf
  | pushGateway
  | metricsFile
  | worker
  | internal
  deriving DecidableEq, Repr

structure Error where
  kind : ErrorKind
  message : String
  deriving DecidableEq, Repr

def Error.invalidArgument (message : String) : Error := ⟨.invalidArgument, message⟩

structure Duration where
  secs : ℕ
  nanos : ℕ
  secs_lt : secs < 2 ^ 64
  nanos_lt : nanos < 10 ^ 9
  deriving DecidableEq, Repr

def Duration.fromSecs (secs : ℕ) (h : secs < 2 ^ 64) : Duration := ⟨secs, 0, h, by decide⟩

def Duration.second : Duration := .fromSecs 1 (by decide)

def Duration.asNanos (d : Duration) : ℕ := 10 ^ 9 * d.secs + d.nanos

def Duration.isZero (d : Duration) : Bool := d.secs == 0 && d.nanos == 0

abbrev Instant := ℕ

def Instant.checkedAdd (limit now : Instant) (d : Duration) : Option Instant :=
  if now + d.asNanos ≤ limit then some (now + d.asNanos) else none

def checkedDeadline (limit now : Instant) (interval : Duration) : Except Error Instant :=
  match Instant.checkedAdd limit now interval with
  | some deadline => .ok deadline
  | none => .error (.invalidArgument "duration exceeds runtime deadline range")

end Iperf3Rs
