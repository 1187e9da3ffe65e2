import Mathlib.Data.List.Basic

/-! Linearizable channels. A channel is a FIFO buffer with an optional capacity and the number
of connected endpoints on either side; every operation on it is one atomic step. Buffered values
are still delivered after the last sender has gone. -/

namespace Iperf3Rs

structure Chan (α : Type*) where
  capacity : Option ℕ
  buf : List α
  senders : ℕ
  receivers : ℕ

inductive TrySend (α : Type*) where
  | ok
  | full (value : α)
  | disconnected (value : α)

inductive TryRecv (α : Type*) where
  | ok (value : α)
  | empty
  | disconnected

namespace Chan

variable {α : Type*}

def isFull (c : Chan α) : Bool :=
  match c.capacity with
  | some n => n ≤ c.buf.length
  | none => false

def trySend (c : Chan α) (value : α) : TrySend α × Chan α :=
  if c.receivers = 0 then (.disconnected value, c)
  else if c.isFull then (.full value, c)
  else (.ok, { c with buf := c.buf ++ [value] })

def tryRecv (c : Chan α) : TryRecv α × Chan α :=
  match c.buf with
  | value :: rest => (.ok value, { c with buf := rest })
  | [] => (if c.senders = 0 then .disconnected else .empty, c)

def dropSender (c : Chan α) : Chan α := { c with senders := c.senders - 1 }

def dropReceiver (c : Chan α) : Chan α := { c with receivers := c.receivers - 1 }

@[simp] theorem trySend_capacity (c : Chan α) (value : α) :
    (c.trySend value).2.capacity = c.capacity := by
  simp only [trySend]
  split_ifs <;> rfl

@[simp] theorem trySend_senders (c : Chan α) (value : α) :
    (c.trySend value).2.senders = c.senders := by
  simp only [trySend]
  split_ifs <;> rfl

@[simp] theorem trySend_receivers (c : Chan α) (value : α) :
    (c.trySend value).2.receivers = c.receivers := by
  simp only [trySend]
  split_ifs <;> rfl

@[simp] theorem tryRecv_capacity (c : Chan α) : c.tryRecv.2.capacity = c.capacity := by
  simp only [tryRecv]
  split <;> rfl

@[simp] theorem tryRecv_senders (c : Chan α) : c.tryRecv.2.senders = c.senders := by
  simp only [tryRecv]
  split <;> rfl

@[simp] theorem tryRecv_receivers (c : Chan α) : c.tryRecv.2.receivers = c.receivers := by
  simp only [tryRecv]
  split <;> rfl

@[simp] theorem tryRecv_buf (c : Chan α) : c.tryRecv.2.buf = c.buf.tail := by
  cases h : c.buf <;> simp [tryRecv, h]

/-- An unbounded channel takes every value while a receiver is connected. -/
theorem trySend_unbounded {c : Chan α} (hc : c.capacity = none) (hr : c.receivers ≠ 0)
    (value : α) : c.trySend value = (.ok, { c with buf := c.buf ++ [value] }) := by
  simp [trySend, isFull, hc, hr]

theorem trySend_nil {c : Chan α} {n : ℕ} (hc : c.capacity = some (n + 1)) (hr : c.receivers ≠ 0)
    (hb : c.buf = []) (value : α) :
    c.trySend value = (.ok, { c with buf := [value] }) := by
  simp [trySend, isFull, hc, hr, hb]

end Chan

end Iperf3Rs
