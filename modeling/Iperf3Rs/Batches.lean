import Mathlib.Data.List.Basic

/-! Cutting a sequence into consecutive batches. Elements arrive one at a time and join the
open batch, and a cut closes it. No element is lost, duplicated or reordered. -/

namespace Iperf3Rs

structure Batches (α : Type*) where
  closed : List (List α)
  current : List α

namespace Batches

variable {α κ : Type*}

def all (b : Batches α) : List α := b.closed.flatten ++ b.current

def push (b : Batches α) (a : α) : Batches α := { b with current := b.current ++ [a] }

def cut (b : Batches α) : Batches α :=
  if b.current = [] then b else ⟨b.closed ++ [b.current], []⟩

@[simp] theorem push_all (b : Batches α) (a : α) : (b.push a).all = b.all ++ [a] := by
  simp [all, push]

@[simp] theorem cut_current (b : Batches α) : b.cut.current = [] := by
  unfold cut
  split <;> simp_all

@[simp] theorem cut_all (b : Batches α) : b.cut.all = b.all := by
  unfold cut
  split <;> simp_all [all]

def Agree (key : α → κ) (batch : List α) : Prop := ∀ x ∈ batch, ∀ y ∈ batch, key x = key y

theorem agree_nil (key : α → κ) : Agree key [] := by simp [Agree]

theorem Agree.push {key : α → κ} {batch : List α} {a : α} (h : Agree key batch)
    (ha : ∀ x ∈ batch, key x = key a) : Agree key (batch ++ [a]) := by
  intro x hx y hy
  simp only [List.mem_append, List.mem_singleton] at hx hy
  rcases hx with hx | rfl <;> rcases hy with hy | rfl
  · exact h x hx y hy
  · exact ha x hx
  · exact (ha y hy).symm
  · rfl

structure Uniform (key : α → κ) (b : Batches α) : Prop where
  closed_ne_nil : ∀ batch ∈ b.closed, batch ≠ []
  closed_agree : ∀ batch ∈ b.closed, Agree key batch
  current_agree : Agree key b.current

theorem Uniform.cut {key : α → κ} {b : Batches α} (h : b.Uniform key) : b.cut.Uniform key := by
  unfold Batches.cut
  split
  · exact h
  · next hne =>
    refine ⟨?_, ?_, agree_nil key⟩ <;> intro batch hb <;>
      rcases List.mem_append.mp hb with hb | hb
    · exact h.closed_ne_nil batch hb
    · exact List.mem_singleton.mp hb ▸ hne
    · exact h.closed_agree batch hb
    · exact List.mem_singleton.mp hb ▸ h.current_agree

theorem Uniform.push {key : α → κ} {b : Batches α} {a : α} (h : b.Uniform key)
    (ha : ∀ x ∈ b.current, key x = key a) : (b.push a).Uniform key :=
  ⟨h.closed_ne_nil, h.closed_agree, h.current_agree.push ha⟩

end Batches

/-- An ordered partition of `items` into nonempty batches that agree under `key`. -/
structure OrderedPartition {α κ : Type*} (key : α → κ) (items : List α)
    (batches : List (List α)) : Prop where
  flatten_eq : batches.flatten = items
  ne_nil : ∀ batch ∈ batches, batch ≠ []
  agree : ∀ batch ∈ batches, Batches.Agree key batch

theorem Batches.Uniform.orderedPartition {α κ : Type*} {key : α → κ} {b : Batches α}
    (h : b.Uniform key) (hc : b.current = []) : OrderedPartition key b.all b.closed :=
  ⟨by simp [Batches.all, hc], h.closed_ne_nil, h.closed_agree⟩

end Iperf3Rs
