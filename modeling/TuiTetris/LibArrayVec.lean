import Mathlib.Data.List.Basic

set_option autoImplicit false

/-!
# Vectors with a fixed capacity

The bound is part of the value, so no client proves it again.
-/
namespace TuiTetris.LibArrayVec

structure ArrayVec (α : Type) (cap : ℕ) where
  toList : List α
  length_le : toList.length ≤ cap
  deriving DecidableEq

namespace ArrayVec

variable {α : Type} {cap : ℕ}

def empty : ArrayVec α cap := ⟨[], Nat.zero_le cap⟩

/-- Refused when the vector is full. -/
def tryPush (v : ArrayVec α cap) (a : α) : Option (ArrayVec α cap) :=
  if h : v.toList.length < cap then
    some ⟨v.toList ++ [a], by
      rw [List.length_append, List.length_singleton]
      exact h⟩
  else none

/-- The vector itself when it is full; a caller keeps room. -/
def push (v : ArrayVec α cap) (a : α) : ArrayVec α cap := (v.tryPush a).getD v

def isFull (v : ArrayVec α cap) : Bool := v.toList.length = cap

/-- `remove(0)`. -/
def dropFirst (v : ArrayVec α cap) : ArrayVec α cap :=
  ⟨v.toList.tail, by
    rw [List.length_tail]
    exact Nat.le_trans (Nat.sub_le _ _) v.length_le⟩

def map {β : Type} (f : α → β) (v : ArrayVec α cap) : ArrayVec β cap :=
  ⟨v.toList.map f, by
    rw [List.length_map]
    exact v.length_le⟩

@[simp] theorem map_toList {β : Type} (f : α → β) (v : ArrayVec α cap) :
    (v.map f).toList = v.toList.map f := rfl

@[simp] theorem empty_toList : (empty : ArrayVec α cap).toList = [] := rfl

theorem take_toList (v : ArrayVec α cap) : v.toList.take cap = v.toList :=
  List.take_of_length_le v.length_le

theorem ext_toList {v w : ArrayVec α cap} (h : v.toList = w.toList) : v = w := by
  cases v
  cases w
  cases h
  rfl

theorem tryPush_eq_some (v w : ArrayVec α cap) (a : α) :
    v.tryPush a = some w ↔ w.toList = v.toList ++ [a] := by
  unfold tryPush
  constructor
  · intro h
    split at h
    · cases h
      rfl
    · cases h
  · intro h
    have hlt : v.toList.length < cap := by
      have hw := w.length_le
      rw [h, List.length_append, List.length_singleton] at hw
      exact hw
    rw [dif_pos hlt]
    exact congrArg some (ext_toList h.symm)

theorem push_toList (v : ArrayVec α cap) (a : α) (h : v.toList.length < cap) :
    (v.push a).toList = v.toList ++ [a] := by
  unfold push tryPush
  rw [dif_pos h]
  rfl

/-- A full vector refuses what is pushed. -/
theorem push_toList_take (v : ArrayVec α cap) (a : α) :
    (v.push a).toList = (v.toList ++ [a]).take cap := by
  have hle := v.length_le
  by_cases hroom : v.toList.length < cap
  · rw [push_toList v a hroom, List.take_of_length_le]
    rw [List.length_append, List.length_singleton]
    exact hroom
  · have hfull : v.toList.length = cap := by omega
    rw [List.take_left' hfull]
    unfold push tryPush
    rw [dif_neg hroom]
    rfl

end ArrayVec

/-- What no longer fits may be cut off at once or in the end. -/
theorem take_append_take {α : Type} (xs ys : List α) (n : ℕ) :
    (xs.take n ++ ys).take n = (xs ++ ys).take n := by
  rw [List.take_append, List.take_append, List.take_take, Nat.min_self, List.length_take]
  congr 2
  omega

end TuiTetris.LibArrayVec
