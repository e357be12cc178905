import Mathlib.Data.List.Basic

set_option autoImplicit false

/-!
# Pictures in layers

A layer shows a value at some places of the plane and lets the layers below show
through at the others. Painting one thing after the other stacks their layers.
-/
namespace TuiTetris.LibLayers

variable {α β : Type}

abbrev Layer (α : Type) := ℕ → ℕ → Option α

namespace Layer

def clear : Layer α := fun _ _ => none

/-- One value on a rectangle. -/
def rect (x y w h : ℕ) (a : α) : Layer α := fun i j =>
  if x ≤ i ∧ i < x + w ∧ y ≤ j ∧ j < y + h then some a else none

/-- A sequence of values from a place to the right. -/
def text (x y : ℕ) (as : List α) : Layer α := fun i j =>
  if j = y ∧ x ≤ i then as[i - x]? else none

def atop (top bottom : Layer α) : Layer α := fun i j => (top i j).or (bottom i j)

/-- Later layers lie on top of earlier ones. -/
def stack : List (Layer α) → Layer α
  | [] => clear
  | l :: ls => (stack ls).atop l

@[simp] theorem atop_apply (top bottom : Layer α) (i j : ℕ) :
    top.atop bottom i j = (top i j).or (bottom i j) := rfl

theorem atop_some {top bottom : Layer α} {i j : ℕ} {a : α} (h : top i j = some a) :
    top.atop bottom i j = some a := by
  rw [atop_apply, h, Option.some_or]

theorem atop_none {top bottom : Layer α} {i j : ℕ} (h : top i j = none) :
    top.atop bottom i j = bottom i j := by
  rw [atop_apply, h, Option.none_or]

theorem rect_inside {x y w h i j : ℕ} {a : α} (hx : x ≤ i ∧ i < x + w) (hy : y ≤ j ∧ j < y + h) :
    rect x y w h a i j = some a := if_pos ⟨hx.1, hx.2, hy⟩

theorem rect_outside {x y w h i j : ℕ} {a : α} (ho : ¬(x ≤ i ∧ i < x + w ∧ y ≤ j ∧ j < y + h)) :
    rect x y w h a i j = none := if_neg ho

theorem text_left {x y i j : ℕ} {as : List α} (h : i < x) : text x y as i j = none :=
  if_neg fun hi => absurd hi.2 (Nat.not_le.mpr h)

/-- The stack shows nothing exactly where no layer does. -/
theorem stack_eq_none {ls : List (Layer α)} {i j : ℕ} :
    stack ls i j = none ↔ ∀ l ∈ ls, l i j = none := by
  induction ls with
  | nil => exact ⟨fun _ l hl => absurd hl List.not_mem_nil, fun _ => rfl⟩
  | cons l ls ih => rw [stack, atop_apply, Option.or_eq_none_iff, ih, List.forall_mem_cons, and_comm]

/-- What the stack shows is what one of its layers shows. -/
theorem stack_mem {ls : List (Layer α)} {i j : ℕ} {a : α} (h : stack ls i j = some a) :
    ∃ l ∈ ls, l i j = some a := by
  induction ls with
  | nil => cases h
  | cons l ls ih =>
    rw [stack, atop_apply, Option.or_eq_some_iff] at h
    rcases h with h | ⟨-, h⟩
    · obtain ⟨m, hm, ha⟩ := ih h
      exact ⟨m, List.mem_cons_of_mem l hm, ha⟩
    · exact ⟨l, List.mem_cons_self, h⟩

/-- Where the layers that show something agree, the stack shows it. -/
theorem stack_some {ls : List (Layer α)} {i j : ℕ} {a : α} {l : Layer α} (hl : l ∈ ls)
    (ha : l i j = some a) (h : ∀ m ∈ ls, m i j = none ∨ m i j = some a) : stack ls i j = some a := by
  cases hs : stack ls i j with
  | none =>
    have hn := stack_eq_none.mp hs l hl
    rw [ha] at hn
    cases hn
  | some b =>
    obtain ⟨m, hm, hb⟩ := stack_mem hs
    rcases h m hm with hn | hn
    · rw [hb] at hn
      cases hn
    · exact hb.symm.trans hn

end Layer

end TuiTetris.LibLayers
