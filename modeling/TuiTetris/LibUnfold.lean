import Mathlib.Data.List.Basic

set_option autoImplicit false

/-!
# Outputs of a generator

A generator turns its state into an output and a next state. `outputs` lists the
first outputs, `rest` is the state left behind.
-/
namespace TuiTetris.LibUnfold

variable {σ α : Type}

def outputs (next : σ → α × σ) : ℕ → σ → List α
  | 0, _ => []
  | n + 1, s => (next s).1 :: outputs next n (next s).2

def rest (next : σ → α × σ) : ℕ → σ → σ
  | 0, s => s
  | n + 1, s => rest next n (next s).2

theorem outputs_length (next : σ → α × σ) (n : ℕ) (s : σ) : (outputs next n s).length = n := by
  induction n generalizing s with
  | zero => rfl
  | succ n ih => rw [outputs, List.length_cons, ih]

theorem rest_add (next : σ → α × σ) (m n : ℕ) (s : σ) :
    rest next (m + n) s = rest next n (rest next m s) := by
  induction m generalizing s with
  | zero => rw [Nat.zero_add, rest]
  | succ m ih => rw [Nat.succ_add, rest, ih, rest]

theorem outputs_add (next : σ → α × σ) (m n : ℕ) (s : σ) :
    outputs next (m + n) s = outputs next m s ++ outputs next n (rest next m s) := by
  induction m generalizing s with
  | zero => rw [Nat.zero_add, outputs, List.nil_append, rest]
  | succ m ih => rw [Nat.succ_add, outputs, ih, outputs, List.cons_append, rest]

theorem outputs_drop (next : σ → α × σ) (m n : ℕ) (s : σ) :
    (outputs next (m + n) s).drop m = outputs next n (rest next m s) := by
  rw [outputs_add, List.drop_left' (outputs_length next m s)]

/-- A state that acts as another one from its next output on has its outputs. -/
theorem outputs_congr {next : σ → α × σ} {s u : σ} (h : next s = next u) (n : ℕ) :
    outputs next n s = outputs next n u := by
  cases n with
  | zero => rfl
  | succ n => rw [outputs, outputs, h]

theorem rest_congr {next : σ → α × σ} {s u : σ} (h : next s = next u) (n : ℕ) :
    rest next (n + 1) s = rest next (n + 1) u := by
  rw [rest, rest, h]

theorem rest_invariant {next : σ → α × σ} {I : σ → Prop} (hp : ∀ s, I s → I (next s).2) (n : ℕ)
    {s : σ} (hs : I s) : I (rest next n s) := by
  induction n generalizing s with
  | zero => exact hs
  | succ n ih => exact ih (hp s hs)

end TuiTetris.LibUnfold
