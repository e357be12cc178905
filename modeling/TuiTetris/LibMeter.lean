import Mathlib.Algebra.GroupWithZero.Nat
import TuiTetris.LibTransition

set_option autoImplicit false

/-!
# Meters

A meter takes amounts in and gives whole units out; what is left stays in its
store. Along a run nothing is gained or lost, so the number of units follows from
the amounts alone.
-/
namespace TuiTetris.LibMeter
open LibTransition

variable {σ ε : Type}

/-- The sum of a quantity over the steps of a run. -/
def total (step : σ → ε → σ) (f : σ → ε → ℕ) : σ → List ε → ℕ
  | _, [] => 0
  | s, e :: es => f s e + total step f (step s e) es

/-- Every step of the run is taken in a state where it meets the condition. -/
def Along (step : σ → ε → σ) (P : σ → ε → Prop) : σ → List ε → Prop
  | _, [] => True
  | s, e :: es => P s e ∧ Along step P (step s e) es

variable {step : σ → ε → σ} {P : σ → ε → Prop}

/-- An invariant of the steps that meet the condition may be added to it. -/
theorem Along.with_invariant (I : σ → Prop) (hi : ∀ s e, I s → P s e → I (step s e)) {s : σ}
    {es : List ε} (h : I s) (hp : Along step P s es) :
    Along step (fun s e => I s ∧ P s e) s es ∧ I (run step s es) := by
  induction es generalizing s with
  | nil => exact ⟨trivial, h⟩
  | cons e es ih =>
    obtain ⟨hrest, hend⟩ := ih (hi s e h hp.1) hp.2
    exact ⟨⟨⟨h, hp.1⟩, hrest⟩, hend⟩

/-- What the units account for and what is left make up what was there and what came in. -/
theorem conserved (store : σ → ℕ) (input output : σ → ε → ℕ) (rate : ℕ)
    (h : ∀ s e, P s e → output s e * rate + store (step s e) = store s + input s e) {s : σ}
    {es : List ε} (hp : Along step P s es) :
    total step output s es * rate + store (run step s es) = store s + total step input s es := by
  induction es generalizing s with
  | nil => exact (Nat.zero_mul rate).symm ▸ Nat.add_comm 0 (store s)
  | cons e es ih =>
    have hstep := h s e hp.1
    have hrest := ih hp.2
    rw [total, total, run_cons, Nat.add_mul]
    omega

/-- A store that releases nothing collects what comes in. -/
theorem collected (store : σ → ℕ) (input : σ → ε → ℕ)
    (h : ∀ s e, P s e → store (step s e) = store s + input s e) {s : σ} {es : List ε}
    (hp : Along step P s es) : store (run step s es) = store s + total step input s es := by
  have hall := conserved store input (fun _ _ => 0) 0 (fun s e he => by rw [h s e he]; omega) hp
  omega

/-- A quantity of the labels alone. -/
theorem total_labels (f : ε → ℕ) (s : σ) (es : List ε) :
    total step (fun _ e => f e) s es = (es.map f).sum := by
  induction es generalizing s with
  | nil => rfl
  | cons e es ih => rw [total, ih, List.map_cons, List.sum_cons]

/-- The rises of a level that never falls add up to its rise over the run. -/
theorem total_rises (level : σ → ℕ) (h : ∀ s e, P s e → level s ≤ level (step s e)) {s : σ}
    {es : List ε} (hp : Along step P s es) :
    level s + total step (fun s e => level (step s e) - level s) s es = level (run step s es) := by
  induction es generalizing s with
  | nil => rfl
  | cons e es ih =>
    have hstep := h s e hp.1
    have hrest := ih hp.2
    rw [total, run_cons]
    omega

/-- A store below one unit leaves the quotient. -/
theorem units_eq {units rate rest amount : ℕ} (h : units * rate + rest = amount) (hr : rest < rate) :
    units = amount / rate := by
  rw [← h, Nat.mul_comm, Nat.mul_add_div (Nat.zero_lt_of_lt hr), Nat.div_eq_of_lt hr, Nat.add_zero]

/-- A rank that pays the cost of every step that is not yet `Q` brings `Q` about: a run that costs
more than the rank has a step that is `Q`. -/
theorem reached_of_cost (step : σ → ε → σ) (P : σ → ε → Prop) (I : σ → Prop) (Q : σ → ε → Prop)
    (rank : σ → ℕ) (cost : ε → ℕ)
    (h : ∀ s e, I s → P s e → ¬Q s e → I (step s e) ∧ rank (step s e) + cost e ≤ rank s) {s : σ}
    (es : List ε) (hs : I s) (hp : ∀ s, ∀ e ∈ es, P s e) (hc : rank s < (es.map cost).sum) :
    ∃ k e, es[k]? = some e ∧ I (run step s (es.take k)) ∧ Q (run step s (es.take k)) e := by
  induction es generalizing s with
  | nil => exact absurd hc (Nat.not_lt_zero _)
  | cons e es ih =>
    by_cases hq : Q s e
    · exact ⟨0, e, rfl, hs, hq⟩
    · obtain ⟨hi, hr⟩ := h s e hs (hp s e List.mem_cons_self) hq
      rw [List.map_cons, List.sum_cons] at hc
      obtain ⟨k, f, hf, hk⟩ := ih hi (fun s f hf => hp s f (List.mem_cons_of_mem _ hf)) (by omega)
      exact ⟨k + 1, f, hf, hk⟩

end TuiTetris.LibMeter
