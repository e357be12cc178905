import Mathlib.Data.List.Basic

set_option autoImplicit false

/-!
# Labelled transition systems

States reached from given starts by any finite number of labelled steps, and the
rule that carries an invariant over them. A side condition on steps is part of
the relation, so the same rule serves runs whose steps all meet a condition.
-/
namespace TuiTetris.LibTransition

variable {σ ε μ : Type}

inductive Reach (start : σ → Prop) (next : σ → ε → σ → Prop) : σ → Prop where
  | init {s : σ} (h : start s) : Reach start next s
  | step {s u : σ} {e : ε} (h : Reach start next s) (hs : next s e u) : Reach start next u

/-- An invariant of the starts that every step preserves holds of every reached state. -/
theorem Reach.invariant {start : σ → Prop} {next : σ → ε → σ → Prop} {I : σ → Prop} {s : σ}
    (h : Reach start next s) (hi : ∀ s, start s → I s)
    (hp : ∀ s e u, I s → next s e u → I u) : I s := by
  induction h with
  | init h => exact hi _ h
  | step _ hs ih => exact hp _ _ _ ih hs

def run (step : σ → ε → σ) (s : σ) (es : List ε) : σ := es.foldl step s

/-- What the steps of a run emit, in order. -/
def trace (step : σ → ε → σ) (emit : σ → ε → List μ) : σ → List ε → List μ
  | _, [] => []
  | s, e :: es => emit s e ++ trace step emit (step s e) es

@[simp] theorem run_nil (step : σ → ε → σ) (s : σ) : run step s [] = s := rfl

@[simp] theorem run_cons (step : σ → ε → σ) (s : σ) (e : ε) (es : List ε) :
    run step s (e :: es) = run step (step s e) es := rfl

theorem run_append (step : σ → ε → σ) (s : σ) (es fs : List ε) :
    run step s (es ++ fs) = run step (run step s es) fs :=
  List.foldl_append

/-- An invariant that every step preserves holds after a run. -/
theorem run_invariant {step : σ → ε → σ} {I : σ → Prop} (hp : ∀ s e, I s → I (step s e)) {s : σ}
    (h : I s) (es : List ε) : I (run step s es) := by
  induction es generalizing s with
  | nil => exact h
  | cons e es ih => exact ih (hp s e h)

theorem trace_append (step : σ → ε → σ) (emit : σ → ε → List μ) (s : σ) (es fs : List ε) :
    trace step emit s (es ++ fs) =
      trace step emit s es ++ trace step emit (run step s es) fs := by
  induction es generalizing s with
  | nil => rfl
  | cons e es ih => simp only [List.cons_append, trace, ih, run_cons, List.append_assoc]

/-- Everything a run emits is emitted by one of its steps, in the state before it. -/
theorem mem_trace {step : σ → ε → σ} {emit : σ → ε → List μ} {s : σ} {es : List ε} {m : μ} :
    m ∈ trace step emit s es ↔
      ∃ k e, es[k]? = some e ∧ m ∈ emit (run step s (es.take k)) e := by
  induction es generalizing s with
  | nil => exact ⟨fun h => (nomatch h), fun ⟨k, e, h, _⟩ => (nomatch h)⟩
  | cons e es ih =>
    rw [trace, List.mem_append, ih]
    constructor
    · rintro (h | ⟨k, f, hf, hm⟩)
      · exact ⟨0, e, rfl, h⟩
      · exact ⟨k + 1, f, hf, hm⟩
    · rintro ⟨k, f, hf, hm⟩
      cases k with
      | zero =>
        cases hf
        exact .inl hm
      | succ k => exact .inr ⟨k, f, hf, hm⟩

theorem run_take_succ {step : σ → ε → σ} {s : σ} {es : List ε} {k : ℕ} {e : ε}
    (h : es[k]? = some e) : run step s (es.take (k + 1)) = step (run step s (es.take k)) e := by
  rw [List.take_add_one, h, run_append]
  rfl

/-- A map of the states that every step commutes with commutes with runs. -/
theorem run_commutes {step : σ → ε → σ} {f : σ → σ} (h : ∀ s e, step (f s) e = f (step s e)) (s : σ)
    (es : List ε) : run step (f s) es = f (run step s es) := by
  induction es generalizing s with
  | nil => rfl
  | cons e es ih => rw [run_cons, run_cons, h, ih]

theorem trace_commutes {step : σ → ε → σ} {emit : σ → ε → List μ} {f : σ → σ}
    (h : ∀ s e, step (f s) e = f (step s e)) (hm : ∀ s e, emit (f s) e = emit s e) (s : σ)
    (es : List ε) : trace step emit (f s) es = trace step emit s es := by
  induction es generalizing s with
  | nil => rfl
  | cons e es ih => rw [trace, trace, hm, h, ih]

theorem trace_length (step : σ → ε → σ) (emit : σ → ε → List μ) (k : ℕ)
    (h : ∀ s e, (emit s e).length ≤ k) (s : σ) (es : List ε) :
    (trace step emit s es).length ≤ k * es.length := by
  induction es generalizing s with
  | nil => exact Nat.zero_le _
  | cons e es ih =>
    have h1 := h s e
    have h2 := ih (step s e)
    rw [trace, List.length_append, List.length_cons, Nat.mul_succ]
    omega

/-- A run of a partial step function is a run of any relation that its steps belong to. -/
theorem Reach.foldlM_of {start : σ → Prop} {next : σ → ε → σ → Prop} {step : σ → ε → Option σ}
    {s u : σ} (hn : ∀ s e u, step s e = some u → next s e u) (h : Reach start next s) (es : List ε)
    (hu : es.foldlM step s = some u) : Reach start next u := by
  induction es generalizing s with
  | nil =>
    cases hu
    exact h
  | cons e es ih =>
    rw [List.foldlM_cons] at hu
    obtain ⟨v, hv, hrest⟩ := Option.bind_eq_some_iff.mp hu
    exact ih (.step h (hn _ _ _ hv)) hrest

theorem Reach.foldlM {start : σ → Prop} {step : σ → ε → Option σ} {s u : σ}
    (h : Reach start (fun s e u => step s e = some u) s) (es : List ε)
    (hu : es.foldlM step s = some u) : Reach start (fun s e u => step s e = some u) u :=
  .foldlM_of (fun _ _ _ hv => hv) h es hu

/-- The steps that meet a condition on the state before them. -/
def guarded (ok : σ → ε → Bool) (step : σ → ε → Option σ) (s : σ) (e : ε) : Option σ :=
  if ok s e then step s e else none

theorem Reach.foldlM_guarded {start : σ → Prop} {ok : σ → ε → Bool} {step : σ → ε → Option σ}
    {s u : σ} (h : Reach start (fun s e u => ok s e = true ∧ step s e = some u) s) (es : List ε)
    (hu : es.foldlM (guarded ok step) s = some u) :
    Reach start (fun s e u => ok s e = true ∧ step s e = some u) u :=
  .foldlM_of (fun _ _ _ hv => Option.ite_none_right_eq_some.mp hv) h es hu

end TuiTetris.LibTransition
