import TuiTetris.LibTerminal
import TuiTetris.TermFrameBuffer

set_option autoImplicit false

/-!
# Encoding framebuffers as terminal commands

`Encoder` is what the drawing closures share: the commands queued so far and the
style of the last cell printed. `Print("\r\n")` is the command `newline`.
-/
namespace TuiTetris.TermRenderer
open LibTerminal TermFrameBuffer

variable {σ : Type}

structure Encoder where
  out : List Command
  currentStyle : Option CellStyle
  deriving DecidableEq

def Encoder.queue (e : Encoder) (c : Command) : Encoder := { e with out := e.out ++ [c] }

def rgbToColor (rgb : Rgb) : Colour := .rgb rgb.r rgb.g rgb.b

def applyStyleInto (out : List Command) (style : CellStyle) : List Command :=
  out ++ [.setForeground (rgbToColor style.fg), .setBackground (rgbToColor style.bg),
    .attributeReset] ++ (if style.bold then [.attributeBold] else []) ++
    (if style.dim then [.attributeDim] else [])

/-- The loop body of both encodings. -/
def encodeCell (e : Encoder) (cell : Cell) : Encoder :=
  let e := if e.currentStyle ≠ some cell.style then
      { out := applyStyleInto e.out cell.style, currentStyle := some cell.style }
    else e
  e.queue (.print cell.ch)

def encodeCells (fb : FrameBuffer) (x y len : ℕ) (e : Encoder) : Encoder :=
  (List.range len).foldl (fun e dx => encodeCell e (fb.cellAt (x + dx) y)) e

def encodeFullRow (fb : FrameBuffer) (e : Encoder) (y : ℕ) : Encoder :=
  let e := encodeCells fb 0 y fb.width e
  if y + 1 < fb.height then e.queue .newline else e

def encodeFullInto (fb : FrameBuffer) (out : List Command) : List Command :=
  let e := (List.range fb.height).foldl (encodeFullRow fb)
    { out := out ++ [.clearAll, .moveTo 0 0], currentStyle := none }
  e.out ++ [.resetColor, .attributeReset]

/-- The inner `while`: the run goes on from column `x` for at most `n` columns. -/
def runEnd (changed : ℕ → Bool) (x : ℕ) : ℕ → ℕ
  | 0 => x
  | n + 1 => if changed x then runEnd changed (x + 1) n else x

/-- The outer `while` over the columns of a row, which makes at most `fuel` turns. -/
def rowRuns (changed : ℕ → Bool) (width : ℕ) (f : σ → ℕ → ℕ → σ) : ℕ → ℕ → σ → σ
  | 0, _, s => s
  | fuel + 1, x, s =>
    if x < width then
      if changed x then
        let stop := runEnd changed (x + 1) (width - (x + 1))
        rowRuns changed width f fuel stop (f s x (stop - x))
      else rowRuns changed width f fuel (x + 1) s
    else s

def cellChanged (prev next : FrameBuffer) (y x : ℕ) : Bool :=
  prev.cellAt x y ≠ next.cellAt x y

def forEachChangedRun (prev next : FrameBuffer) (f : σ → ℕ → ℕ → ℕ → σ) (s : σ) : σ :=
  if prev.width ≠ next.width ∨ prev.height ≠ next.height then
    (List.range next.height).foldl (fun s y => f s 0 y next.width) s
  else
    (List.range next.height).foldl (fun s y =>
      rowRuns (cellChanged prev next y) next.width (fun s x len => f s x y len) next.width 0 s) s

def encodeRun (next : FrameBuffer) (e : Encoder) (x y len : ℕ) : Encoder :=
  encodeCells next x y len (e.queue (.moveTo x y))

def encodeDiffInto (prev next : FrameBuffer) (out : List Command) : List Command :=
  let e := forEachChangedRun prev next (encodeRun next) { out, currentStyle := none }
  if e.currentStyle.isSome then e.out ++ [.resetColor, .attributeReset] else e.out

/-- The columns passed are changed; the one it stops at is not, or the bound is reached. -/
theorem runEnd_spec (changed : ℕ → Bool) (x n : ℕ) :
    x ≤ runEnd changed x n ∧ runEnd changed x n ≤ x + n ∧
      (∀ i, x ≤ i → i < runEnd changed x n → changed i = true) ∧
      (runEnd changed x n < x + n → changed (runEnd changed x n) = false) := by
  induction n generalizing x with
  | zero => exact ⟨Nat.le_refl x, Nat.le_refl x, fun i h h' => absurd (Nat.lt_of_le_of_lt h h')
      (Nat.lt_irrefl x), fun h => absurd h (Nat.lt_irrefl x)⟩
  | succ n ih =>
    unfold runEnd
    split
    · next hx =>
      obtain ⟨hle, hge, hall, hstop⟩ := ih (x + 1)
      refine ⟨by omega, by omega, fun i hi hs => ?_, fun hs => hstop (by omega)⟩
      rcases Nat.eq_or_lt_of_le hi with rfl | hlt
      · exact hx
      · exact hall i hlt hs
    · next hx =>
      exact ⟨Nat.le_refl x, Nat.le_add_right x _, fun i h h' =>
        absurd (Nat.lt_of_le_of_lt h h') (Nat.lt_irrefl x), fun _ => by simpa using hx⟩

/-- What unchanged columns keep and every maximal run of changed columns keeps, the row
keeps. -/
theorem rowRuns_induction {changed : ℕ → Bool} {width : ℕ} {f : σ → ℕ → ℕ → σ}
    {P : ℕ → σ → Prop}
    (skip : ∀ x s, x < width → changed x = false → P x s → P (x + 1) s)
    (draw : ∀ x len s, 0 < len → x + len ≤ width →
      (∀ i, x ≤ i → i < x + len → changed i = true) →
      (x + len < width → changed (x + len) = false) → P x s → P (x + len) (f s x len)) :
    ∀ (fuel x : ℕ) (s : σ), x ≤ width → width - x ≤ fuel → P x s →
      P width (rowRuns changed width f fuel x s) := by
  intro fuel
  induction fuel with
  | zero =>
    intro x s hx hfuel h
    have hw : x = width := by omega
    rw [← hw]
    exact h
  | succ fuel ih =>
    intro x s hx hfuel h
    simp only [rowRuns]
    split
    · next hlt =>
      split
      · next hc =>
        obtain ⟨hge, hle, hall, hend⟩ := runEnd_spec changed (x + 1) (width - (x + 1))
        generalize runEnd changed (x + 1) (width - (x + 1)) = stop at hge hle hall hend ⊢
        have hstop : x + (stop - x) = stop := by omega
        have hd := draw x (stop - x) s (by omega) (by omega) (fun i hi hs => by
          rcases Nat.eq_or_lt_of_le hi with rfl | hlt
          · exact hc
          · exact hall i hlt (by omega)) (fun hlt => by
          rw [hstop] at hlt ⊢
          exact hend (by omega)) h
        rw [hstop] at hd
        exact ih stop _ (by omega) (by omega) hd
      · next hc => exact ih (x + 1) s hlt (by omega) (skip x s hlt (by simpa using hc) h)
    · have hw : x = width := by omega
      rw [← hw]
      exact h

/-- A change of state that the closure respects, the row respects. -/
theorem rowRuns_hom {τ : Type} {changed : ℕ → Bool} {width : ℕ} {f : σ → ℕ → ℕ → σ}
    {g : τ → ℕ → ℕ → τ} (φ : σ → τ) (h : ∀ s x len, φ (f s x len) = g (φ s) x len) :
    ∀ (fuel x : ℕ) (s : σ),
      φ (rowRuns changed width f fuel x s) = rowRuns changed width g fuel x (φ s) := by
  intro fuel
  induction fuel with
  | zero => exact fun x s => rfl
  | succ fuel ih =>
    intro x s
    simp only [rowRuns]
    split
    · split
      · rw [ih, h]
      · exact ih (x + 1) s
    · rfl

theorem foldl_range_induction {f : σ → ℕ → σ} {P : ℕ → σ → Prop} {n : ℕ} {s : σ} (h : P 0 s)
    (hs : ∀ i < n, ∀ s, P i s → P (i + 1) (f s i)) : P n ((List.range n).foldl f s) := by
  induction n with
  | zero => exact h
  | succ n ih =>
    rw [List.range_succ, List.foldl_append]
    exact hs n (Nat.lt_succ_self n) _ (ih fun i hi => hs i (Nat.lt_succ_of_lt hi))

end TuiTetris.TermRenderer
