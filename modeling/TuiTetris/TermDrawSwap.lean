import TuiTetris.LibTransition
import TuiTetris.TermRendererScreen

set_option autoImplicit false

/-!
# Drawing across failures

`drawSwap` takes the remembered frame out before it writes and puts a frame back
only when the writer has taken everything. A failed write or flush has delivered
some of the commands, from the first one on.
-/
namespace TuiTetris.TermDrawSwap
open LibTerminal LibTransition TermFrameBuffer TermRenderer TermRendererScreen

/-- How `write_all` and `flush` go. -/
inductive WriteResult where
  | ok
  | failed (delivered : ℕ)
  deriving DecidableEq, Repr

structure TerminalRenderer where
  last : Option FrameBuffer
  buf : List Command
  deriving DecidableEq

def TerminalRenderer.new : TerminalRenderer := ⟨none, []⟩

def TerminalRenderer.invalidate (r : TerminalRenderer) : TerminalRenderer := { r with last := none }

/-- `frame` is what the caller has afterwards. -/
structure DrawResult where
  renderer : TerminalRenderer
  frame : FrameBuffer
  delivered : List Command
  ok : Bool
  deriving DecidableEq

/-- The end of a draw: `flush_buf()?`, then the frames are swapped. -/
def flushAndSwap (buf : List Command) (prev fb : FrameBuffer) : WriteResult → DrawResult
  | .ok => { renderer := ⟨some fb, buf⟩, frame := prev, delivered := buf, ok := true }
  | .failed n => { renderer := ⟨none, buf⟩, frame := fb, delivered := buf.take n, ok := false }

def TerminalRenderer.drawSwap (r : TerminalRenderer) (fb : FrameBuffer) (w : WriteResult) : DrawResult :=
  let invalidated := r.last.isNone
  let prev := r.last.getD (.new fb.width fb.height)
  let needsFull := invalidated || prev.width ≠ fb.width || prev.height ≠ fb.height
  if needsFull then
    flushAndSwap (encodeFullInto fb []) (prev.resize fb.width fb.height) fb w
  else
    let buf := encodeDiffInto prev fb []
    -- without a change nothing is written, so nothing fails
    flushAndSwap buf prev fb (if buf.isEmpty then .ok else w)

/-! ## The renderer and its terminal -/

/-- One call of `draw_swap` with what it delivered and what the terminal shows after it. -/
structure Drawn where
  frame : FrameBuffer
  delivered : List Command
  ok : Bool
  terminal : Terminal

structure Screen where
  renderer : TerminalRenderer
  terminal : Terminal
  history : List Drawn

inductive ScreenStep where
  | draw (fb : FrameBuffer) (w : WriteResult) (resized : Terminal)
  | invalidate

/-- A terminal of another size than the frame is resized first, and may then show anything. -/
def fitted (t : Terminal) (fb : FrameBuffer) (resized : Terminal) : Terminal :=
  if Fits t fb then t else resized

/-- One call, `none` where the terminal does not have the size of the frame. -/
def Screen.step (s : Screen) : ScreenStep → Option Screen
  | .draw fb w resized =>
    if Fits (fitted s.terminal fb resized) fb then
      let drawn := s.renderer.drawSwap fb w
      let terminal := (fitted s.terminal fb resized).exec drawn.delivered
      some { renderer := drawn.renderer, terminal
             history := s.history ++ [⟨fb, drawn.delivered, drawn.ok, terminal⟩] }
    else none
  | .invalidate => some { s with renderer := s.renderer.invalidate }

/-- The terminal has the characters of the frame, and its size. -/
structure ShowsChars (t : Terminal) (fb : FrameBuffer) : Prop where
  fits : Fits t fb
  chars : ∀ y < fb.height, ∀ x < fb.width, (t.grid x y).ch = (fb.cellAt x y).ch

theorem fits_exec {t : Terminal} {fb : FrameBuffer} (h : Fits t fb) (cs : List Command) :
    Fits (t.exec cs) fb := by
  obtain ⟨hw, hh⟩ := Terminal.exec_size t cs
  exact ⟨hw.trans h.1, hh.trans h.2⟩

theorem showsChars_full {t : Terminal} {fb : FrameBuffer} (h : Fits t fb) :
    ShowsChars (t.exec (encodeFullInto fb [])) fb := by
  refine ⟨fits_exec h _, fun y hy x hx => ?_⟩
  rw [exec_encodeFullInto h hx hy]
  rfl

theorem showsChars_diff {t : Terminal} {prev fb : FrameBuffer} (h : ShowsChars t prev)
    (hs : prev.width = fb.width ∧ prev.height = fb.height) :
    ShowsChars (t.exec (encodeDiffInto prev fb [])) fb := by
  have hf : Fits t fb := ⟨h.fits.1.trans hs.1, h.fits.2.trans hs.2⟩
  refine ⟨fits_exec hf _, fun y hy x hx => ?_⟩
  rw [exec_encodeDiffInto hs hf hx hy]
  split
  · next heq =>
    rw [h.chars y (hs.2 ▸ hy) x (hs.1 ▸ hx), heq]
  · rfl

/-- What a draw can do: everything is delivered and the frame remembered, or some of it and
nothing is remembered. Only a diff against the remembered frame is not a full repaint. -/
structure DrawSpec (r : TerminalRenderer) (fb : FrameBuffer) (d : DrawResult) : Prop where
  remembered : d.renderer.last = if d.ok then some fb else none
  returned : d.ok = true → d.frame.width = fb.width ∧ d.frame.height = fb.height
  delivered : d.ok = true → d.delivered = encodeFullInto fb [] ∨
    ∃ prev, r.last = some prev ∧ (prev.width = fb.width ∧ prev.height = fb.height) ∧
      d.delivered = encodeDiffInto prev fb []

theorem drawSwap_spec (r : TerminalRenderer) (fb : FrameBuffer) (w : WriteResult) :
    DrawSpec r fb (r.drawSwap fb w) := by
  have hswap : ∀ (buf : List Command) (prev : FrameBuffer) (w : WriteResult),
      prev.width = fb.width ∧ prev.height = fb.height →
      (buf = encodeFullInto fb [] ∨ ∃ prev, r.last = some prev ∧
        (prev.width = fb.width ∧ prev.height = fb.height) ∧ buf = encodeDiffInto prev fb []) →
      DrawSpec r fb (flushAndSwap buf prev fb w) := by
    intro buf prev w hsize hbuf
    cases w with
    | ok => exact ⟨rfl, fun _ => hsize, fun _ => hbuf⟩
    | failed n => exact ⟨rfl, fun h => (nomatch h), fun h => (nomatch h)⟩
  unfold TerminalRenderer.drawSwap
  simp only
  split
  · exact hswap _ _ _ (FrameBuffer.resize_size _ _ _) (.inl rfl)
  · next hdiff =>
    cases hl : r.last with
    | none =>
      rw [hl] at hdiff
      exact absurd (Bool.true_or _) hdiff
    | some prev =>
      have hsize : prev.width = fb.width ∧ prev.height = fb.height := by
        simpa [hl, not_or] using hdiff
      exact hswap _ _ _ hsize (.inr ⟨prev, hl, hsize, rfl⟩)

/-! ## Every run -/

/-- The remembered frame is on the screen, and a failure leaves none. -/
structure Invariant (s : Screen) : Prop where
  shown : ∀ fb, s.renderer.last = some fb → ShowsChars s.terminal fb
  forgotten : ∀ d, s.history.getLast? = some d → d.ok = false → s.renderer.last = none
  drawn : ∀ d ∈ s.history, d.ok = true → ShowsChars d.terminal d.frame
  repainted : ∀ i d e, s.history[i]? = some d → s.history[i + 1]? = some e → d.ok = false →
    e.ok = true → e.delivered = encodeFullInto e.frame []

theorem showsChars_draw {s : Screen} (h : Invariant s) {fb : FrameBuffer} {resized : Terminal}
    (hf : Fits (fitted s.terminal fb resized) fb) (w : WriteResult)
    (hok : (s.renderer.drawSwap fb w).ok = true) :
    ShowsChars ((fitted s.terminal fb resized).exec (s.renderer.drawSwap fb w).delivered) fb := by
  rcases (drawSwap_spec s.renderer fb w).delivered hok with hd | ⟨prev, hl, hs, hd⟩
  · rw [hd]
    exact showsChars_full hf
  · have hp := h.shown prev hl
    have hfits : Fits s.terminal fb := ⟨hp.fits.1.trans hs.1, hp.fits.2.trans hs.2⟩
    have hsame : fitted s.terminal fb resized = s.terminal := if_pos hfits
    rw [hd, hsame]
    exact showsChars_diff hp hs

/-- Where no frame is remembered, a draw that succeeds repaints everything. -/
theorem delivered_of_forgotten {r : TerminalRenderer} (hl : r.last = none) (fb : FrameBuffer)
    (w : WriteResult) (hok : (r.drawSwap fb w).ok = true) :
    (r.drawSwap fb w).delivered = encodeFullInto fb [] := by
  rcases (drawSwap_spec r fb w).delivered hok with hd | ⟨prev, hp, -⟩
  · exact hd
  · rw [hl] at hp
    cases hp

theorem invariant_draw {s u : Screen} (h : Invariant s) {fb : FrameBuffer} {w : WriteResult}
    {resized : Terminal} (hu : s.step (.draw fb w resized) = some u) : Invariant u := by
  obtain ⟨hf, hu⟩ := Option.ite_none_right_eq_some.mp hu
  cases hu
  have hspec := drawSwap_spec s.renderer fb w
  have hshows := showsChars_draw h hf w
  refine ⟨fun frame hl => ?_, fun d hd hfail => ?_, fun d hd hok => ?_, fun i d e hi hj hfail hok => ?_⟩
  · change (s.renderer.drawSwap fb w).renderer.last = some frame at hl
    rw [hspec.remembered] at hl
    split at hl
    · next hok =>
      cases hl
      exact hshows hok
    · cases hl
  · rw [List.getLast?_append, List.getLast?_singleton, Option.some_or] at hd
    cases hd
    change (s.renderer.drawSwap fb w).ok = false at hfail
    change (s.renderer.drawSwap fb w).renderer.last = none
    rw [hspec.remembered, hfail]
    rfl
  · rcases List.mem_append.mp hd with hd | hd
    · exact h.drawn d hd hok
    · cases List.mem_singleton.mp hd
      exact hshows hok
  · have hlt : i + 1 < s.history.length + 1 := by
      have hlen := (List.getElem?_eq_some_iff.mp hj).1
      simpa using hlen
    rw [List.getElem?_append_left (by omega)] at hi
    rcases Nat.eq_or_lt_of_le (Nat.le_of_lt_succ hlt) with he | hlt
    · -- the new draw comes right after a failed one
      rw [List.getElem?_append_right (by omega), ← he, Nat.sub_self] at hj
      cases hj
      have hlast : s.history.getLast? = some d := by
        rw [List.getLast?_eq_getElem?, ← he]
        exact hi
      exact delivered_of_forgotten (h.forgotten d hlast hfail) fb w hok
    · rw [List.getElem?_append_left hlt] at hj
      exact h.repainted i d e hi hj hfail hok

theorem invariant_step {s u : Screen} {step : ScreenStep} (h : Invariant s)
    (hu : s.step step = some u) : Invariant u := by
  cases step with
  | draw fb w resized => exact invariant_draw h hu
  | invalidate =>
    cases hu
    exact ⟨fun _ hl => (nomatch hl), fun _ _ _ => rfl, h.drawn, h.repainted⟩

/-- Runs of a new renderer on any terminal. -/
def Reachable : Screen → Prop :=
  Reach (fun s => ∃ t, s = ⟨.new, t, []⟩) (fun s step u => s.step step = some u)

theorem invariant_reachable {s : Screen} (h : Reachable s) : Invariant s := by
  refine Reach.invariant h ?_ fun s step u hs hu => invariant_step hs hu
  rintro _ ⟨t, rfl⟩
  exact ⟨fun _ hl => (nomatch hl), fun _ hd => (nomatch hd), fun _ hd => (nomatch hd),
    fun _ _ _ hi => (nomatch hi)⟩

/-- After every draw that succeeds the terminal has the characters of its frame, and the first
such draw after a failed one repaints everything. -/
theorem draws_across_failures {s : Screen} (h : Reachable s) :
    (∀ d ∈ s.history, d.ok = true → ShowsChars d.terminal d.frame) ∧
      ∀ (i j : ℕ) (d e : Drawn), i < j → s.history[i]? = some d → d.ok = false →
        s.history[j]? = some e → e.ok = true →
        (∀ (k : ℕ) (f : Drawn), i < k → k < j → s.history[k]? = some f → f.ok = false) →
        e.delivered = encodeFullInto e.frame [] := by
  have hinv := invariant_reachable h
  refine ⟨hinv.drawn, fun i j d e hij hi hfail hj hok hbetween => ?_⟩
  obtain ⟨k, rfl⟩ := Nat.exists_eq_add_one_of_ne_zero (Nat.ne_zero_of_lt hij)
  have hk : k < s.history.length := Nat.lt_of_succ_lt (List.getElem?_eq_some_iff.mp hj).1
  have hf := List.getElem?_eq_getElem hk
  refine hinv.repainted k s.history[k] e hf hj ?_ hok
  rcases Nat.eq_or_lt_of_le (Nat.le_of_lt_succ hij) with rfl | hlt
  · rw [hf] at hi
    cases hi
    exact hfail
  · exact hbetween k _ hlt (Nat.lt_succ_self k) hf

/-- A draw fails after two commands, the next one succeeds, and one more draws the difference. -/
def failedDraw : List ScreenStep :=
  [.draw lettered (.failed 2) (showing blankFrame), .draw lettered .ok (showing blankFrame),
    .draw blankFrame .ok (showing blankFrame)]

def failedStart : Screen := ⟨.new, showing blankFrame, []⟩

def failedScreen : Screen := (failedDraw.foldlM Screen.step failedStart).getD failedStart

theorem failedScreen_reached : failedDraw.foldlM Screen.step failedStart = some failedScreen :=
  (Option.getD_of_ne_none (by decide +kernel) _).symm

theorem draws_across_failures_failed :
    failedScreen.history.map Drawn.ok = [false, true, true] ∧
      ∀ d ∈ failedScreen.history, d.ok = true → ShowsChars d.terminal d.frame :=
  ⟨by decide +kernel,
    (draws_across_failures (Reach.foldlM (.init ⟨_, rfl⟩) failedDraw failedScreen_reached)).1⟩

end TuiTetris.TermDrawSwap
