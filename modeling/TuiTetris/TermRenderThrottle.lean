import Mathlib.Data.Nat.Basic

set_option autoImplicit false

/-!
# Frames that need not be drawn

While nothing moves, a frame with the fingerprint of the last one is drawn only once
in an interval.
-/
namespace TuiTetris.TermRenderThrottle

structure RenderThrottle where
  minStaticIntervalMs : UInt64
  lastRenderMs : UInt64
  lastFingerprint : UInt64
  hasRendered : Bool
  deriving DecidableEq, Repr

namespace RenderThrottle

def new (minStaticIntervalMs : UInt64) : RenderThrottle := ⟨minStaticIntervalMs, 0, 0, false⟩

/-- `now_ms.saturating_sub(self.last_render_ms)`. -/
def sinceLast (t : RenderThrottle) (nowMs : UInt64) : UInt64 :=
  if t.lastRenderMs ≤ nowMs then nowMs - t.lastRenderMs else 0

def shouldRender (t : RenderThrottle) (nowMs fingerprint : UInt64) (isStatic : Bool) :
    RenderThrottle × Bool :=
  let rendered := { t with
    hasRendered := true, lastRenderMs := nowMs, lastFingerprint := fingerprint }
  if !t.hasRendered then (rendered, true)
  else if !isStatic then (rendered, true)
  else if fingerprint ≠ t.lastFingerprint then (rendered, true)
  else if t.sinceLast nowMs ≥ t.minStaticIntervalMs then ({ t with lastRenderMs := nowMs }, true)
  else (t, false)

/-- Either the frame is drawn and remembered, or it is one that may be left out. -/
theorem shouldRender_cases (t : RenderThrottle) (nowMs fingerprint : UInt64) (isStatic : Bool) :
    t.shouldRender nowMs fingerprint isStatic =
        (⟨t.minStaticIntervalMs, nowMs, fingerprint, true⟩, true) ∨
      (t.shouldRender nowMs fingerprint isStatic = (t, false) ∧ t.hasRendered = true ∧
        isStatic = true ∧ fingerprint = t.lastFingerprint ∧
        t.sinceLast nowMs < t.minStaticIntervalMs) := by
  unfold shouldRender
  by_cases hr : t.hasRendered = true
  · by_cases hs : isStatic = true
    · by_cases hf : fingerprint = t.lastFingerprint
      · by_cases hm : t.sinceLast nowMs ≥ t.minStaticIntervalMs
        · left
          simp [hr, hs, hf, hm]
        · right
          simp only [hr, hs, hf, hm, Bool.not_true, Bool.false_eq_true, if_false, ne_eq,
            not_true_eq_false, true_and]
          exact UInt64.not_le.mp hm
      · simp [hr, hs, hf]
    · simp [hr, hs]
  · simp [hr]

end RenderThrottle

end TuiTetris.TermRenderThrottle
