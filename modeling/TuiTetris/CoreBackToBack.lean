import TuiTetris.CoreGameStateInvariant

set_option autoImplicit false

/-!
# Back-to-back clears

A log of the locks of an episode says which clear continues a chain of
qualifying clears. The flag of the source remembers the last lock only, also
when that lock cleared no line.
-/
namespace TuiTetris.CoreBackToBack
open CoreTypes CorePieces CoreBoard CoreScoring CoreRng CoreGameState CoreGameStateEffects
open CoreGameStateInvariant LibTransition

/-- The base points of a clear, before any multiplier. -/
def basePoints (lines : ℕ) (level : UInt32) : TSpinKind → UInt32
  | .None => calculateLineScore lines level
  | tspin => calculateTspinScore tspin lines level

/-- One lock: what it cleared, and how it was scored. -/
structure LockRecord where
  lines : ℕ
  tspin : TSpinKind
  base : UInt32
  multiplied : Bool
  score : UInt32
  deriving DecidableEq, Repr

namespace LockRecord

def qualifies (r : LockRecord) : Bool := qualifiesForB2b r.tspin r.lines

end LockRecord

/-- The state between placing the piece and clearing rows. -/
def lockedState (s : GameState) (p : Tetromino) : GameState :=
  { s with
    landingFlashMs := CoreTypes.landingFlashMs,
    board := (s.board.lockPiece p.shape p.x p.y p.kind).1,
    active := none }

def lockLines (s : GameState) (p : Tetromino) : ℕ := (lockedState s p).board.clearFullRows.2.length

/-- The state between clearing rows and scoring the clear. -/
def clearedState (s : GameState) (p : Tetromino) : GameState :=
  { lockedState s p with
    board := (lockedState s p).board.clearFullRows.1,
    boardId := if (s.board.lockPiece p.shape p.x p.y p.kind).2 || lockLines s p > 0 then s.boardId + 1
      else s.boardId }

def lockTspinKind (s : GameState) (p : Tetromino) : TSpinKind :=
  (lockedState s p).lockTspin p (s.board.lockPiece p.shape p.x p.y p.kind).2

/-- The record of locking `p` in `s`; the score is the one its event reports. -/
def lockRecord (s : GameState) (p : Tetromino) : LockRecord where
  lines := lockLines s p
  tspin := lockTspinKind s p
  base := basePoints (lockLines s p) s.level (lockTspinKind s p)
  multiplied := (calculateScore (lockLines s p) s.level (lockTspinKind s p) (satSucc s.combo)
    s.backToBack).b2bApplied
  score := ((s.settleLock p).lastEvent.map CoreLastEvent.lineClearScore).getD 0

def lockRecords (s : GameState) (op : Op) : List LockRecord :=
  ((op.lockingState s).bind fun v => v.active.map (lockRecord v)).toList

/-- The locks of the episode, the newest first. -/
def recordLocks (g : GameState × List LockRecord) (op : Op) : GameState × List LockRecord :=
  (op.apply g.1, if op.restarts then [] else lockRecords g.1 op ++ g.2)

def openingLocks (seed : UInt32) : GameState × List LockRecord := ((GameState.new seed).start, [])

/-- The last line-clearing lock qualified, and no T-spin without lines came after it. -/
def chained : List LockRecord → Bool
  | [] => false
  | r :: log =>
    if 0 < r.lines then r.qualifies
    else if r.tspin = .None then chained log
    else false

/-- A qualifying clear that continues a chain earns the multiplier. -/
def earned (log : List LockRecord) (r : LockRecord) : Bool := r.qualifies && chained log

/-- The multiplier went exactly to the clears that earned it. -/
def chainKept : List LockRecord → Bool
  | [] => true
  | r :: log => r.multiplied == earned log r && chainKept log

/-- Every clear that earns the multiplier directly follows another clear. -/
def Direct : List LockRecord → Prop
  | [] => True
  | r :: log => (earned log r = true → ∃ q ∈ log.head?, 0 < q.lines) ∧ Direct log

/-! ## One lock -/

theorem qualifies_lines (tspin : TSpinKind) : qualifiesForB2b tspin 0 = false := by
  cases tspin <;> rfl

/-- A lock sets the flag exactly when it is a qualifying clear. -/
theorem recordLock_backToBack (s : GameState) (n : ℕ) (tspin : TSpinKind) :
    (s.recordLock n tspin).backToBack = qualifiesForB2b tspin n := by
  unfold GameState.recordLock GameState.applyLineClear
  split
  · next h =>
    rw [h, qualifies_lines]
  · rfl

theorem settleLock_recordLock (s : GameState) (p : Tetromino) :
    s.settleLock p = (clearedState s p).recordLock (lockLines s p) (lockTspinKind s p) := rfl

theorem spawnPiece_backToBack (s : GameState) : s.spawnPiece.1.backToBack = s.backToBack := by
  cases h : (incoming s).isValid s.board with
  | true =>
    rw [spawnPiece_open s h]
    rfl
  | false => rw [spawnPiece_blocked s h]

theorem lockPiece_backToBack (s : GameState) (p : Tetromino) (hp : s.active = some p)
    (hg : s.gameOver = false) : s.lockPiece.backToBack = (lockRecord s p).qualifies := by
  rw [lockPiece_eq s p hp hg, spawnPiece_backToBack, settleLock_recordLock, recordLock_backToBack]
  rfl

theorem lockRecord_multiplied (s : GameState) (p : Tetromino) :
    (lockRecord s p).multiplied = ((lockRecord s p).qualifies && s.backToBack) := rfl

theorem calculateScore_lineClearScore (n : ℕ) (level : UInt32) (tspin : TSpinKind) (combo : Int32)
    (b2b : Bool) : (calculateScore n level tspin combo b2b).lineClearScore =
      if (calculateScore n level tspin combo b2b).b2bApplied then
        applyB2bMultiplier (basePoints n level tspin) else basePoints n level tspin := by
  cases tspin <;> rfl

theorem recordLock_score (s : GameState) {n : ℕ} (tspin : TSpinKind) (h : 0 < n) :
    ((s.recordLock n tspin).lastEvent.map CoreLastEvent.lineClearScore).getD 0 =
      (calculateScore n s.level tspin (satSucc s.combo) s.backToBack).lineClearScore := by
  unfold GameState.recordLock GameState.applyLineClear
  rw [if_neg (Nat.pos_iff_ne_zero.mp h)]
  rfl

theorem lockRecord_score (s : GameState) (p : Tetromino) (h : 0 < (lockRecord s p).lines) :
    (lockRecord s p).score =
      if (lockRecord s p).multiplied then applyB2bMultiplier (lockRecord s p).base
      else (lockRecord s p).base := by
  have hscore := recordLock_score (clearedState s p) (lockTspinKind s p) h
  exact hscore.trans (calculateScore_lineClearScore _ _ _ _ _)

/-! ## Runs -/

def lastQualifies : List LockRecord → Bool
  | [] => false
  | r :: _ => r.qualifies

/-- The multiplier goes to a qualifying clear directly after another. -/
def Scored : List LockRecord → Prop
  | [] => True
  | r :: log => (r.multiplied = (r.qualifies && lastQualifies log) ∧
      (0 < r.lines → r.score = if r.multiplied then applyB2bMultiplier r.base else r.base)) ∧ Scored log

structure Flagged (g : GameState × List LockRecord) : Prop where
  flag : g.1.backToBack = lastQualifies g.2
  scored : Scored g.2

theorem applyHold_backToBack {s : GameState} (p : Tetromino) (hp : s.active = some p)
    (hc : s.canHold = true) : s.applyHold.1.backToBack = s.backToBack := by
  cases hh : s.hold with
  | none =>
    rw [applyHold_empty s p hp hc hh]
    exact spawnPiece_backToBack { s with hold := some p.kind }
  | some k =>
    rw [applyHold_swap s p k hp hc hh]
    split <;> rfl

theorem effect_unlocked {s u : GameState} {op : Op} (h : Effect s op [] u) :
    u.backToBack = s.backToBack := by
  cases h with
  | glide h => exact h.backToBack
  | taken => rfl
  | held p ho ha hp hc => exact applyHold_backToBack p hp hc

theorem flagged_locked {g : GameState × List LockRecord} (h : Flagged g) {v : GameState}
    (hv : v.backToBack = g.1.backToBack) (p : Tetromino) (hp : v.active = some p)
    (hg : v.gameOver = false) (score : UInt32) :
    Flagged ({ v.lockPiece with score := score }, lockRecord v p :: g.2) := by
  refine ⟨lockPiece_backToBack v p hp hg, ⟨?_, lockRecord_score v p⟩, h.scored⟩
  rw [lockRecord_multiplied, hv, h.flag]

theorem flagged_first {s : GameState} (h : s.backToBack = false) : Flagged (s.spawnPiece.1, []) :=
  ⟨(spawnPiece_backToBack s).trans h, trivial⟩

theorem flagged_fresh (seed episodeId : UInt32) :
    Flagged ((freshState seed episodeId).spawnPiece.1, []) := flagged_first rfl

theorem flagged_recordLocks {g : GameState × List LockRecord} (h : Flagged g) (op : Op) :
    Flagged (recordLocks g op) := by
  have he := effect g.1 op
  unfold recordLocks lockRecords
  cases hr : op.restarts with
  | true =>
    obtain ⟨seed, hu⟩ := restarts_fresh g.1 hr
    rw [hu]
    exact flagged_fresh seed _
  | false =>
    rw [if_neg (by decide)]
    cases hl : op.lockingState g.1 with
    | none =>
      rw [marks_unlocked hr hl] at he
      exact ⟨(effect_unlocked he).trans h.flag, h.scored⟩
    | some v =>
      obtain ⟨p, score, hglide, hp, hg, hu⟩ := lockingState_spec hl
      rw [hu, Option.bind_some, hp]
      exact flagged_locked h hglide.backToBack p hp (hglide.gameOver.trans hg) score

theorem flagged_run {g : GameState × List LockRecord} (h : Flagged g) (ops : List Op) :
    Flagged (run recordLocks g ops) :=
  run_invariant (I := Flagged) (fun _ op hg => flagged_recordLocks hg op) h ops

theorem qualifies_clears {r : LockRecord} (h : r.qualifies = true) : 0 < r.lines := by
  apply Nat.pos_of_ne_zero
  intro h0
  unfold LockRecord.qualifies at h
  rw [h0, qualifies_lines] at h
  cases h

/-- The flag forgets a chain exactly when the last lock cleared nothing. -/
theorem chained_direct {log : List LockRecord} :
    (chained log = lastQualifies log) ↔ (chained log = true → ∃ q ∈ log.head?, 0 < q.lines) := by
  cases log with
  | nil => exact ⟨fun _ h => (nomatch h), fun _ => rfl⟩
  | cons r log =>
    simp only [List.head?_cons, Option.mem_some_iff, exists_eq_left']
    by_cases hpos : 0 < r.lines
    · simp only [chained, hpos, if_true, lastQualifies, implies_true]
    · have hq : r.qualifies = false := by
        apply Bool.eq_false_iff.mpr
        exact fun h => hpos (qualifies_clears h)
      simp only [lastQualifies, hq, hpos, imp_false, Bool.not_eq_true]

theorem chainKept_iff {log : List LockRecord} (h : Scored log) : chainKept log = true ↔ Direct log := by
  induction log with
  | nil => exact ⟨fun _ => trivial, fun _ => rfl⟩
  | cons r log ih =>
    obtain ⟨⟨hm, -⟩, hlog⟩ := h
    unfold chainKept Direct
    rw [Bool.and_eq_true, ih hlog, beq_iff_eq, hm, earned]
    apply and_congr_left'
    cases r.qualifies with
    | false => simp
    | true => simpa using eq_comm.trans chained_direct

theorem scored_mem {log : List LockRecord} (h : Scored log) {r : LockRecord} (hr : r ∈ log)
    (hl : 0 < r.lines) :
    r.score = if r.multiplied then applyB2bMultiplier r.base else r.base := by
  induction log with
  | nil => cases hr
  | cons q log ih =>
    obtain ⟨⟨-, hq⟩, hlog⟩ := h
    rcases List.mem_cons.mp hr with rfl | hr
    · exact hq hl
    · exact ih hlog hr

/-- The multiplier reaches the reported score, and it goes to the earned clears of a run exactly
when each of them directly follows another clear. -/
theorem back_to_back_runs (seed : UInt32) (ops : List Op) :
    let log := (run recordLocks (openingLocks seed) ops).2
    (∀ r ∈ log, 0 < r.lines →
      r.score = if r.multiplied then applyB2bMultiplier r.base else r.base) ∧
    (chainKept log = true ↔ Direct log) := by
  have hopen : Flagged (openingLocks seed) := by
    unfold openingLocks
    rw [start_new]
    exact flagged_fresh seed 0
  have h := (flagged_run hopen ops).scored
  exact ⟨fun r hr hl => scored_mem h hr hl, chainKept_iff h⟩

def dropAt (turns : List GameAction) (left right : ℕ) : List Op :=
  turns.map .action ++ List.replicate left (.action .MoveLeft) ++
    List.replicate right (.action .MoveRight) ++ [.action .HardDrop]

/-- Let a turned piece fall to the stack, turn it once more and wait for the lock. -/
def spinAt (turn : GameAction) (left right : ℕ) : List Op :=
  .action turn :: List.replicate left (.action .MoveLeft) ++
    List.replicate right (.action .MoveRight) ++
    [.tick 16000 false, .action .SoftDrop, .action turn, .tick 450 false]

/-- Two T-spin clears of one line, with three locks between them that clear nothing. -/
def twoSpins : List Op :=
  dropAt [] 0 0 ++ dropAt [] 0 0 ++ dropAt [.RotateCw] 4 0 ++ dropAt [] 0 4 ++
    spinAt .RotateCcw 2 0 ++ dropAt [] 2 0 ++ dropAt [] 0 0 ++ dropAt [.RotateCw] 0 4 ++
    spinAt .RotateCw 0 2

theorem twoSpins_broken :
    ¬∀ (seed : UInt32) (ops : List Op),
      chainKept (run recordLocks (openingLocks seed) ops).2 = true :=
  fun h => absurd (h 27 twoSpins) (by decide +kernel)

end TuiTetris.CoreBackToBack
