import TuiTetris.CoreTimers

set_option autoImplicit false

/-!
# How often the lock delay starts again

A watch beside the game counts, for the active piece, the moves that set the lock
timer back to zero. The counter of the source starts again whenever the piece
can fall, so the limit holds between two such moments and not for the piece.
-/
namespace TuiTetris.CoreLockResets
open CoreTypes CoreGameState CoreGameStateLoops CoreGameStateEffects CoreGameStateInvariant CoreTimers
open LibTransition

/-- What happens to the lock delay of the active piece. -/
inductive DelayEvent where
  | falls
  | reset
  | spent
  | waits (elapsedMs : UInt32)
  deriving DecidableEq, Repr

/-- The branch of `handle_lock_reset` taken by a move from `s` to `u`. -/
def moveEvent (s u : GameState) : DelayEvent :=
  if !u.isGrounded then .falls
  else if s.lockResetCount < lockResetLimit then .reset
  else .spent

def moveEvents (s : GameState) (r : GameState × Bool) : List DelayEvent :=
  if r.2 then [moveEvent s r.1] else []

def gravityEvents (dropInterval : UInt32) : ℕ → GameState → List DelayEvent
  | 0, _ => []
  | fuel + 1, s =>
    if s.dropTimerMs ≥ dropInterval then
      let m := { s with dropTimerMs := s.dropTimerMs - dropInterval }
      moveEvents m (m.tryMove 0 1) ++ gravityEvents dropInterval fuel (m.tryMove 0 1).1
    else []

def tickEvents (s : GameState) (elapsedMs : UInt32) (softDrop : Bool) : List DelayEvent :=
  if s.paused || s.gameOver || !s.started then []
  else
    let s := (s.tickCounters elapsedMs).tickLineClear elapsedMs
    if s.lineClearTimerMs > 0 || s.active.isNone then []
    else
      let s := s.tickSoftDrop elapsedMs softDrop
      let timer := satAdd s.dropTimerMs elapsedMs
      gravityEvents s.dropIntervalMs timer.toNat { s with dropTimerMs := timer } ++
        [if (s.tickGravity elapsedMs).1.isGrounded then .waits elapsedMs else .falls]

def actionEvents (s : GameState) : GameAction → List DelayEvent
  | .MoveLeft => moveEvents s (s.tryMove (-1) 0)
  | .MoveRight => moveEvents s (s.tryMove 1 0)
  | .SoftDrop => moveEvents s (s.tryMove 0 1)
  | .RotateCw => moveEvents s (s.tryRotate true)
  | .RotateCcw => moveEvents s (s.tryRotate false)
  | _ => []

def delayEvents (s : GameState) : Op → List DelayEvent
  | .action a => if accepts s a then actionEvents s a else []
  | .tick elapsedMs softDrop => tickEvents s elapsedMs softDrop
  | _ => []

/-- The resets of the active piece, and what it did since it could last fall. -/
structure DelayWatch where
  resets : ℕ
  groundedResets : ℕ
  groundedMs : ℕ
  deriving DecidableEq, Repr

def DelayWatch.zero : DelayWatch := ⟨0, 0, 0⟩

def DelayWatch.note (w : DelayWatch) : DelayEvent → DelayWatch
  | .falls => ⟨w.resets, 0, 0⟩
  | .reset => ⟨w.resets + 1, w.groundedResets + 1, w.groundedMs⟩
  | .spent => w
  | .waits elapsedMs => { w with groundedMs := w.groundedMs + elapsedMs.toNat }

/-- The operation from `s` to `u` has left the active piece in play. -/
def keepsPiece (s : GameState) (op : Op) (u : GameState) : Bool :=
  !op.restarts && u.active.isSome && u.activeId == s.activeId

def recordDelay (g : GameState × DelayWatch) (op : Op) : GameState × DelayWatch :=
  (op.apply g.1,
    if keepsPiece g.1 op (op.apply g.1) then (delayEvents g.1 op).foldl .note g.2 else .zero)

def openingDelay (seed : UInt32) : GameState × DelayWatch := ((GameState.new seed).start, .zero)

/-! ## One operation -/

/-- The watch agrees with the two fields of the source. -/
structure Tracks (s : GameState) (w : DelayWatch) : Prop where
  resets : w.groundedResets = s.lockResetCount.toNat
  time : w.groundedMs ≤ 449 * w.groundedResets + s.lockTimerMs.toNat

theorem tracks_cleared {s : GameState} (n : ℕ) (h : s.lockResetCount = 0) : Tracks s ⟨n, 0, 0⟩ := by
  refine ⟨?_, Nat.zero_le _⟩
  rw [h]
  rfl

theorem lockDelay_ms {s : GameState} (h : s.lockTimerMs < lockDelayMs) : s.lockTimerMs.toNat ≤ 449 := by
  have hd : lockDelayMs.toNat = 450 := rfl
  rw [UInt32.lt_iff_toNat_lt, hd] at h
  omega

theorem handleLockReset_grounded (s : GameState) : s.handleLockReset.isGrounded = s.isGrounded := by
  unfold GameState.handleLockReset
  split
  · rfl
  · split <;> rfl

theorem tracks_handleLockReset {m : GameState} {w : DelayWatch} (ht : m.lockTimerMs < lockDelayMs)
    (h : Tracks m w) : Tracks m.handleLockReset (w.note (moveEvent m m.handleLockReset)) := by
  unfold moveEvent
  rw [handleLockReset_grounded]
  unfold GameState.handleLockReset
  cases hg : m.isGrounded with
  | false => exact tracks_cleared w.resets rfl
  | true =>
    simp only [Bool.not_true, Bool.false_eq_true, if_false]
    split
    · next hlt =>
      have hms := lockDelay_ms ht
      have htime := h.time
      refine ⟨?_, ?_⟩
      · change w.groundedResets + 1 = (m.lockResetCount + 1).toNat
        rw [(resets_succ hlt).1, h.resets]
      · change w.groundedMs ≤ 449 * (w.groundedResets + 1) + 0
        omega
    · exact h

theorem tracks_tryMove {s : GameState} {w : DelayWatch} (hd : LockDelay s) (h : Tracks s w)
    (dx dy : Int8) :
    Tracks (s.tryMove dx dy).1 ((moveEvents s (s.tryMove dx dy)).foldl .note w) := by
  unfold GameState.tryMove
  split
  · exact h
  · next p hp =>
    split
    · have hm := tracks_handleLockReset (w := w)
        (m := { s with active := some { p with x := p.x + dx, y := p.y + dy } }) hd.timer
        ⟨h.resets, h.time⟩
      simp only
      split <;> exact ⟨hm.resets, hm.time⟩
    · exact h

theorem tracks_tryRotate {s : GameState} {w : DelayWatch} (hd : LockDelay s) (h : Tracks s w)
    (clockwise : Bool) :
    Tracks (s.tryRotate clockwise).1 ((moveEvents s (s.tryRotate clockwise)).foldl .note w) := by
  unfold GameState.tryRotate
  split
  · exact h
  · next p hp =>
    split
    · exact h
    · split
      · next shape rot dx dy hr =>
        have hm := tracks_handleLockReset (w := w)
          (m := { s with active := some { p with rotation := rot, x := p.x + dx, y := p.y + dy } })
          hd.timer ⟨h.resets, h.time⟩
        exact ⟨hm.resets, hm.time⟩
      · exact h

theorem tracks_gravityLoop (interval : UInt32) (fuel : ℕ) {s : GameState} {w : DelayWatch}
    (hd : LockDelay s) (h : Tracks s w) (changed : Bool) :
    Tracks (GameState.gravityLoop interval fuel s changed).1
      ((gravityEvents interval fuel s).foldl .note w) := by
  induction fuel generalizing s w changed with
  | zero => exact h
  | succ fuel ih =>
    unfold GameState.gravityLoop gravityEvents
    split
    · have hd' : LockDelay { s with dropTimerMs := s.dropTimerMs - interval } :=
        ⟨hd.timer, hd.resets, hd.falling⟩
      simp only [List.foldl_append]
      exact ih (lockDelay_tryMove hd' 0 1) (tracks_tryMove hd' ⟨h.resets, h.time⟩ 0 1) _
    · exact h

theorem settleLock_activeId (s : GameState) (p : Tetromino) : (s.settleLock p).activeId = s.activeId := by
  unfold GameState.settleLock GameState.recordLock GameState.applyLineClear
  simp only
  split <;> rfl

theorem spawnPiece_lockResetCount {s : GameState} (h : s.lockResetCount = 0) :
    s.spawnPiece.1.lockResetCount = 0 := by
  cases hv : (incoming s).isValid s.board with
  | true =>
    rw [spawnPiece_open s hv]
    rfl
  | false =>
    rw [spawnPiece_blocked s hv]
    exact h

theorem start_lockResetCount (seed : UInt32) : (GameState.new seed).start.lockResetCount = 0 := by
  rw [start_new]
  exact spawnPiece_lockResetCount rfl

theorem restart_lockResetCount (s : GameState) (seed : UInt32) :
    (s.restartWithSeed seed).1.lockResetCount = 0 := by
  rw [restartWithSeed_eq]
  exact spawnPiece_lockResetCount rfl

/-- What an operation does to the lock delay of the active piece, or to the piece. -/
inductive DelayStep (s : GameState) (op : Op) (u : GameState) : Prop where
  | kept (h : ∀ w, Tracks s w → Tracks u ((delayEvents s op).foldl .note w))
      (hid : u.activeId = s.activeId) (hg : u.gameOver = s.gameOver) (hr : op.restarts = false)
  | replaced (hc : u.lockResetCount = 0) (hk : keepsPiece s op u = false)
  | ended (hg : u.gameOver = true) (h : keepsPiece s op u = false ∨ delayEvents s op = [])

theorem delayEvents_none {s : GameState} {a : GameAction} (h : actionEvents s a = []) :
    delayEvents s (.action a) = [] := by
  change (if accepts s a then actionEvents s a else []) = []
  rw [h, ite_self]

theorem keepsPiece_removed {s u : GameState} (op : Op) (h : u.active = none) :
    keepsPiece s op u = false := by
  simp [keepsPiece, h]

theorem keepsPiece_next {s u : GameState} (op : Op) (h : u.activeId = s.activeId + 1) :
    keepsPiece s op u = false := by
  simp [keepsPiece, h]

/-- The piece after a lock is another one, unless there is none. -/
theorem delayStep_lockPiece {s v : GameState} (op : Op) (score : UInt32)
    (hid : v.activeId = s.activeId) (p : Tetromino) (hp : v.active = some p)
    (hg : v.gameOver = false) : DelayStep s op { v.lockPiece with score := score } := by
  have hs := settleLock_activeId v p
  have ha := (settles_settleLock v p).active
  rw [lockPiece_eq v p hp hg]
  generalize v.settleLock p = t at hs ha
  cases hv : (incoming t).isValid t.board with
  | true =>
    rw [spawnPiece_open t hv]
    refine .replaced rfl (keepsPiece_next op ?_)
    change t.activeId + 1 = s.activeId + 1
    rw [hs, hid]
  | false =>
    rw [spawnPiece_blocked t hv]
    exact .ended rfl (.inl (keepsPiece_removed op ha))

theorem delayStep_applyHold (s : GameState) : DelayStep s (.action .Hold) s.applyHold.1 := by
  have he : delayEvents s (.action .Hold) = [] := delayEvents_none rfl
  have hsame : s.applyHold.1 = s → DelayStep s (.action .Hold) s.applyHold.1 := by
    intro h
    rw [h]
    refine .kept (fun w hw => ?_) rfl rfl rfl
    rw [he]
    exact hw
  cases hc : s.canHold with
  | false => exact hsame (by simp [GameState.applyHold, hc])
  | true =>
    cases hp : s.active with
    | none => exact hsame (by simp [GameState.applyHold, hc, hp])
    | some p =>
      cases hh : s.hold with
      | none =>
        rw [applyHold_empty s p hp hc hh]
        cases hv : (incoming s).isValid s.board with
        | true =>
          rw [spawnPiece_open { s with hold := some p.kind } hv]
          exact .replaced rfl (keepsPiece_next _ rfl)
        | false =>
          rw [spawnPiece_blocked { s with hold := some p.kind } hv]
          exact .ended rfl (.inr he)
      | some k =>
        rw [applyHold_swap s p k hp hc hh]
        split
        · exact .replaced rfl (keepsPiece_next _ rfl)
        · exact .ended rfl (.inl (keepsPiece_removed _ rfl))

theorem delayStep_restart (s : GameState) {op : Op} (seed : UInt32) (hr : op.restarts = true) :
    DelayStep s op (s.restartWithSeed seed).1 :=
  .replaced (restart_lockResetCount s seed) (by simp [keepsPiece, hr])

theorem moved_outside {s u : GameState} (h : Moved s u) :
    u.activeId = s.activeId ∧ u.gameOver = s.gameOver := by
  obtain ⟨a, t, c, r, rfl⟩ := h
  exact ⟨rfl, rfl⟩

theorem delayStep_tryMove {s : GameState} (hd : LockDelay s) (op : Op) (hr : op.restarts = false)
    (dx dy : Int8) (he : delayEvents s op = moveEvents s (s.tryMove dx dy)) :
    DelayStep s op (s.tryMove dx dy).1 := by
  obtain ⟨hid, hg⟩ := moved_outside (moved_tryMove s dx dy)
  refine .kept (fun w hw => ?_) hid hg hr
  rw [he]
  exact tracks_tryMove hd hw dx dy

theorem delayStep_tryRotate {s : GameState} (hd : LockDelay s) (op : Op) (hr : op.restarts = false)
    (clockwise : Bool) (he : delayEvents s op = moveEvents s (s.tryRotate clockwise)) :
    DelayStep s op (s.tryRotate clockwise).1 := by
  obtain ⟨hid, hg⟩ := moved_outside (moved_tryRotate s clockwise)
  refine .kept (fun w hw => ?_) hid hg hr
  rw [he]
  exact tracks_tryRotate hd hw clockwise

theorem delayStep_softDropStep {s : GameState} (hd : LockDelay s)
    (he : delayEvents s (.action .SoftDrop) = moveEvents s (s.tryMove 0 1)) :
    DelayStep s (.action .SoftDrop) s.softDropStep.1 := by
  obtain ⟨hid, hg⟩ := moved_outside (moved_tryMove s 0 1)
  refine .kept (fun w hw => ?_) hid hg rfl
  rw [he]
  have hm := tracks_tryMove hd hw 0 1
  exact ⟨hm.resets, hm.time⟩

theorem dropActive_activeId (s : GameState) (p : Tetromino) :
    (s.dropActive p).activeId = s.activeId := by
  unfold GameState.dropActive
  simp only
  split <;> rfl

theorem delayStep_hardDropStep {s : GameState} (hg : s.gameOver = false) :
    DelayStep s (.action .HardDrop) s.hardDropStep.1 := by
  have he : delayEvents s (.action .HardDrop) = [] := delayEvents_none rfl
  cases hp : s.active with
  | none =>
    rw [hardDropStep_none s hp]
    refine .kept (fun w hw => ?_) rfl rfl rfl
    rw [he]
    exact ⟨hw.resets, hw.time⟩
  | some p =>
    rw [hardDropStep_some s p hp]
    exact delayStep_lockPiece _ _ (dropActive_activeId _ p) _ (dropActive_active _ p hp)
      ((glides_dropState s p hp).gameOver.trans hg)

theorem delayStep_action {s : GameState} (hd : LockDelay s) (a : GameAction) :
    DelayStep s (.action a) (s.applyAction a).1 := by
  cases ha : accepts s a with
  | false =>
    rw [applyAction_rejected s a ha]
    refine .kept (fun w hw => ?_) rfl rfl ?_
    · have he : delayEvents s (.action a) = [] := if_neg (Bool.eq_false_iff.mp ha)
      rw [he]
      exact hw
    · cases a <;> first | rfl | simp [accepts] at ha
  | true =>
    obtain ⟨ho, hp⟩ := (accepts_iff s a).mp ha
    have he : delayEvents s (.action a) = actionEvents s a := if_pos ha
    unfold GameState.applyAction
    rw [if_neg ho, if_neg hp]
    cases a with
    | MoveLeft => exact delayStep_tryMove hd _ rfl (-1) 0 he
    | MoveRight => exact delayStep_tryMove hd _ rfl 1 0 he
    | SoftDrop => exact delayStep_softDropStep hd he
    | HardDrop => exact delayStep_hardDropStep (accepts_gameOver ha (by decide))
    | RotateCw => exact delayStep_tryRotate hd _ rfl true he
    | RotateCcw => exact delayStep_tryRotate hd _ rfl false he
    | Hold => exact delayStep_applyHold s
    | Pause =>
      refine .kept (fun w hw => ?_) ?_ ?_ rfl
      · rw [he]
        unfold GameState.togglePause
        simp only
        split <;> exact ⟨hw.resets, hw.time⟩
      · unfold GameState.togglePause
        simp only
        split <;> rfl
      · exact (glides_togglePause s).gameOver
    | Restart => exact delayStep_restart s _ rfl

theorem gravityLoop_activeId (interval : UInt32) (fuel : ℕ) (s : GameState) (changed : Bool) :
    (GameState.gravityLoop interval fuel s changed).1.activeId = s.activeId := by
  induction fuel generalizing s changed with
  | zero => rfl
  | succ fuel ih =>
    unfold GameState.gravityLoop
    split
    · exact (ih _ _).trans (moved_outside (moved_tryMove _ 0 1)).1
    · rfl

theorem tickSoftDrop_fields (s : GameState) (elapsedMs : UInt32) (softDrop : Bool) :
    (s.tickSoftDrop elapsedMs softDrop).activeId = s.activeId ∧
    (s.tickSoftDrop elapsedMs softDrop).lockResetCount = s.lockResetCount ∧
    (s.tickSoftDrop elapsedMs softDrop).lockTimerMs = s.lockTimerMs := by
  unfold GameState.tickSoftDrop
  cases softDrop <;> simp only [Bool.false_eq_true, if_false, if_true] <;> split <;>
    exact ⟨rfl, rfl, rfl⟩

/-- The end of a tick: the piece waits, locks or can fall. -/
theorem delayStep_tickLockDelay {s u : GameState} {op : Op} (hr : op.restarts = false)
    (events : List DelayEvent) (hu : ∀ w, Tracks s w → Tracks u (events.foldl .note w))
    (hid : u.activeId = s.activeId) (hg : u.gameOver = s.gameOver) (hover : s.gameOver = false)
    (elapsedMs : UInt32) (changed : Bool)
    (he : delayEvents s op = events ++ [if u.isGrounded then .waits elapsedMs else .falls]) :
    DelayStep s op (u.tickLockDelay elapsedMs changed).1 := by
  unfold GameState.tickLockDelay
  cases hgr : u.isGrounded with
  | false =>
    refine .kept (fun w hw => ?_) hid hg hr
    rw [he, hgr, List.foldl_append]
    exact tracks_cleared _ rfl
  | true =>
    obtain ⟨p, hp⟩ := isGrounded_active hgr
    simp only [if_true]
    split
    · exact delayStep_lockPiece (v := { u with lockTimerMs := 0, dropTimerMs := 0 }) op _ hid p hp
        (hg.trans hover)
    · next hlt =>
      refine .kept (fun w hw => ?_) hid hg hr
      have htracks := hu w hw
      rw [he, hgr, List.foldl_append]
      generalize events.foldl DelayWatch.note w = w' at htracks
      have hms := lockDelay_ms (s := { u with lockTimerMs := satAdd u.lockTimerMs elapsedMs })
        (UInt32.not_le.mp hlt)
      change (satAdd u.lockTimerMs elapsedMs).toNat ≤ 449 at hms
      have htime := htracks.time
      refine ⟨htracks.resets, ?_⟩
      change w'.groundedMs + elapsedMs.toNat ≤
        449 * w'.groundedResets + (satAdd u.lockTimerMs elapsedMs).toNat
      rw [satAdd_toNat] at hms ⊢
      omega

theorem delayStep_tick {s : GameState} (hd : LockDelay s) (elapsedMs : UInt32) (softDrop : Bool) :
    DelayStep s (.tick elapsedMs softDrop) (s.tick elapsedMs softDrop).1 := by
  have hev : delayEvents s (.tick elapsedMs softDrop) = tickEvents s elapsedMs softDrop := rfl
  unfold tickEvents at hev
  unfold GameState.tick
  by_cases hplay : (s.paused || s.gameOver || !s.started) = true
  · simp only [hplay, if_true] at hev ⊢
    refine .kept (fun w hw => ?_) rfl rfl rfl
    rw [hev]
    exact hw
  · have hover : s.gameOver = false := by simp_all
    have ht : LockDelay ((s.tickCounters elapsedMs).tickLineClear elapsedMs) :=
      ⟨hd.timer, hd.resets, hd.falling⟩
    have hsame : ∀ w, Tracks s w → Tracks ((s.tickCounters elapsedMs).tickLineClear elapsedMs) w :=
      fun w hw => ⟨hw.resets, hw.time⟩
    have hid : ((s.tickCounters elapsedMs).tickLineClear elapsedMs).activeId = s.activeId := rfl
    have hg : ((s.tickCounters elapsedMs).tickLineClear elapsedMs).gameOver = s.gameOver := rfl
    simp only [hplay, Bool.false_eq_true, if_false] at hev ⊢
    generalize (s.tickCounters elapsedMs).tickLineClear elapsedMs = t at ht hsame hid hg hev
    by_cases hrun : (decide (t.lineClearTimerMs > 0) || t.active.isNone) = true
    · simp only [hrun, if_true] at hev ⊢
      refine .kept (fun w hw => ?_) hid hg rfl
      rw [hev]
      exact hsame w hw
    · simp only [hrun, Bool.false_eq_true, if_false] at hev ⊢
      obtain ⟨hid', hcount, htimer⟩ := tickSoftDrop_fields t elapsedMs softDrop
      have hglides := (glides_tickSoftDrop t elapsedMs softDrop).trans
        (glides_tickGravity (t.tickSoftDrop elapsedMs softDrop) elapsedMs)
      have hsoft := lockDelay_tickSoftDrop ht elapsedMs softDrop
      generalize t.tickSoftDrop elapsedMs softDrop = v at hid' hcount htimer hglides hsoft hev
      refine delayStep_tickLockDelay rfl _ (fun w hw => ?_) ?_ (hglides.gameOver.trans hg) hover
        elapsedMs _ hev
      · have hv : Tracks { v with dropTimerMs := satAdd v.dropTimerMs elapsedMs } w := by
          have hw' := hsame w hw
          refine ⟨hw'.resets.trans (congrArg UInt8.toNat hcount.symm), ?_⟩
          change _ ≤ _ + v.lockTimerMs.toNat
          rw [htimer]
          exact hw'.time
        have hv' : LockDelay { v with dropTimerMs := satAdd v.dropTimerMs elapsedMs } :=
          ⟨hsoft.timer, hsoft.resets, hsoft.falling⟩
        exact tracks_gravityLoop _ _ hv' hv false
      · exact (gravityLoop_activeId _ _ _ _).trans (hid'.trans hid)

theorem delayStep_apply {s : GameState} (hd : LockDelay s) (op : Op) : DelayStep s op (op.apply s) := by
  cases op with
  | action a => exact delayStep_action hd a
  | tick elapsedMs softDrop => exact delayStep_tick hd elapsedMs softDrop
  | restart seed => exact delayStep_restart s seed rfl
  | takeEvent => exact .kept (fun w hw => ⟨hw.resets, hw.time⟩) rfl rfl rfl

/-! ## Runs -/

/-- While the game goes on the watch agrees with the state, and it never passes the limits. -/
structure Watched (g : GameState × DelayWatch) : Prop where
  invariant : Invariant g.1
  timers : Timers g.1
  tracks : g.1.gameOver = false → Tracks g.1 g.2
  resets : g.2.groundedResets ≤ lockResetLimit.toNat
  time : g.2.groundedMs < (lockResetLimit.toNat + 1) * lockDelayMs.toNat

theorem watched_tracks {s : GameState} {w : DelayWatch} (hi : Invariant s) (ht : Timers s)
    (h : Tracks s w) : Watched (s, w) := by
  have hc := UInt8.le_iff_toNat_le.mp ht.lockDelay.resets
  have hms := lockDelay_ms ht.lockDelay.timer
  have htime := h.time
  have hlimit : lockResetLimit.toNat = 15 := rfl
  have hdelay : lockDelayMs.toNat = 450 := rfl
  rw [← h.resets, hlimit] at hc
  refine ⟨hi, ht, fun _ => h, ?_, ?_⟩
  · rw [hlimit]
    exact hc
  · rw [hlimit, hdelay]
    change w.groundedMs < 16 * 450
    omega

theorem watched_zero {s : GameState} (hi : Invariant s) (ht : Timers s)
    (h : s.gameOver = false → s.lockResetCount = 0) : Watched (s, .zero) :=
  ⟨hi, ht, fun hg => tracks_cleared 0 (h hg), Nat.zero_le _,
    (by decide : 0 < (lockResetLimit.toNat + 1) * lockDelayMs.toNat)⟩

theorem delayEvents_gameOver {s : GameState} {op : Op} (hr : op.restarts = false)
    (h : s.gameOver = true) : delayEvents s op = [] := by
  cases op with
  | action a =>
    apply if_neg
    intro ha
    have ho := accepts_gameOver ha (by rintro rfl; cases hr)
    rw [h] at ho
    cases ho
  | tick elapsedMs softDrop =>
    change tickEvents s elapsedMs softDrop = []
    unfold tickEvents
    simp [h]
  | restart seed => rfl
  | takeEvent => rfl

theorem watched_recordDelay {g : GameState × DelayWatch} (h : Watched g) (op : Op) :
    Watched (recordDelay g op) := by
  have hi := invariant_effect h.invariant (effect g.1 op)
  have ht := timers_apply h.timers op
  have hstep := delayStep_apply h.timers.lockDelay op
  unfold recordDelay
  generalize op.apply g.1 = u at hi ht hstep
  cases hstep with
  | kept hk hid hg hr =>
    cases hover : g.1.gameOver with
    | false =>
      obtain ⟨p, hp⟩ := Option.isSome_iff_exists.mp (hi.playing (hg.trans hover))
      have hkeep : keepsPiece g.1 op u = true := by simp [keepsPiece, hr, hp, hid]
      rw [hkeep, if_pos rfl]
      exact watched_tracks hi ht (hk g.2 (h.tracks hover))
    | true =>
      have hu : u.gameOver = true := hg.trans hover
      rw [delayEvents_gameOver hr hover]
      split
      · exact ⟨hi, ht, fun hf => absurd (hu.symm.trans hf) (by decide), h.resets, h.time⟩
      · exact watched_zero hi ht fun hf => absurd (hu.symm.trans hf) (by decide)
  | replaced hc hk =>
    rw [hk, if_neg (by decide)]
    exact watched_zero hi ht fun _ => hc
  | ended hg hk =>
    have hf : u.gameOver = false → False := fun hf => absurd (hg.symm.trans hf) (by decide)
    rcases hk with hk | hk
    · rw [hk, if_neg (by decide)]
      exact watched_zero hi ht fun h => (hf h).elim
    · rw [hk]
      split
      · exact ⟨hi, ht, fun h => (hf h).elim, h.resets, h.time⟩
      · exact watched_zero hi ht fun h => (hf h).elim

theorem watched_run {g : GameState × DelayWatch} (h : Watched g) (ops : List Op) :
    Watched (run recordDelay g ops) :=
  run_invariant (I := Watched) (fun _ op hg => watched_recordDelay hg op) h ops

/-- Since the active piece could last move down it has had at most `LOCK_RESET_LIMIT` resets, and
less than as many lock delays and one more have passed. -/
theorem lock_resets_limited (seed : UInt32) (ops : List Op) :
    let w := (run recordDelay (openingDelay seed) ops).2
    w.groundedResets ≤ lockResetLimit.toNat ∧
      w.groundedMs < (lockResetLimit.toNat + 1) * lockDelayMs.toNat := by
  have h := watched_run (watched_zero (invariant_start seed) (timers_start seed)
    fun _ => start_lockResetCount seed) ops
  exact ⟨h.resets, h.time⟩

/-- Eight resets on a ledge, a step off it, and more resets on the floor. -/
def ledgeWalk : List Op :=
  List.replicate 3 (.action .MoveLeft) ++ [.action .HardDrop] ++
    List.replicate 17 (.action .SoftDrop) ++
    (List.replicate 4 [Op.tick 16 false, .action .MoveLeft, .tick 16 false, .action .MoveRight]).flatten ++
    List.replicate 3 (.action .MoveRight) ++ List.replicate 3 (.action .SoftDrop) ++
    (List.replicate 4 [Op.tick 16 false, .action .MoveRight, .tick 16 false, .action .MoveLeft]).flatten

theorem ledgeWalk_resets :
    ¬∀ (seed : UInt32) (ops : List Op),
      (run recordDelay (openingDelay seed) ops).2.resets ≤ lockResetLimit.toNat := by
  intro h
  have hw := h 1 ledgeWalk
  revert hw
  decide +kernel

end TuiTetris.CoreLockResets
