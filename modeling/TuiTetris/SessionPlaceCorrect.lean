import TuiTetris.CoreHoldOutcome
import TuiTetris.SessionPlace

set_option autoImplicit false

/-!
# The place command puts the piece where it was told

Rotations and sideways moves glide the piece, whatever kicks they take. The code
checks the rotation and counts the columns itself, so the drop starts in the
target column and orientation; the drop loop then fixes the row.
-/
namespace TuiTetris.SessionPlaceCorrect
open CoreTypes CorePieces CoreBoard CoreBoardRows CoreRng CoreGameState CoreGameStateLoops
open CoreGameStateEffects CoreGameStateInvariant CoreSevenBag CoreHoldOutcome SessionPlace
open LibTransition

/-- Reached by actions that lock nothing and restart nothing. -/
def Quiet (s u : GameState) : Prop :=
  ∃ actions : List GameAction, run Op.apply s (actions.map .action) = u ∧
    trace Op.apply Op.marks s (actions.map .action) = []

theorem Quiet.refl (s : GameState) : Quiet s s := ⟨[], rfl, rfl⟩

theorem Quiet.trans {s u v : GameState} (h : Quiet s u) (k : Quiet u v) : Quiet s v := by
  obtain ⟨as, rfl, ha⟩ := h
  obtain ⟨bs, rfl, hb⟩ := k
  refine ⟨as ++ bs, ?_, ?_⟩
  · rw [List.map_append, run_append]
  · rw [List.map_append, trace_append, ha, hb]
    rfl

theorem Quiet.action {s : GameState} {a : GameAction} (h : (Op.action a).marks s = []) :
    Quiet s (s.applyAction a).1 :=
  ⟨[a], rfl, by simp only [List.map_cons, List.map_nil, trace, h, List.append_nil]⟩

def shifting : GameAction → Bool
  | .MoveLeft | .MoveRight | .RotateCw | .RotateCcw => true
  | _ => false

theorem shifting_marks (s : GameState) {a : GameAction} (h : shifting a = true) :
    (Op.action a).marks s = [] := by
  cases a <;> first | rfl | cases h

theorem applyAction_accepted {s : GameState} {a : GameAction} (h : (s.applyAction a).2 = true) :
    accepts s a = true := by
  by_contra hn
  rw [applyAction_rejected s a (by simpa using hn)] at h
  cases h

theorem glides_shifting (s : GameState) {a : GameAction} (h : shifting a = true) :
    Glides s (s.applyAction a).1 := by
  cases ha : accepts s a with
  | false =>
    rw [applyAction_rejected s a ha]
    exact .refl s
  | true =>
    obtain ⟨ho, hp⟩ := (accepts_iff s a).mp ha
    unfold GameState.applyAction
    rw [if_neg ho, if_neg hp]
    cases a with
    | MoveLeft => exact glides_tryMove s (-1) 0
    | MoveRight => exact glides_tryMove s 1 0
    | RotateCw => exact glides_tryRotate s true
    | RotateCcw => exact glides_tryRotate s false
    | SoftDrop | HardDrop | Hold | Pause | Restart => cases h

theorem repeatAction_shifting {a : GameAction} (h : shifting a = true) (n : ℕ) (s : GameState) :
    Glides s (repeatAction a n s).1 ∧ Quiet s (repeatAction a n s).1 := by
  induction n generalizing s with
  | zero => exact ⟨.refl s, .refl s⟩
  | succ n ih =>
    have hg := glides_shifting s h
    have hq : Quiet s (s.applyAction a).1 := .action (shifting_marks s h)
    unfold repeatAction
    simp only
    split
    · exact ⟨hg.trans (ih _).1, hq.trans (ih _).2⟩
    · exact ⟨hg, hq⟩

theorem tryPlans_shifting (saved : GameState) (plans : List (Bool × ℕ)) (last : GameState)
    (h : (tryPlans saved plans last).2 = true) :
    Glides saved (tryPlans saved plans last).1 ∧ Quiet saved (tryPlans saved plans last).1 := by
  induction plans generalizing last with
  | nil => cases h
  | cons plan plans ih =>
    obtain ⟨isCw, steps⟩ := plan
    have ha : shifting (if isCw then .RotateCw else .RotateCcw) = true := by cases isCw <;> rfl
    have hs := repeatAction_shifting ha steps saved
    unfold tryPlans at h ⊢
    generalize repeatAction (if isCw then .RotateCw else .RotateCcw) steps saved = r at h hs ⊢
    by_cases hr : r.2 = true
    · rw [if_pos hr]
      exact hs
    · rw [if_neg hr] at h ⊢
      exact ih _ h

theorem handleLockReset_active (s : GameState) : s.handleLockReset.active = s.active := by
  unfold GameState.handleLockReset
  split
  · rfl
  · split <;> rfl

theorem tryMove_active {s : GameState} {p : Tetromino} {dx dy : Int8} (hp : s.active = some p)
    (h : (s.tryMove dx dy).2 = true) :
    (s.tryMove dx dy).1.active = some { p with x := p.x + dx, y := p.y + dy } := by
  unfold GameState.tryMove at h ⊢
  split at h
  · cases h
  · next q hq =>
    cases hp.symm.trans hq
    by_cases hv : (p.shape.all fun m => s.board.isValid (p.x + m.1 + dx) (p.y + m.2 + dy)) = true
    · rw [if_pos hv]
      simp only
      split <;> exact handleLockReset_active _
    · rw [if_neg hv] at h
      cases h

theorem move_active {s : GameState} {p : Tetromino} (a : GameAction) (dx : Int8)
    (ha : (a = .MoveLeft ∧ dx = -1) ∨ (a = .MoveRight ∧ dx = 1)) (hp : s.active = some p)
    (h : (s.applyAction a).2 = true) :
    (s.applyAction a).1.active = some { p with x := p.x + dx } := by
  obtain ⟨hover, hpaused⟩ := (accepts_iff s a).mp (applyAction_accepted h)
  have hy : p.y + 0 = p.y := Int8.add_zero _
  unfold GameState.applyAction at h ⊢
  rw [if_neg hover, if_neg hpaused] at h ⊢
  rcases ha with ⟨rfl, rfl⟩ | ⟨rfl, rfl⟩
  · have hm := tryMove_active hp h
    rwa [hy] at hm
  · have hm := tryMove_active hp h
    rwa [hy] at hm

theorem repeat_move_active {p : Tetromino} (a : GameAction) (dx : Int8)
    (ha : (a = .MoveLeft ∧ dx = -1) ∨ (a = .MoveRight ∧ dx = 1)) (n : ℕ) (s : GameState)
    (hp : s.active = some p) (h : (repeatAction a n s).2 = true) :
    (repeatAction a n s).1.active = some { p with x := p.x + Int8.ofNat n * dx } := by
  induction n generalizing s p with
  | zero =>
    have h0 : Int8.ofNat 0 * dx = 0 := Int8.zero_mul
    rw [h0, Int8.add_zero]
    exact hp
  | succ n ih =>
    unfold repeatAction at h ⊢
    simp only at h ⊢
    split at h
    · next hr =>
      rw [if_pos hr, ih _ (move_active a dx ha hp hr) h]
      have hs : Int8.ofNat (n + 1) = Int8.ofNat n + 1 := Int8.ofNat_add n 1
      have hx : p.x + dx + Int8.ofNat n * dx = p.x + Int8.ofNat (n + 1) * dx := by
        rw [hs]
        grind
      rw [← hx]
    · cases h

theorem ofNat_toNatClampNeg {d : Int8} (h : 0 ≤ d.toInt) : Int8.ofNat d.toNatClampNeg = d := by
  apply Int8.toInt_inj.mp
  have hd := d.toInt_lt
  have hs : Int8.size = 256 := rfl
  rw [Int8.toInt_ofNat', Int8.toNatClampNeg]
  simp only [Int.bmod_def, hs]
  omega

theorem walkTo_active {s : GameState} {p : Tetromino} (dx : Int8) (hd : -128 < dx.toInt)
    (hp : s.active = some p) (h : (walkTo s dx).2 = true) :
    (walkTo s dx).1.active = some { p with x := p.x + dx } := by
  have h0 : (0 : Int8).toInt = 0 := rfl
  unfold walkTo at h ⊢
  by_cases hr : dx > 0
  · have hpos : 0 < dx.toInt := by
      rw [gt_iff_lt, Int8.lt_iff_toInt_lt, h0] at hr
      exact hr
    rw [if_pos hr] at h ⊢
    rw [repeat_move_active .MoveRight 1 (.inr ⟨rfl, rfl⟩) _ s hp h,
      ofNat_toNatClampNeg (by omega), Int8.mul_one]
  · rw [if_neg hr] at h ⊢
    by_cases hl : dx < 0
    · have hneg : dx.toInt < 0 := by
        rw [Int8.lt_iff_toInt_lt, h0] at hl
        exact hl
      have hn : (-dx).toInt = -dx.toInt := by
        have hu := dx.toInt_lt
        rw [Int8.toInt_neg, Int.bmod_def]
        omega
      rw [if_pos hl] at h ⊢
      rw [repeat_move_active .MoveLeft (-1) (.inl ⟨rfl, rfl⟩) _ s hp h,
        ofNat_toNatClampNeg (by omega)]
      have hx : -dx * -1 = dx := by grind
      rw [hx]
    · rw [if_neg hl] at h ⊢
      have hz : dx = 0 := by
        apply Int8.toInt_inj.mp
        rw [gt_iff_lt, Int8.lt_iff_toInt_lt, h0] at hr
        rw [Int8.lt_iff_toInt_lt, h0] at hl
        omega
      rw [hz, Int8.add_zero]
      exact hp

theorem walkTo_kept {s : GameState} {p : Tetromino} (dx : Int8) (hp : s.active = some p)
    (h : (walkTo s dx).2 = true) : ∃ q, (walkTo s dx).1.active = some q ∧ q.kind = p.kind ∧
      q.rotation = p.rotation ∧ (-128 < dx.toInt → q.x = p.x + dx) := by
  by_cases hd : -128 < dx.toInt
  · exact ⟨_, walkTo_active dx hd hp h, rfl, rfl, fun _ => rfl⟩
  · have hmin : dx = -128 := by
      have h128 : (-128 : Int8).toInt = -128 := rfl
      have hl := dx.le_toInt
      apply Int8.toInt_inj.mp
      omega
    subst hmin
    exact ⟨p, hp, rfl, rfl, fun hlt => absurd hlt hd⟩

theorem walkTo_shifting (s : GameState) (dx : Int8) :
    Glides s (walkTo s dx).1 ∧ Quiet s (walkTo s dx).1 := by
  unfold walkTo
  split
  · exact repeatAction_shifting rfl _ s
  · split
    · exact repeatAction_shifting rfl _ s
    · exact ⟨.refl s, .refl s⟩

def InRange (x : Int8) : Prop := -100 ≤ x.toInt ∧ x.toInt ≤ 100

theorem walk_range {p : Tetromino} {b : Board} (hv : p.isValid b = true) {targetX : Int8}
    (hx : InRange targetX) : -128 < (targetX - p.x).toInt := by
  obtain ⟨m, hm⟩ := shape_nonempty p
  obtain ⟨r, c, hc, -, -⟩ := isValid_cells hv m hm
  have ho := getShape_offsets p.kind p.rotation m hm
  obtain ⟨hl, hu⟩ := hx
  rw [Int8.toInt_sub, Int.bmod_def]
  omega

theorem walkAndDrop_ok {s u : GameState} {p : Tetromino} {targetX : Int8} (hp : s.active = some p)
    (hv : p.isValid s.board = true) (h : walkAndDrop s p targetX = (u, .ok ())) :
    ∃ v q, Glides s v ∧ Quiet s v ∧ v.active = some q ∧ q.kind = p.kind ∧
      q.rotation = p.rotation ∧ (InRange targetX → q.x = targetX) ∧
      accepts v .HardDrop = true ∧ u = (v.applyAction .HardDrop).1 := by
  unfold walkAndDrop at h
  split at h
  · cases h
  · have hw := walkTo_shifting s (targetX - p.x)
    have ha := walkTo_kept (targetX - p.x) hp
    generalize walkTo s (targetX - p.x) = w at h hw ha
    by_cases hok : w.2 = true
    · by_cases hd : (w.1.applyAction .HardDrop).2 = true
      · simp only [hok, hd, Bool.not_true, Bool.false_eq_true, if_false, Prod.mk.injEq] at h
        obtain ⟨q, hq, hk, hr, hx⟩ := ha hok
        have hc : p.x + (targetX - p.x) = targetX := by grind
        exact ⟨w.1, q, hw.1, hw.2, hq, hk, hr, fun hin => (hx (walk_range hv hin)).trans hc,
          applyAction_accepted hd, h.1.symm⟩
      · simp [hok, hd] at h
    · simp [hok] at h

/-- What the command did when it reports success: a quiet glide to the target column and
orientation, then an accepted hard drop. -/
theorem rotateWalkDrop_ok {s u : GameState} {targetX : Int8} {targetRot : Rotation}
    (hs : Invariant s) (h : rotateWalkDrop s targetX targetRot = (u, .ok ())) :
    ∃ p v q, s.active = some p ∧ Glides s v ∧ Quiet s v ∧ v.active = some q ∧
      q.kind = p.kind ∧ q.rotation = targetRot ∧ (InRange targetX → q.x = targetX) ∧
      accepts v .HardDrop = true ∧ u = (v.applyAction .HardDrop).1 := by
  unfold rotateWalkDrop at h
  split at h
  · cases h
  · next p hp =>
    have hr := tryPlans_shifting s (rotationPlans p.rotation targetRot) s
    generalize tryPlans s (rotationPlans p.rotation targetRot) s = r at h hr
    by_cases hok : r.2 = true
    · obtain ⟨hg, hq⟩ := hr hok
      simp only [hok, Bool.not_true, Bool.false_eq_true, if_false] at h
      split at h
      · cases h
      · next q hq' =>
        split at h
        · cases h
        · next hrot =>
          have hk : q.kind = p.kind := by
            have hk := hg.kind
            rw [hq', hp] at hk
            exact Option.some.inj hk
          have hv := (invariant_glides hs hg).valid q hq'
          obtain ⟨v, t, hgv, hqv, hav, htk, htr, htx, hacc, hu⟩ := walkAndDrop_ok hq' hv h
          exact ⟨p, v, t, hp, hg.trans hgv, hq.trans hqv, hav, htk.trans hk,
            htr.trans (not_not.mp hrot), htx, hacc, hu⟩
    · simp [hok] at h

def placedKind (s : GameState) (p : Tetromino) (useHold : Bool) : PieceKind :=
  if useHold then s.hold.getD (s.nextQueue.get ⟨0, preview_pos⟩) else p.kind

/-- The queue preview shown in the state is that of the queue. -/
def QueueShown (s : GameState) : Prop := s.nextQueue = s.pieceQueue.peek5

theorem queueShown_draws {s u : GameState} (hs : QueueShown s) (h : Draws s u) : QueueShown u := by
  unfold QueueShown
  cases h with
  | nothing hq hn _ =>
    rw [hn, hq]
    exact hs
  | one hq hn _ _ => rw [hn, hq]

theorem queueShown_fresh (seed episodeId : UInt32) :
    QueueShown (freshState seed episodeId).spawnPiece.1 := by
  have hfresh : QueueShown (freshState seed episodeId) := Eq.refl (PieceQueue.new seed).peek5
  exact queueShown_draws hfresh (draws_spawnPiece _)

theorem queueShown_effect {s u : GameState} {op : Op} {marks : List Mark} (hs : QueueShown s)
    (h : Effect s op marks u) : QueueShown u := by
  rcases effect_draws h with hd | ⟨-, seed, rfl⟩
  · exact queueShown_draws hs hd
  · rw [restartWithSeed_eq]
    exact queueShown_fresh seed _

theorem queueShown_run {s : GameState} (hs : QueueShown s) (ops : List Op) :
    QueueShown (run Op.apply s ops) :=
  run_invariant (I := QueueShown) (fun s op h => queueShown_effect h (effect s op)) hs ops

theorem queueShown_start (seed : UInt32) : QueueShown (GameState.new seed).start := by
  rw [start_new]
  exact queueShown_fresh seed 0

theorem hold_ok {s : GameState} (hs : QueueShown s) (h : (s.applyAction .Hold).2 = true)
    (hg : (s.applyAction .Hold).1.gameOver = false) :
    ∃ p, s.active = some p ∧
      (s.applyAction .Hold).1.active = some (.new (placedKind s p true)) ∧
      (s.applyAction .Hold).1.board = s.board ∧ (s.applyAction .Hold).1.boardId = s.boardId ∧
      (s.applyAction .Hold).1.hold = some p.kind := by
  obtain ⟨hover, hpaused⟩ := (accepts_iff s .Hold).mp (applyAction_accepted h)
  rw [applyAction_hold (by simpa using hpaused) (by simpa using hover)] at h hg ⊢
  cases hc : s.canHold with
  | false =>
    rw [applyHold_unavailable hc] at h
    cases h
  | true =>
    cases hp : s.active with
    | none => simp [GameState.applyHold, hc, hp] at h
    | some p =>
      have hplaced : Tetromino.new (placedKind s p true) = heldPiece s := rfl
      have heffect := holdEffect hp hc
      refine ⟨p, rfl, ?_⟩
      rw [hplaced]
      generalize s.applyHold = r at h hg heffect ⊢
      cases heffect with
      | swapped k hh hv =>
        rw [heldPiece_some hh]
        exact ⟨rfl, rfl, rfl, rfl⟩
      | toppedOut k hh hv => cases h
      | drawn hh hv =>
        rw [heldPiece_none hh hs]
        exact ⟨rfl, rfl, rfl, rfl⟩
      | blocked hh hv => cases hg

def FreeAt (b : Board) (shape : PieceShape) (x y : Int) : Prop :=
  ∀ m ∈ shape, ∃ (r : Fin 20) (c : Fin 10),
    x + m.1.toInt = c.val ∧ y + m.2.toInt = r.val ∧ b.cell r c = none

/-- `filled` is the board `b` with the shape at column `x` and row `y` filled with `kind`. -/
def Filled (b : Board) (shape : PieceShape) (x y : Int) (kind : PieceKind) (filled : Board) : Prop :=
  ∀ r c, ((∃ m ∈ shape, x + m.1.toInt = (c.val : Int) ∧ y + m.2.toInt = (r.val : Int)) →
      filled.cell r c = some kind) ∧
    ((¬∃ m ∈ shape, x + m.1.toInt = (c.val : Int) ∧ y + m.2.toInt = (r.val : Int)) →
      filled.cell r c = b.cell r c)

theorem freeAt_valid {b : Board} {p : Tetromino} (h : p.isValid b = true) :
    FreeAt b p.shape p.x.toInt p.y.toInt := isValid_cells h

theorem freeAt_sums {b : Board} {shape : PieceShape} {x y : Int8}
    (h : FreeAt b shape x.toInt y.toInt) (m : MinoOffset) (hm : m ∈ shape) :
    (x + m.1).toInt = x.toInt + m.1.toInt ∧ (y + m.2).toInt = y.toInt + m.2.toInt := by
  obtain ⟨r, c, hx, hy, -⟩ := h m hm
  rw [Int8.toInt_add, Int8.toInt_add, Int.bmod_def, Int.bmod_def]
  omega

theorem freeAt_fits {b : Board} {shape : PieceShape} {x y : Int8}
    (h : FreeAt b shape x.toInt y.toInt) : shapeFits b.isValid shape x y = true := by
  rw [shapeFits_iff]
  intro m hm
  obtain ⟨hx, hy⟩ := freeAt_sums h m hm
  rw [hx, hy]
  exact h m hm

theorem lockPiece_filled {b : Board} {p : Tetromino} (h : p.isValid b = true) :
    Filled b p.shape p.x.toInt p.y.toInt p.kind (b.lockPiece p.shape p.x p.y p.kind).1 := by
  obtain ⟨-, hcells⟩ := lockPiece_fits b p.shape p.x p.y p.kind h
  have hsum := freeAt_sums (freeAt_valid h)
  have hcov : ∀ r c, covers p.shape p.x p.y r c ↔
      ∃ m ∈ p.shape, p.x.toInt + m.1.toInt = (c.val : Int) ∧ p.y.toInt + m.2.toInt = (r.val : Int) := by
    intro r c
    refine exists_congr fun m => and_congr_right fun hm => ?_
    rw [(hsum m hm).1, (hsum m hm).2]
  intro r c
  rw [← hcov]
  exact ⟨fun hc => ((hcells r c).1 hc).2, (hcells r c).2⟩

def landed (b : Board) (q : Tetromino) : Tetromino :=
  { q with y := q.y + Int8.ofNat (GameState.dropDistance b q) }

theorem landed_valid {b : Board} {q : Tetromino} (h : q.isValid b = true) :
    (landed b q).isValid b = true := by
  unfold landed
  rcases Nat.eq_zero_or_pos (GameState.dropDistance b q) with h0 | hd
  · rw [h0]
    change Tetromino.isValid { q with y := q.y + 0 } b = true
    rwa [Int8.add_zero]
  · exact dropDistance_valid b q hd

theorem landed_blocked {b : Board} {q : Tetromino} (h : q.isValid b = true) :
    ¬FreeAt b (landed b q).shape (landed b q).x.toInt ((landed b q).y.toInt + 1) := by
  intro hf
  obtain ⟨m, hm⟩ := shape_nonempty (landed b q)
  obtain ⟨r, c, -, hy, -⟩ := isValid_cells (landed_valid h) m hm
  have hoff := getShape_offsets (landed b q).kind (landed b q).rotation m hm
  have h1 : ((landed b q).y + 1).toInt = (landed b q).y.toInt + 1 := by
    have h1 : (1 : Int8).toInt = 1 := rfl
    rw [Int8.toInt_add, h1, Int.bmod_def]
    omega
  rw [← h1] at hf
  have hfit := freeAt_fits hf
  have hstop := (dropDistance_spec b q).2.2
  have hshift : (canDrop b q (GameState.dropDistance b q)) =
      shapeFits b.isValid (landed b q).shape (landed b q).x ((landed b q).y + 1) := by
    unfold canDrop shapeFits landed
    congr 1
    funext m
    congr 1
    simp only
    grind
  rw [hshift, hfit] at hstop
  cases hstop

/-- Everything an accepted hard drop of a valid piece does to the board. -/
theorem hardDrop_lands {v : GameState} {q : Tetromino} (hv : Invariant v) (hq : v.active = some q)
    (ha : accepts v .HardDrop = true) :
    ∃ e, (Op.action .HardDrop).marks v = [.lock q.kind e] ∧
      (v.applyAction .HardDrop).1.board =
        (v.board.lockPiece (landed v.board q).shape (landed v.board q).x (landed v.board q).y
          q.kind).1.clearFullRows.1 ∧
      (v.applyAction .HardDrop).1.boardId = v.boardId + 1 ∧
      (v.applyAction .HardDrop).1.hold = v.hold ∧
      (v.applyAction .HardDrop).1.lastEvent = some e := by
  obtain ⟨hover, hpaused⟩ := (accepts_iff v .HardDrop).mp ha
  have hg : v.gameOver = false := accepts_gameOver ha (by decide)
  have hd := glides_dropState v q hq
  have hact : (dropState v q).active = some (landed v.board q) :=
    dropActive_active { v with lastActionWasRotate := false } q hq
  have hgd := hd.gameOver.trans hg
  have hlock := lockPiece_eq (dropState v q) (landed v.board q) hact hgd
  have hval : (landed v.board q).isValid (dropState v q).board = true := by
    rw [hd.board]
    exact landed_valid (hv.valid q hq)
  have hsp := spawns_spawnPiece ((dropState v q).settleLock (landed v.board q))
  have hse := settles_settleLock (dropState v q) (landed v.board q)
  obtain ⟨e, he, hm⟩ := lockMark_active hact hgd
  have hstep : (v.applyAction .HardDrop).1 = v.hardDropStep.1 := by
    unfold GameState.applyAction
    rw [if_neg hover, if_neg hpaused]
  rw [hstep, hardDropStep_some v q hq]
  refine ⟨e, ?_, ?_, ?_, ?_, he⟩
  · have hl : (Op.action .HardDrop).lockingState v = some (dropState v q) := by
      unfold Op.lockingState
      rw [if_pos ha, hq, Option.map_some]
    rw [marks_locking hl, hm]
    rfl
  · change (dropState v q).lockPiece.board = _
    rw [hlock, hsp.board, settleLock_board, hd.board]
    rfl
  · change (dropState v q).lockPiece.boardId = _
    rw [hlock, hsp.boardId, settleLock_boardId _ _ hval, hd.boardId]
  · change (dropState v q).lockPiece.hold = _
    rw [hlock, hsp.hold, hse.hold, hd.hold]

/-- Between `s` and `u` actions locked exactly one piece, of kind `kind`. -/
structure LockedOne (s u : GameState) (kind : PieceKind) : Prop where
  actions : ∃ (actions : List GameAction) (e : CoreLastEvent),
    run Op.apply s (actions.map .action) = u ∧
    trace Op.apply Op.marks s (actions.map .action) = [.lock kind e] ∧ u.lastEvent = some e
  boardId : u.boardId = s.boardId + 1

/-- The board of `u` is that of `s` with the shape as low as it goes straight down in column `x`,
cleared of full rows. -/
def LandedAt (s u : GameState) (kind : PieceKind) (rot : Rotation) (x : Int) : Prop :=
  ∃ y filled, FreeAt s.board (getShape kind rot) x y ∧
    ¬FreeAt s.board (getShape kind rot) x (y + 1) ∧
    Filled s.board (getShape kind rot) x y kind filled ∧ u.board = filled.clearFullRows.1

theorem rotateWalkDrop_places {s u : GameState} {targetX : Int8} {targetRot : Rotation}
    (hs : Invariant s) (h : rotateWalkDrop s targetX targetRot = (u, .ok ())) :
    ∃ p, s.active = some p ∧ LockedOne s u p.kind ∧
      (InRange targetX → LandedAt s u p.kind targetRot targetX.toInt) ∧
      u.hold = s.hold ∧ s.gameOver = false := by
  obtain ⟨p, v, q, hp, hg, hquiet, hq, hk, hrot, hqx, hacc, rfl⟩ := rotateWalkDrop_ok hs h
  have hv := invariant_glides hs hg
  have hqv := hv.valid q hq
  obtain ⟨e, hmarks, hboard, hid, hhold, hevent⟩ := hardDrop_lands hv hq hacc
  refine ⟨p, hp, ⟨?_, hid.trans (by rw [hg.boardId])⟩, fun hin => ?_, hhold.trans hg.hold,
    hg.gameOver.symm.trans (accepts_gameOver hacc (by decide))⟩
  · obtain ⟨actions, rfl, htrace⟩ := hquiet
    refine ⟨actions ++ [.HardDrop], e, ?_, ?_, hevent⟩
    · rw [List.map_append, run_append]
      rfl
    · rw [List.map_append, trace_append, htrace]
      simp only [List.map_cons, List.map_nil, trace, hmarks, hk, List.append_nil, List.nil_append]
  · have hshape : (landed v.board q).shape = getShape p.kind targetRot := by
      rw [← hk, ← hrot]
      rfl
    have hlx : (landed v.board q).x = targetX := hqx hin
    have hlk : (landed v.board q).kind = p.kind := hk
    have hfree := freeAt_valid (landed_valid hqv)
    have hblocked := landed_blocked hqv
    have hfilled := lockPiece_filled (landed_valid hqv)
    rw [hshape, hlx] at hfree hblocked hfilled
    rw [hlk] at hfilled
    unfold LandedAt
    rw [← hg.board]
    refine ⟨_, _, hfree, hblocked, hfilled, ?_⟩
    rw [hboard, hk, hshape, hlx]

theorem LockedOne.of_quiet {s t u : GameState} {kind : PieceKind} (hq : Quiet s t)
    (hid : t.boardId = s.boardId) (h : LockedOne t u kind) : LockedOne s u kind := by
  obtain ⟨actions, rfl, htrace⟩ := hq
  refine ⟨?_, hid ▸ h.boardId⟩
  obtain ⟨more, e, hrun, hmore, he⟩ := h.actions
  refine ⟨actions ++ more, e, ?_, ?_, he⟩
  · rw [List.map_append, run_append, hrun]
  · rw [List.map_append, trace_append, htrace, hmore, List.nil_append]

theorem applyPlaceInPlace_places {s u : GameState} {targetX : Int8} {targetRot : Rotation}
    {useHold : Bool} (hs : Invariant s) (hshown : QueueShown s)
    (h : applyPlaceInPlace s targetX targetRot useHold = (u, .ok ())) :
    ∃ p, s.active = some p ∧ LockedOne s u (placedKind s p useHold) ∧
      (InRange targetX → LandedAt s u (placedKind s p useHold) targetRot targetX.toInt) ∧
      (useHold = true → u.hold = some p.kind) := by
  unfold applyPlaceInPlace at h
  split at h
  · cases h
  · cases useHold with
    | false =>
      obtain ⟨p, hp, hone, hland, -, -⟩ := rotateWalkDrop_places hs h
      exact ⟨p, hp, hone, hland, fun hf => nomatch hf⟩
    | true =>
      simp only [if_true] at h
      by_cases hh : (s.applyAction .Hold).2 = true
      · simp only [hh, Bool.not_true, Bool.false_eq_true, if_false] at h
        have hi : Invariant (s.applyAction .Hold).1 := invariant_effect hs (effect s (.action .Hold))
        obtain ⟨p', hp', hone, hland, hhold, hover⟩ := rotateWalkDrop_places hi h
        obtain ⟨p, hp, hact, hboard, hid, hheld⟩ := hold_ok hshown hh hover
        have hk : p'.kind = placedKind s p true := by
          rw [hact] at hp'
          cases hp'
          rfl
        rw [hk] at hone hland
        have hquiet : Quiet s (s.applyAction .Hold).1 := .action rfl
        unfold LandedAt at hland ⊢
        rw [hboard] at hland
        exact ⟨p, hp, hone.of_quiet hquiet hid, hland, fun _ => hhold.trans hheld⟩
      · simp [hh] at h

theorem applyPlace_error {s : GameState} {targetX : Int8} {targetRot : Rotation} {useHold : Bool}
    {error : PlaceError} (h : (applyPlace s targetX targetRot useHold).2 = .error error) :
    (applyPlace s targetX targetRot useHold).1 = s := by
  unfold applyPlace at h ⊢
  simp only at h ⊢
  split at h
  · cases h
  · rfl

theorem applyPlace_ok {s : GameState} {targetX : Int8} {targetRot : Rotation} {useHold : Bool}
    (h : (applyPlace s targetX targetRot useHold).2 = .ok ()) :
    applyPlaceInPlace s targetX targetRot useHold =
      ((applyPlace s targetX targetRot useHold).1, .ok ()) := by
  unfold applyPlace at h ⊢
  simp only at h ⊢
  split at h
  · next ho => exact Prod.ext rfl ho
  · cases h

/-- A rejected placement changes nothing; an accepted one locks exactly one piece, that of the
command, where the command said. -/
theorem applyPlace_correct (seed : UInt32) (ops : List Op) (x : Int8) (rot : Rotation) (useHold : Bool)
    (hx : -100 ≤ x.toInt ∧ x.toInt ≤ 100) :
    let s := run Op.apply (GameState.new seed).start ops
    let r := applyPlace s x rot useHold
    (∀ error, r.2 = .error error → r.1 = s) ∧
    (r.2 = .ok () → ∃ p kind, s.active = some p ∧
      kind = (if useHold then s.hold.getD s.nextQueue[0] else p.kind) ∧
      LockedOne s r.1 kind ∧ LandedAt s r.1 kind rot x.toInt ∧
      (useHold = true → r.1.hold = some p.kind)) := by
  refine ⟨fun error h => applyPlace_error h, fun h => ?_⟩
  obtain ⟨p, hp, hone, hland, hheld⟩ := applyPlaceInPlace_places
    (invariant_run (invariant_start seed) ops) (queueShown_run (queueShown_start seed) ops)
    (applyPlace_ok h)
  exact ⟨p, _, hp, rfl, hone, hland hx, hheld⟩

theorem applyPlace_correct_first :
    let s := (GameState.new 1).start
    let r := applyPlace s 4 .East false
    ∃ p kind, s.active = some p ∧ kind = p.kind ∧ LockedOne s r.1 kind ∧
      LandedAt s r.1 kind .East 4 ∧ (false = true → r.1.hold = some p.kind) :=
  (applyPlace_correct 1 [] 4 .East false ⟨by decide, by decide⟩).2 (by decide +kernel)

end TuiTetris.SessionPlaceCorrect
