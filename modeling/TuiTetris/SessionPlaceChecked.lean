import TuiTetris.CoreCheckedSafe
import TuiTetris.SessionPlace

set_option autoImplicit false

/-!
# The place command with every check on

The target column comes from a remote peer and may be any `i8`. The column check
adds the offsets of the turned piece to it before anything bounds it.
-/
namespace TuiTetris.SessionPlaceChecked
open CoreTypes CorePieces CoreGameState CoreGameStateEffects CoreGameStateInvariant CoreCheckedSafe
open CoreGameStateLoops (shape_nonempty)
open SessionPlace (PlaceError minDx maxDx)
open LibChecked LibTransition

/-! ## The command -/

def repeatAction (action : GameAction) : ℕ → GameState → Checked (GameState × Bool)
  | 0, s => return (s, true)
  | n + 1, s => do
    let r ← CoreChecked.applyAction s action
    if r.2 then repeatAction action n r.1 else return (r.1, false)

def rotToI : Rotation → Int8
  | .North => 0
  | .East => 1
  | .South => 2
  | .West => 3

/-- `rem_euclid(4) as u8`. -/
def quarterTurns (d : Int8) : ℕ := (d.toInt % 4).toNat

def rotationPlans (cur tgt : Rotation) : Checked (List (Bool × ℕ)) := do
  let cw := quarterTurns (← subInt8 (rotToI tgt) (rotToI cur))
  let ccw := quarterTurns (← subInt8 (rotToI cur) (rotToI tgt))
  if ccw < cw then return [(false, ccw), (true, cw)] else return [(true, cw), (false, ccw)]

def tryPlans (saved : GameState) : List (Bool × ℕ) → GameState → Checked (GameState × Bool)
  | [], last => return (last, false)
  | (isCw, steps) :: plans, _ => do
    let r ← repeatAction (if isCw then .RotateCw else .RotateCcw) steps saved
    if r.2 then return r else tryPlans saved plans r.1

def walkTo (s : GameState) (dx : Int8) : Checked (GameState × Bool) := do
  if dx > 0 then repeatAction .MoveRight dx.toNatClampNeg s
  else if dx < 0 then repeatAction .MoveLeft (← negInt8 dx).toNatClampNeg s
  else return (s, true)

/-- The second sum is taken only where the first is not negative. -/
def outOfBounds (shape : PieceShape) (targetX : Int8) : Checked Bool := do
  if (← addInt8 targetX (minDx shape)) < 0 then return true
  else return decide ((← addInt8 targetX (maxDx shape)) ≥ 10)

def walkAndDrop (s : GameState) (active : Tetromino) (targetX : Int8) :
    Checked (GameState × Except PlaceError Unit) := do
  if ← outOfBounds active.shape targetX then return (s, .error .XOutOfBounds)
  else
    let walked ← walkTo s (← subInt8 targetX active.x)
    if !walked.2 then return (walked.1, .error .XBlocked)
    else
      let dropped ← CoreChecked.applyAction walked.1 .HardDrop
      if !dropped.2 then
        return (dropped.1, .error (if dropped.1.active.isNone then .NoActive else .NotPlayable))
      else return (dropped.1, .ok ())

def rotateWalkDrop (s : GameState) (targetX : Int8) (targetRot : Rotation) :
    Checked (GameState × Except PlaceError Unit) := do
  match s.active with
  | none => return (s, .error .NoActive)
  | some active0 =>
    let rotated ← tryPlans s (← rotationPlans active0.rotation targetRot) s
    if !rotated.2 then return (rotated.1, .error .RotationBlocked)
    else
      match rotated.1.active with
      | none => return (rotated.1, .error .NoActive)
      | some active =>
        if active.rotation ≠ targetRot then return (rotated.1, .error .RotationBlocked)
        else walkAndDrop rotated.1 active targetX

def applyPlaceInPlace (s : GameState) (targetX : Int8) (targetRot : Rotation) (useHold : Bool) :
    Checked (GameState × Except PlaceError Unit) := do
  if s.paused || s.gameOver then return (s, .error .NotPlayable)
  else if useHold then
    let held ← CoreChecked.applyAction s .Hold
    if !held.2 then return (held.1, .error .HoldUnavailable)
    else rotateWalkDrop held.1 targetX targetRot
  else rotateWalkDrop s targetX targetRot

def applyPlace (s : GameState) (targetX : Int8) (targetRot : Rotation) (useHold : Bool) :
    Checked (GameState × Except PlaceError Unit) := do
  let candidate ← applyPlaceInPlace s targetX targetRot useHold
  match candidate.2 with
  | .ok () => return (candidate.1, .ok ())
  | .error error => return (s, .error error)

/-! ## The column check -/

/-- The piece that the rotation step hands on, if it succeeds. -/
def turnedFrom (s : GameState) (targetRot : Rotation) : Option Tetromino :=
  s.active.bind fun active0 =>
    let rotated := SessionPlace.tryPlans s (SessionPlace.rotationPlans active0.rotation targetRot) s
    if rotated.2 then rotated.1.active.filter fun active => active.rotation = targetRot else none

/-- The piece whose columns the command checks. -/
def turned (s : GameState) (targetRot : Rotation) (useHold : Bool) : Option Tetromino :=
  if s.paused || s.gameOver then none
  else if useHold then
    let held := s.applyAction .Hold
    if held.2 then turnedFrom held.1 targetRot else none
  else turnedFrom s targetRot

/-- The rightmost column of the piece at `targetX` is an `i8`. -/
def columnFits (targetX : Int8) (q : Tetromino) : Bool :=
  targetX.toInt + (maxDx q.shape).toInt ≤ 127

/-- At `targetX` the piece has a cell outside the columns of the board. -/
def OutOfColumns (targetX : Int8) (q : Tetromino) : Prop :=
  ∃ m ∈ q.shape, ¬(0 ≤ targetX.toInt + m.1.toInt ∧ targetX.toInt + m.1.toInt < 10)

/-- A fold that picks one of two values keeps one that stands in the relation to all of them. -/
theorem foldl_pick {R : Int8 → Int8 → Prop} {pick : Int8 → Int8 → Int8} (hrefl : ∀ a, R a a)
    (htrans : ∀ {a b c}, R a b → R b c → R a c)
    (hpick : ∀ a b, pick a b = a ∧ R a b ∨ pick a b = b ∧ R b a) (shape : PieceShape) (d : Int8) :
    R (shape.foldl (fun d m => pick d m.1) d) d ∧
      (∀ m ∈ shape, R (shape.foldl (fun d m => pick d m.1) d) m.1) ∧
      (shape.foldl (fun d m => pick d m.1) d = d ∨
        ∃ m ∈ shape, m.1 = shape.foldl (fun d m => pick d m.1) d) := by
  induction shape generalizing d with
  | nil => exact ⟨hrefl d, by simp, .inl rfl⟩
  | cons m ms ih =>
    obtain ⟨hd, hall, hmem⟩ := ih (pick d m.1)
    rw [List.foldl_cons]
    simp only [List.mem_cons, forall_eq_or_imp, exists_eq_or_imp]
    rcases hpick d m.1 with ⟨hp, hR⟩ | ⟨hp, hR⟩
    · rw [hp] at hd hall hmem ⊢
      exact ⟨hd, ⟨htrans hd hR, hall⟩, hmem.imp id .inr⟩
    · rw [hp] at hd hall hmem ⊢
      exact ⟨htrans hd hR, ⟨hd, hall⟩, .inr (hmem.imp Eq.symm id)⟩

theorem min_pick (a b : Int8) :
    min a b = a ∧ a.toInt ≤ b.toInt ∨ min a b = b ∧ b.toInt ≤ a.toInt := by
  by_cases h : a ≤ b
  · exact .inl ⟨if_pos h, Int8.le_iff_toInt_le.mp h⟩
  · rw [Int8.le_iff_toInt_le] at h
    exact .inr ⟨if_neg (by rwa [Int8.le_iff_toInt_le]), by omega⟩

theorem max_pick (a b : Int8) :
    max a b = a ∧ b.toInt ≤ a.toInt ∨ max a b = b ∧ a.toInt ≤ b.toInt := by
  by_cases h : a ≤ b
  · exact .inr ⟨if_pos h, Int8.le_iff_toInt_le.mp h⟩
  · rw [Int8.le_iff_toInt_le] at h
    exact .inl ⟨if_neg (by rwa [Int8.le_iff_toInt_le]), by omega⟩

/-- The offsets that the check adds are the extreme ones of the shape. -/
theorem dx_extent (q : Tetromino) :
    (∃ m ∈ q.shape, m.1 = minDx q.shape) ∧ (∃ m ∈ q.shape, m.1 = maxDx q.shape) ∧
      ∀ m ∈ q.shape, (minDx q.shape).toInt ≤ m.1.toInt ∧ m.1.toInt ≤ (maxDx q.shape).toInt := by
  obtain ⟨-, hmin, hleast⟩ := foldl_pick (R := fun a b => a.toInt ≤ b.toInt)
    (fun _ => Int.le_refl _) Int.le_trans min_pick q.shape 127
  obtain ⟨-, hmax, hgreatest⟩ := foldl_pick (R := fun a b => b.toInt ≤ a.toInt)
    (fun _ => Int.le_refl _) (fun h k => Int.le_trans k h) max_pick q.shape (-128)
  change (∀ m ∈ q.shape, (minDx q.shape).toInt ≤ m.1.toInt) at hmin
  change (∀ m ∈ q.shape, m.1.toInt ≤ (maxDx q.shape).toInt) at hmax
  obtain ⟨m, hm⟩ := shape_nonempty q
  obtain ⟨h0, h3, -⟩ := getShape_offsets q.kind q.rotation m hm
  have hlow := hmin m hm
  have hhigh := hmax m hm
  refine ⟨hleast.resolve_left fun he => ?_, hgreatest.resolve_left fun he => ?_, fun n hn =>
    ⟨hmin n hn, hmax n hn⟩⟩
  · change minDx q.shape = 127 at he
    rw [he] at hlow
    exact absurd (Int.le_trans hlow h3) (by decide)
  · change maxDx q.shape = -128 at he
    rw [he] at hhigh
    exact absurd (Int.le_trans h0 hhigh) (by decide)

theorem dx_range (q : Tetromino) : 0 ≤ (minDx q.shape).toInt ∧
    (minDx q.shape).toInt ≤ (maxDx q.shape).toInt ∧ (maxDx q.shape).toInt ≤ 3 := by
  obtain ⟨⟨m, hm, hmin⟩, ⟨n, hn, hmax⟩, hall⟩ := dx_extent q
  have hm' := getShape_offsets q.kind q.rotation m hm
  have hn' := getShape_offsets q.kind q.rotation n hn
  have hle := hall m hm
  rw [hmin] at hm' hle
  rw [hmax] at hn'
  exact ⟨hm'.1, hle.2, hn'.2.1⟩

/-- Below the overflow the two comparisons say whether a cell is off the columns. -/
theorem outOfColumns_iff {targetX : Int8} {q : Tetromino} (h : columnFits targetX q = true) :
    OutOfColumns targetX q ↔ targetX + minDx q.shape < 0 ∨ targetX + maxDx q.shape ≥ 10 := by
  obtain ⟨⟨m, hm, hmin⟩, ⟨n, hn, hmax⟩, hall⟩ := dx_extent q
  obtain ⟨h0, hle, h3⟩ := dx_range q
  have hlow := targetX.le_toInt
  have hfit : targetX.toInt + (maxDx q.shape).toInt ≤ 127 := of_decide_eq_true h
  have hzero : (0 : Int8).toInt = 0 := rfl
  have hten : (10 : Int8).toInt = 10 := rfl
  rw [ge_iff_le, Int8.lt_iff_toInt_lt, Int8.le_iff_toInt_le, toInt_add (by omega) (by omega),
    toInt_add (by omega) (by omega), hzero, hten]
  constructor
  · rintro ⟨k, hk, hout⟩
    obtain ⟨hl, hu⟩ := hall k hk
    omega
  · rintro (hneg | hten)
    · exact ⟨m, hm, by rw [hmin]; omega⟩
    · exact ⟨n, hn, by rw [hmax]; omega⟩

theorem outOfBounds_eq (targetX : Int8) (q : Tetromino) : outOfBounds q.shape targetX =
    if columnFits targetX q then
      .ok (decide (targetX + minDx q.shape < 0 ∨ targetX + maxDx q.shape ≥ 10))
    else .error .overflow := by
  obtain ⟨h0, hle, h3⟩ := dx_range q
  have hlow := targetX.le_toInt
  have hhigh := targetX.toInt_lt
  unfold outOfBounds
  by_cases hfit : columnFits targetX q = true
  · have hx : targetX.toInt + (maxDx q.shape).toInt ≤ 127 := of_decide_eq_true hfit
    rw [if_pos hfit, addInt8_ok (by omega) (by omega), ok_bind, addInt8_ok (by omega) (by omega), ok_bind]
    by_cases hneg : targetX + minDx q.shape < 0 <;> simp [hneg]
  · have hx : 128 ≤ targetX.toInt + (maxDx q.shape).toInt := by
      have := of_decide_eq_false (Bool.eq_false_iff.mpr hfit)
      omega
    rw [if_neg hfit]
    by_cases hmin : 128 ≤ targetX.toInt + (minDx q.shape).toInt
    · rw [addInt8_overflow hmin]
      rfl
    · have hpos : ¬targetX + minDx q.shape < 0 := by
        have hzero : (0 : Int8).toInt = 0 := rfl
        rw [Int8.lt_iff_toInt_lt, toInt_add (by omega) (by omega), hzero]
        omega
      rw [addInt8_ok (by omega) (by omega), ok_bind, if_neg hpos, addInt8_overflow hx]
      rfl

/-! ## The steps before and after it -/

theorem invariant_action {s : GameState} (h : Invariant s) (a : GameAction) :
    Invariant (s.applyAction a).1 := invariant_run h [.action a]

theorem repeatAction_ok {s : GameState} (h : Invariant s) (a : GameAction) (n : ℕ) :
    repeatAction a n s = .ok (SessionPlace.repeatAction a n s) ∧
      Invariant (SessionPlace.repeatAction a n s).1 := by
  induction n generalizing s with
  | zero => exact ⟨rfl, h⟩
  | succ n ih =>
    have hnext := invariant_action h a
    unfold repeatAction SessionPlace.repeatAction
    rw [applyAction_ok h, ok_bind]
    simp only
    split
    · exact ih hnext
    · exact ⟨rfl, hnext⟩

theorem rotationPlans_ok (cur tgt : Rotation) :
    rotationPlans cur tgt = .ok (SessionPlace.rotationPlans cur tgt) := by
  cases cur <;> cases tgt <;> rfl

theorem tryPlans_ok {saved : GameState} (h : Invariant saved) (plans : List (Bool × ℕ))
    {last : GameState} (hl : Invariant last) :
    tryPlans saved plans last = .ok (SessionPlace.tryPlans saved plans last) ∧
      Invariant (SessionPlace.tryPlans saved plans last).1 := by
  induction plans generalizing last with
  | nil => exact ⟨rfl, hl⟩
  | cons plan plans ih =>
    obtain ⟨hr, hi⟩ := repeatAction_ok h (if plan.1 then .RotateCw else .RotateCcw) plan.2
    unfold tryPlans SessionPlace.tryPlans
    rw [hr, ok_bind]
    generalize SessionPlace.repeatAction _ plan.2 saved = r at hi
    by_cases hr : r.2 = true
    · simp only [hr, if_true]
      exact ⟨rfl, hi⟩
    · simp only [hr]
      exact ih hi

theorem walkTo_ok {s : GameState} (h : Invariant s) {dx : Int8} (hd : dx ≠ -128) :
    walkTo s dx = .ok (SessionPlace.walkTo s dx) ∧ Invariant (SessionPlace.walkTo s dx).1 := by
  unfold walkTo SessionPlace.walkTo
  split
  · exact repeatAction_ok h .MoveRight _
  · split
    · rw [negInt8_ok hd, ok_bind]
      exact repeatAction_ok h .MoveLeft _
    · exact ⟨rfl, h⟩

/-- Once the check has passed the target is near the board, and the walk takes few steps. -/
theorem distance_ok {targetX : Int8} {p : Tetromino} (h : columnFits targetX p = true)
    (hin : ¬(targetX + minDx p.shape < 0 ∨ targetX + maxDx p.shape ≥ 10)) (hp : InRange p) :
    subInt8 targetX p.x = .ok (targetX - p.x) ∧ targetX - p.x ≠ -128 := by
  obtain ⟨⟨hx, hx'⟩, -⟩ := hp
  obtain ⟨h0, hle, h3⟩ := dx_range p
  have hlow := targetX.le_toInt
  have hfit : targetX.toInt + (maxDx p.shape).toInt ≤ 127 := of_decide_eq_true h
  have hzero : (0 : Int8).toInt = 0 := rfl
  have hten : (10 : Int8).toInt = 10 := rfl
  rw [ge_iff_le, Int8.lt_iff_toInt_lt, Int8.le_iff_toInt_le, toInt_add (by omega) (by omega),
    toInt_add (by omega) (by omega), hzero, hten] at hin
  refine ⟨subInt8_ok (by omega) (by omega), fun hmin => ?_⟩
  have hsub : (targetX - p.x).toInt = targetX.toInt - p.x.toInt := by
    rw [Int8.toInt_sub, Int.bmod_def]
    omega
  have h128 : (-128 : Int8).toInt = -128 := rfl
  rw [hmin, h128] at hsub
  omega

theorem walkAndDrop_eq {s : GameState} {p : Tetromino} (h : Invariant s) (hp : s.active = some p)
    (targetX : Int8) : walkAndDrop s p targetX =
      if columnFits targetX p then .ok (SessionPlace.walkAndDrop s p targetX)
      else .error .overflow := by
  unfold walkAndDrop SessionPlace.walkAndDrop
  rw [outOfBounds_eq]
  by_cases hfit : columnFits targetX p = true
  · rw [if_pos hfit, if_pos hfit, ok_bind]
    by_cases hout : targetX + minDx p.shape < 0 ∨ targetX + maxDx p.shape ≥ 10
    · simp [hout]
    · obtain ⟨hsub, hne⟩ := distance_ok hfit hout (inRange_valid (h.valid p hp))
      obtain ⟨hwalk, hi⟩ := walkTo_ok h hne
      simp only [hout, decide_false, Bool.false_eq_true, if_false, hsub, ok_bind, hwalk,
        applyAction_ok hi]
      split
      · rfl
      · split <;> rfl
  · rw [if_neg hfit, if_neg hfit]
    rfl

theorem rotateWalkDrop_eq {s : GameState} (h : Invariant s) (targetX : Int8) (targetRot : Rotation) :
    rotateWalkDrop s targetX targetRot =
      if (turnedFrom s targetRot).all (columnFits targetX) then
        .ok (SessionPlace.rotateWalkDrop s targetX targetRot)
      else .error .overflow := by
  unfold rotateWalkDrop SessionPlace.rotateWalkDrop turnedFrom
  cases hp : s.active with
  | none => rfl
  | some p =>
    obtain ⟨htry, hi⟩ := tryPlans_ok h (SessionPlace.rotationPlans p.rotation targetRot) h
    simp only [rotationPlans_ok, ok_bind, htry, Option.bind_some]
    generalize SessionPlace.tryPlans s (SessionPlace.rotationPlans p.rotation targetRot) s = r at hi
    cases hr : r.2 with
    | false => rfl
    | true =>
      cases hq : r.1.active with
      | none => rfl
      | some q =>
        by_cases hrot : q.rotation = targetRot
        · simp [hrot, Option.filter, walkAndDrop_eq hi hq]
        · simp [hrot, Option.filter]

theorem applyPlaceInPlace_eq {s : GameState} (h : Invariant s) (targetX : Int8)
    (targetRot : Rotation) (useHold : Bool) : applyPlaceInPlace s targetX targetRot useHold =
      if (turned s targetRot useHold).all (columnFits targetX) then
        .ok (SessionPlace.applyPlaceInPlace s targetX targetRot useHold)
      else .error .overflow := by
  unfold applyPlaceInPlace SessionPlace.applyPlaceInPlace turned
  by_cases hplay : (s.paused || s.gameOver) = true
  · simp only [hplay, if_true]
    rfl
  · simp only [hplay]
    cases useHold with
    | false => exact rotateWalkDrop_eq h targetX targetRot
    | true =>
      simp only [if_true, applyAction_ok h, ok_bind]
      cases hheld : (s.applyAction .Hold).2 with
      | false => rfl
      | true => exact rotateWalkDrop_eq (invariant_action h .Hold) targetX targetRot

/-- The command stops with an overflow exactly where the column of the turned piece is no `i8`. -/
theorem applyPlace_eq {s : GameState} (h : Invariant s) (targetX : Int8) (targetRot : Rotation)
    (useHold : Bool) : applyPlace s targetX targetRot useHold =
      if (turned s targetRot useHold).all (columnFits targetX) then
        .ok (SessionPlace.applyPlace s targetX targetRot useHold)
      else .error .overflow := by
  unfold applyPlace SessionPlace.applyPlace
  rw [applyPlaceInPlace_eq h]
  split
  · rw [ok_bind]
    generalize SessionPlace.applyPlaceInPlace s targetX targetRot useHold = r
    obtain ⟨u, result⟩ := r
    cases result <;> rfl
  · rfl

/-! ## Rejected columns -/

theorem rotateWalkDrop_rejects {s : GameState} {targetX : Int8} {targetRot : Rotation} {q : Tetromino}
    (hq : turnedFrom s targetRot = some q) (hfit : columnFits targetX q = true)
    (hout : OutOfColumns targetX q) :
    (SessionPlace.rotateWalkDrop s targetX targetRot).2 = .error .XOutOfBounds := by
  obtain ⟨p, hp, hturn⟩ := Option.bind_eq_some_iff.mp hq
  unfold SessionPlace.rotateWalkDrop
  simp only at hturn
  split at hturn
  · next hr =>
    obtain ⟨hactive, hrot⟩ := Option.filter_eq_some_iff.mp hturn
    simp [hp, hr, hactive, of_decide_eq_true hrot, SessionPlace.walkAndDrop,
      (outOfColumns_iff hfit).mp hout]
  · cases hturn

theorem applyPlace_rejects {s : GameState} {targetX : Int8} {targetRot : Rotation} {useHold : Bool}
    {q : Tetromino} (hq : turned s targetRot useHold = some q) (hfit : columnFits targetX q = true)
    (hout : OutOfColumns targetX q) :
    (SessionPlace.applyPlace s targetX targetRot useHold).2 = .error .XOutOfBounds := by
  have hplace : (SessionPlace.applyPlaceInPlace s targetX targetRot useHold).2 =
      .error .XOutOfBounds := by
    unfold SessionPlace.applyPlaceInPlace
    unfold turned at hq
    split at hq
    · cases hq
    · next hplay =>
      rw [if_neg hplay]
      cases useHold with
      | false => exact rotateWalkDrop_rejects hq hfit hout
      | true =>
        simp only [if_true] at hq ⊢
        split at hq
        · next hheld =>
          simp only [hheld, Bool.not_true, Bool.false_eq_true, if_false]
          exact rotateWalkDrop_rejects hq hfit hout
        · cases hq
  simp only [SessionPlace.applyPlace, hplace]

/-- The command runs to its end, and rejects a turned piece with a cell off the columns. -/
def ColumnChecked (s : GameState) (targetX : Int8) (targetRot : Rotation) (useHold : Bool) : Prop :=
  ∃ r, applyPlace s targetX targetRot useHold = .ok r ∧
    ∀ q ∈ turned s targetRot useHold, OutOfColumns targetX q → r.2 = .error .XOutOfBounds

theorem columnChecked_iff {s : GameState} (h : Invariant s) (targetX : Int8) (targetRot : Rotation)
    (useHold : Bool) : ColumnChecked s targetX targetRot useHold ↔
      ∀ q ∈ turned s targetRot useHold, targetX.toInt + (maxDx q.shape).toInt ≤ 127 := by
  have hall : (turned s targetRot useHold).all (columnFits targetX) = true ↔
      ∀ q ∈ turned s targetRot useHold, targetX.toInt + (maxDx q.shape).toInt ≤ 127 := by
    simp [Option.all_eq_true, columnFits]
  unfold ColumnChecked
  rw [applyPlace_eq h, ← hall]
  constructor
  · rintro ⟨r, hr, -⟩
    by_contra hn
    rw [if_neg hn] at hr
    cases hr
  · intro hfit
    refine ⟨_, if_pos hfit, fun q hq hout => ?_⟩
    exact applyPlace_rejects hq (decide_eq_true (hall.mp hfit q hq)) hout

/-- In every reachable state the command keeps its word on the column exactly when the rightmost
column of the turned piece, where it gets to check one, is an `i8`. -/
theorem column_checked_iff (seed : UInt32) (ops : List Op) (targetX : Int8) (targetRot : Rotation)
    (useHold : Bool) :
    let s := run Op.apply (GameState.new seed).start ops
    ColumnChecked s targetX targetRot useHold ↔
      ∀ q ∈ turned s targetRot useHold, targetX.toInt + (maxDx q.shape).toInt ≤ 127 :=
  columnChecked_iff (invariant_run (invariant_start seed) ops) targetX targetRot useHold

/-- At the largest column the check overflows; where the sum wraps it lets the column pass. -/
theorem largestColumn_overflows :
    ¬ColumnChecked (GameState.new 1).start 127 .North false ∧
      (SessionPlace.applyPlace (GameState.new 1).start 127 .North false).2 = .error .XBlocked := by
  refine ⟨fun h => ?_, by decide +kernel⟩
  have hfit := (columnChecked_iff (invariant_start 1) 127 .North false).mp h
  exact absurd hfit (by decide +kernel)

end TuiTetris.SessionPlaceChecked
