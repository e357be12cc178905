import TuiTetris.CoreGameState

set_option autoImplicit false

/-!
# The loops of the game state end on their own

The source drops a piece `while` it can and takes gravity intervals `while` the
timer holds one. Here both have fuel, and the fuel is never what stops them.
-/
namespace TuiTetris.CoreGameStateLoops
open CoreTypes CorePieces CoreBoard CoreScoring CoreGameState

theorem dropLoop_spec (canDrop : ℕ → Bool) (fuel d : ℕ) :
    d ≤ dropLoop canDrop fuel d ∧ dropLoop canDrop fuel d ≤ d + fuel ∧
    (∀ e, d ≤ e → e < dropLoop canDrop fuel d → canDrop e = true) ∧
    (dropLoop canDrop fuel d < d + fuel → canDrop (dropLoop canDrop fuel d) = false) := by
  induction fuel generalizing d with
  | zero =>
    refine ⟨Nat.le_refl _, Nat.le_refl _, fun e he hlt => ?_, fun h => absurd h (Nat.lt_irrefl _)⟩
    exact absurd (Nat.lt_of_le_of_lt he hlt) (Nat.lt_irrefl _)
  | succ fuel ih =>
    by_cases hc : canDrop d = true
    · obtain ⟨hle, hub, hall, hstop⟩ := ih (d + 1)
      simp only [dropLoop, hc, if_true]
      refine ⟨by omega, by omega, fun e he hlt => ?_, fun h => hstop (by omega)⟩
      rcases Nat.eq_or_lt_of_le he with rfl | he
      · exact hc
      · exact hall e he hlt
    · have hf : canDrop d = false := by simpa using hc
      simp only [dropLoop, hf, Bool.false_eq_true, if_false]
      refine ⟨Nat.le_refl _, Nat.le_add_right _ _, fun e he hlt => ?_, fun _ => trivial⟩
      exact absurd (Nat.lt_of_le_of_lt he hlt) (Nat.lt_irrefl _)

def canDrop (board : Board) (p : Tetromino) (d : ℕ) : Bool :=
  p.shape.all fun m => board.isValid (p.x + m.1) (p.y + m.2 + Int8.ofNat d + 1)

theorem shape_nonempty (p : Tetromino) : ∃ m, m ∈ p.shape := by
  obtain ⟨m, ms, h⟩ : ∃ m ms, p.shape = m :: ms := by
    apply List.exists_cons_of_length_pos
    rw [Tetromino.shape, getShape_length]
    decide
  exact ⟨m, h ▸ List.mem_cons_self⟩

theorem canDrop_blocked (board : Board) (p : Tetromino)
    (h : ∀ d < boardHeight, canDrop board p d = true) : canDrop board p boardHeight = false := by
  obtain ⟨m, hm⟩ := shape_nonempty p
  have valid : ∀ d < boardHeight, board.isValid (p.x + m.1) (p.y + m.2 + Int8.ofNat d + 1) = true :=
    fun d hd => List.all_eq_true.mp (h d hd) m hm
  have first := isValid_range (valid 0 (by decide))
  have last := isValid_range (valid 19 (by decide))
  apply Bool.eq_false_iff.mpr
  intro hb
  have next := isValid_range (List.all_eq_true.mp hb m hm)
  have h0 : (Int8.ofNat 0).toInt = 0 := rfl
  have h19 : (Int8.ofNat 19).toInt = 19 := rfl
  have h20 : (Int8.ofNat boardHeight).toInt = 20 := rfl
  have h1 : (1 : Int8).toInt = 1 := rfl
  simp only [Int8.toInt_add, h0, h19, h20, h1] at first last next
  simp only [Int.bmod_def] at first last next
  omega

theorem dropDistance_spec (board : Board) (p : Tetromino) :
    GameState.dropDistance board p ≤ boardHeight ∧
    (∀ d < GameState.dropDistance board p, canDrop board p d = true) ∧
    canDrop board p (GameState.dropDistance board p) = false := by
  obtain ⟨-, hub, hall, hstop⟩ := dropLoop_spec (canDrop board p) boardHeight 0
  change _ ≤ 0 + boardHeight at hub
  rw [Nat.zero_add] at hub hstop
  refine ⟨hub, fun d hd => hall d (Nat.zero_le d) hd, ?_⟩
  rcases Nat.eq_or_lt_of_le hub with heq | hlt
  · rw [GameState.dropDistance]
    change dropLoop (canDrop board p) boardHeight 0 = boardHeight at heq
    change canDrop board p (dropLoop (canDrop board p) boardHeight 0) = false
    rw [heq] at hall ⊢
    exact canDrop_blocked board p fun d hd => hall d (Nat.zero_le d) hd
  · exact hstop hlt

theorem ghostLoop_dropLoop (canDrop : Int8 → Bool) (fuel d : ℕ) :
    ghostLoop canDrop fuel (Int8.ofNat d) =
      Int8.ofNat (dropLoop (fun d => canDrop (Int8.ofNat d)) fuel d) := by
  induction fuel generalizing d with
  | zero => rfl
  | succ fuel ih =>
    have hs : Int8.ofNat d + 1 = Int8.ofNat (d + 1) := (Int8.ofNat_add d 1).symm
    simp only [ghostLoop, dropLoop, hs, ih]
    split <;> rfl

theorem ghostY_eq (s : GameState) : s.ghostY =
    s.active.map fun p => p.y + Int8.ofNat (GameState.dropDistance s.board p) := by
  unfold GameState.ghostY
  congr 1
  funext p
  congr 1
  exact ghostLoop_dropLoop _ boardHeight 0

theorem dropIntervalMs_pos (s : GameState) : 0 < s.dropIntervalMs.toNat := by
  have h : ∀ l : List UInt32, l.all (fun v => 100 ≤ v.toNat) = true → ∀ i : ℕ,
      100 ≤ ((l[i]?).getD 120).toNat := by
    intro l hl i
    cases hi : l[i]? with
    | none => decide
    | some v => exact of_decide_eq_true (List.all_eq_true.mp hl v (List.mem_of_getElem? hi))
  have hb : 100 ≤ (getDropIntervalMs s.level).toNat := h _ (by decide) _
  have hm : softDropMultiplier.toNat = 10 := rfl
  unfold GameState.dropIntervalMs
  split
  · rw [UInt32.toNat_div, hm]
    exact Nat.div_pos (Nat.le_trans (by decide) hb) (by decide)
  · exact Nat.lt_of_lt_of_le (by decide) hb

theorem handleLockReset_dropTimer (s : GameState) : s.handleLockReset.dropTimerMs = s.dropTimerMs := by
  unfold GameState.handleLockReset
  split
  · rfl
  · split <;> rfl

theorem tryMove_dropTimer (s : GameState) (dx dy : Int8) :
    (s.tryMove dx dy).1.dropTimerMs = s.dropTimerMs := by
  unfold GameState.tryMove
  split
  · rfl
  · split
    · simp only
      split <;> exact handleLockReset_dropTimer _
    · rfl

theorem gravityLoop_ends (interval : UInt32) (hi : 0 < interval.toNat) (fuel : ℕ) (s : GameState)
    (changed : Bool) (hf : s.dropTimerMs.toNat ≤ fuel) :
    (GameState.gravityLoop interval fuel s changed).1.dropTimerMs < interval := by
  induction fuel generalizing s changed with
  | zero =>
    rw [UInt32.lt_iff_toNat_lt]
    change s.dropTimerMs.toNat < _
    omega
  | succ fuel ih =>
    unfold GameState.gravityLoop
    split
    · next h =>
      apply ih
      rw [tryMove_dropTimer]
      have hle : interval.toNat ≤ s.dropTimerMs.toNat := UInt32.le_iff_toNat_le.mp h
      change (s.dropTimerMs - interval).toNat ≤ fuel
      rw [UInt32.toNat_sub_of_le _ _ h]
      omega
    · next h => exact UInt32.not_le.mp h

theorem tickGravity_ends (s : GameState) (elapsedMs : UInt32) :
    (s.tickGravity elapsedMs).1.dropTimerMs < s.dropIntervalMs :=
  gravityLoop_ends _ (dropIntervalMs_pos s) _ _ _ (Nat.le_refl _)

end TuiTetris.CoreGameStateLoops
