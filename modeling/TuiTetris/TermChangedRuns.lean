import TuiTetris.LibChecked
import TuiTetris.TermRendererScreen

set_option autoImplicit false

/-!
# The changed runs of a frame

The scan as it runs on `u16` columns, with every check on. Its runs are those of the
encoder's scan.
-/
namespace TuiTetris.TermChangedRuns
open LibChecked TermFrameBuffer
open TermRenderer (cellChanged runEnd runEnd_spec rowRuns rowRuns_hom rowRuns_induction
  foldl_range_induction)
open TermRendererScreen (Drawn drawn_skip drawn_run drawn_row)

variable {σ : Type}

/-- A framebuffer whose sides are `u16`. -/
structure Frame where
  buffer : FrameBuffer
  width_lt : buffer.width < 65536
  height_lt : buffer.height < 65536

def Frame.width (fb : Frame) : UInt16 := .ofNat fb.buffer.width

def Frame.height (fb : Frame) : UInt16 := .ofNat fb.buffer.height

/-- `get(x, y).unwrap_or_default()`. -/
def Frame.cellAt (fb : Frame) (x y : UInt16) : Cell := fb.buffer.cellAt x.toNat y.toNat

/-- The arguments of one call of the closure. -/
structure Run where
  x : UInt16
  y : UInt16
  len : UInt16
  deriving DecidableEq, Repr

namespace Run

/-- The column after the last one. -/
def stop (r : Run) : ℕ := r.x.toNat + r.len.toNat

def covers (r : Run) (i j : ℕ) : Bool := r.y.toNat = j ∧ r.x.toNat ≤ i ∧ i < r.stop

/-- In a later row, or in the same row with a column between them. -/
def Before (r q : Run) : Prop :=
  r.y.toNat < q.y.toNat ∨ r.y.toNat = q.y.toNat ∧ r.stop < q.x.toNat

theorem covers_iff {r : Run} {i j : ℕ} :
    r.covers i j = true ↔ r.y.toNat = j ∧ r.x.toNat ≤ i ∧ i < r.stop := decide_eq_true_iff

/-- No cell is in two runs. -/
theorem Before.not_covers {r q : Run} {i j : ℕ} (h : r.Before q) (hr : r.covers i j = true) :
    ¬q.covers i j = true := by
  intro hq
  rw [covers_iff] at hr hq
  rcases h with hy | ⟨-, hx⟩
  · omega
  · omega

end Run

/-- The inner `while`: the column it leaves `x` at. -/
def runStop (prev next : Frame) (y : UInt16) (fuel : ℕ) (x : UInt16) : Checked UInt16 :=
  loop (fun x =>
    if x < next.width then
      if prev.cellAt x y = next.cellAt x y then return .inr x
      else do return .inl (← addUInt16 x 1)
    else return .inr x) fuel x

/-- One turn of the outer `while`. A closure that fails ends the scan. -/
def rowTurn (prev next : Frame) (y : UInt16) (f : σ → Run → Checked σ) (fuel : ℕ) :
    UInt16 × σ → Checked ((UInt16 × σ) ⊕ σ)
  | (x, s) =>
    if x < next.width then
      if prev.cellAt x y = next.cellAt x y then do return .inl (← addUInt16 x 1, s)
      else do
        let stop ← runStop prev next y fuel (← addUInt16 x 1)
        let len ← subUInt16 stop x
        return .inl (stop, ← f s ⟨x, y, len⟩)
    else return .inr s

def scanRow (prev next : Frame) (y : UInt16) (f : σ → Run → Checked σ) (fuel : ℕ) (s : σ) :
    Checked σ :=
  loop (rowTurn prev next y f fuel) fuel (0, s)

/-- Each `while` makes at most `fuel` turns. -/
def forEachChangedRun (fuel : ℕ) (prev next : Frame) (f : σ → Run → Checked σ) (s : σ) :
    Checked σ :=
  if prev.width ≠ next.width ∨ prev.height ≠ next.height then
    (List.range next.height.toNat).foldlM (fun s y => f s ⟨0, .ofNat y, next.width⟩) s
  else
    (List.range next.height.toNat).foldlM
      (fun s y => scanRow prev next (.ofNat y) f fuel s) s

def pushRun (runs : List Run) (x y len : ℕ) : List Run :=
  runs ++ [⟨.ofNat x, .ofNat y, .ofNat len⟩]

/-- The runs of the encoder's scan. -/
def changedRuns (prev next : Frame) : List Run :=
  TermRenderer.forEachChangedRun prev.buffer next.buffer pushRun []

/-! ## The loops return -/

section
variable {prev next : Frame} {y : ℕ}

theorem width_toNat (fb : Frame) : fb.width.toNat = fb.buffer.width := toNat_uInt16 fb.width_lt

theorem height_toNat (fb : Frame) : fb.height.toNat = fb.buffer.height :=
  toNat_uInt16 fb.height_lt

theorem cellAt_ofNat (fb : Frame) {x : ℕ} (hx : x < 65536) (hy : y < 65536) :
    fb.cellAt (.ofNat x) (.ofNat y) = fb.buffer.cellAt x y := by
  rw [Frame.cellAt, toNat_uInt16 hx, toNat_uInt16 hy]

theorem same_iff (hy : y < 65536) {x : ℕ} (hx : x < 65536) :
    prev.cellAt (.ofNat x) (.ofNat y) = next.cellAt (.ofNat x) (.ofNat y) ↔
      ¬cellChanged prev.buffer next.buffer y x = true := by
  rw [cellAt_ofNat prev hx hy, cellAt_ofNat next hx hy]
  simp [cellChanged]

theorem lt_width_iff {x : ℕ} (hx : x ≤ next.buffer.width) :
    UInt16.ofNat x < next.width ↔ x < next.buffer.width :=
  ofNat_lt_uInt16 (Nat.lt_of_le_of_lt hx next.width_lt) next.width_lt

/-- The sum stays below the width, so it cannot overflow. -/
theorem next_column {x : ℕ} (hx : x < next.buffer.width) :
    addUInt16 (.ofNat x) 1 = .ok (.ofNat (x + 1)) :=
  addUInt16_ofNat (n := 1) (Nat.lt_of_le_of_lt hx next.width_lt)

theorem runStop_ok (hy : y < 65536) (n : ℕ) {x fuel : ℕ} (hx : x + n = next.buffer.width)
    (hf : n < fuel) : runStop prev next (.ofNat y) fuel (.ofNat x) =
      .ok (.ofNat (runEnd (cellChanged prev.buffer next.buffer y) x n)) := by
  have hw := next.width_lt
  obtain ⟨fuel, rfl⟩ := Nat.exists_eq_succ_of_ne_zero (Nat.ne_zero_of_lt hf)
  unfold runStop
  induction n generalizing x fuel with
  | zero =>
    refine loop_stop ?_ fuel
    rw [if_neg ((lt_width_iff (by omega)).not.mpr (by omega))]
    rfl
  | succ n ih =>
    have hlt : UInt16.ofNat x < next.width := (lt_width_iff (by omega)).mpr (by omega)
    obtain ⟨fuel, rfl⟩ := Nat.exists_eq_succ_of_ne_zero (n := fuel) (by omega)
    simp only [runEnd]
    split
    · next hc =>
      rw [loop_next (u := .ofNat (x + 1)), ih (by omega) fuel (by omega)]
      rw [if_pos hlt, if_neg ((same_iff hy (by omega)).not.mpr (not_not_intro hc)),
        next_column (by omega : x < next.buffer.width)]
      rfl
    · next hc =>
      refine loop_stop ?_ _
      rw [if_pos hlt, if_pos ((same_iff hy (by omega)).mpr hc)]
      rfl

/-- The runs of row `y` from column `x` on. -/
def runsFrom (prev next : Frame) (y m x : ℕ) : List Run :=
  rowRuns (cellChanged prev.buffer next.buffer y) next.buffer.width
    (fun runs x len => pushRun runs x y len) m x []

theorem pushRun_append (runs : List Run) (prev next : Frame) (y m x : ℕ) :
    rowRuns (cellChanged prev.buffer next.buffer y) next.buffer.width
      (fun runs x len => pushRun runs x y len) m x runs = runs ++ runsFrom prev next y m x := by
  have h : runs ++ runsFrom prev next y m x =
      rowRuns (cellChanged prev.buffer next.buffer y) next.buffer.width
        (fun runs x len => pushRun runs x y len) m x (runs ++ []) :=
    rowRuns_hom (runs ++ ·) (fun s x len => (List.append_assoc runs s _).symm) m x []
  rw [h, List.append_nil]

section
variable (f : σ → Run → Checked σ) (s : σ) {fuel : ℕ}

theorem rowTurn_end (fuel : ℕ) :
    rowTurn prev next (.ofNat y) f fuel (.ofNat next.buffer.width, s) = .ok (.inr s) := by
  rw [rowTurn, if_neg ((lt_width_iff (Nat.le_refl _)).not.mpr (Nat.lt_irrefl _))]
  rfl

theorem rowTurn_same (hy : y < 65536) {x : ℕ} (hx : x < next.buffer.width) (fuel : ℕ)
    (hc : ¬cellChanged prev.buffer next.buffer y x = true) :
    rowTurn prev next (.ofNat y) f fuel (.ofNat x, s) = .ok (.inl (.ofNat (x + 1), s)) := by
  rw [rowTurn, if_pos ((lt_width_iff (Nat.le_of_lt hx)).mpr hx),
    if_pos ((same_iff hy (Nat.lt_trans hx next.width_lt)).mpr hc), next_column hx]
  rfl

theorem rowTurn_run (hy : y < 65536) {x stop : ℕ} (hx : x < next.buffer.width)
    (hfuel : next.buffer.width < fuel) (hc : cellChanged prev.buffer next.buffer y x = true)
    (hstop : runEnd (cellChanged prev.buffer next.buffer y) (x + 1)
      (next.buffer.width - (x + 1)) = stop) (hle : x ≤ stop) (hge : stop ≤ next.buffer.width) :
    rowTurn prev next (.ofNat y) f fuel (.ofNat x, s) =
      f s ⟨.ofNat x, .ofNat y, .ofNat (stop - x)⟩ >>= fun s => .ok (.inl (.ofNat stop, s)) := by
  have hrun : runStop prev next (.ofNat y) fuel (.ofNat (x + 1)) = .ok (.ofNat stop) := by
    rw [← hstop]
    exact runStop_ok hy _ (by omega) (by omega)
  rw [rowTurn, if_pos ((lt_width_iff (Nat.le_of_lt hx)).mpr hx),
    if_neg ((same_iff hy (Nat.lt_trans hx next.width_lt)).not.mpr (not_not_intro hc)),
    next_column hx, ok_bind, hrun, ok_bind,
    subUInt16_ofNat hle (Nat.lt_of_le_of_lt hge next.width_lt)]
  rfl

end

theorem loop_rowTurn (hy : y < 65536) (f : σ → Run → Checked σ) {fuel : ℕ}
    (hfuel : next.buffer.width < fuel) (m : ℕ) {x k : ℕ} (s : σ) (hx : x ≤ next.buffer.width)
    (hm : next.buffer.width - x ≤ m) (hk : m < k) :
    loop (rowTurn prev next (.ofNat y) f fuel) k (.ofNat x, s) =
      (runsFrom prev next y m x).foldlM f s := by
  obtain ⟨k, rfl⟩ := Nat.exists_eq_succ_of_ne_zero (Nat.ne_zero_of_lt hk)
  induction m generalizing x k s with
  | zero =>
    have hend : x = next.buffer.width := by omega
    subst hend
    exact loop_stop (rowTurn_end f s fuel) k
  | succ m ih =>
    obtain ⟨k, rfl⟩ := Nat.exists_eq_succ_of_ne_zero (n := k) (by omega)
    rcases Nat.eq_or_lt_of_le hx with rfl | hlt
    · rw [loop_stop (rowTurn_end f s fuel), runsFrom, rowRuns, if_neg (Nat.lt_irrefl _)]
      rfl
    · rw [runsFrom, rowRuns, if_pos hlt]
      split
      · next hc =>
        obtain ⟨hge, hle, -, -⟩ := runEnd_spec (cellChanged prev.buffer next.buffer y) (x + 1)
          (next.buffer.width - (x + 1))
        generalize hstop : runEnd (cellChanged prev.buffer next.buffer y) (x + 1)
          (next.buffer.width - (x + 1)) = stop at hge hle
        rw [loop, rowTurn_run f s hy hlt hfuel hc hstop (by omega) (by omega), bind_assoc,
          pushRun_append]
        change _ = List.foldlM f s (_ :: runsFrom prev next y m stop)
        rw [List.foldlM_cons]
        congr 1
        funext u
        exact ih u (by omega) (by omega) k (by omega)
      · next hc =>
        rw [loop_next (rowTurn_same f s hy hlt fuel hc)]
        exact ih s hlt (by omega) k (by omega)

def Resized (prev next : Frame) : Prop :=
  prev.buffer.width ≠ next.buffer.width ∨ prev.buffer.height ≠ next.buffer.height

theorem resized_iff : Resized prev next ↔ (prev.width ≠ next.width ∨ prev.height ≠ next.height) := by
  rw [Resized, ← width_toNat, ← width_toNat, ← height_toNat, ← height_toNat, ne_eq, ne_eq,
    UInt16.toNat_inj, UInt16.toNat_inj]

theorem changedRuns_resized (h : Resized prev next) :
    changedRuns prev next =
      (List.range next.buffer.height).flatMap fun y => [⟨0, .ofNat y, next.width⟩] := by
  unfold Resized at h
  rw [changedRuns, TermRenderer.forEachChangedRun, if_pos h]
  exact List.foldl_append_eq_append

theorem changedRuns_same (h : ¬Resized prev next) :
    changedRuns prev next =
      (List.range next.buffer.height).flatMap fun y => runsFrom prev next y next.buffer.width 0 := by
  unfold Resized at h
  rw [changedRuns, TermRenderer.forEachChangedRun, if_neg h]
  simp only [pushRun_append]
  exact List.foldl_append_eq_append

/-- The scan calls the closure once for each run, in their order, and does nothing else. -/
theorem forEachChangedRun_eq (f : σ → Run → Checked σ) (s : σ) {fuel : ℕ}
    (hfuel : next.buffer.width < fuel) :
    forEachChangedRun fuel prev next f s = (changedRuns prev next).foldlM f s := by
  rw [forEachChangedRun, height_toNat]
  split
  · next h =>
    rw [changedRuns_resized (resized_iff.mpr h)]
    exact foldlM_flatMap (fun y _ s => (bind_pure (f s _)).symm) s
  · next h =>
    rw [changedRuns_same (resized_iff.not.mpr h)]
    refine foldlM_flatMap (fun y hy s => ?_) s
    have hy : y < 65536 := Nat.lt_trans (List.mem_range.mp hy) next.height_lt
    exact loop_rowTurn hy f hfuel next.buffer.width s (Nat.zero_le _) (Nat.le_refl _) hfuel

end

/-! ## What the runs cover -/

theorem countP_le_one {α : Type} {R : α → α → Prop} {p : α → Bool}
    (hR : ∀ a b, R a b → p a = true → ¬p b = true) {l : List α} (h : l.Pairwise R) :
    l.countP p ≤ 1 := by
  induction h with
  | nil => exact Nat.zero_le 1
  | @cons a l hrest _ ih =>
    by_cases hp : p a = true
    · have hzero : l.countP p = 0 := List.countP_eq_zero.mpr fun b hb => hR a b (hrest b hb) hp
      rw [List.countP_cons_of_pos hp, hzero]
    · rw [List.countP_cons_of_neg hp]
      exact ih

theorem countP_covers_le {runs : List Run} (h : runs.Pairwise Run.Before) (i j : ℕ) :
    runs.countP (·.covers i j) ≤ 1 :=
  countP_le_one (fun _ _ hb hr => hb.not_covers hr) h

/-- The runs of the rows above `y` and of row `y` left of column `x`. -/
structure Scanned (prev next : FrameBuffer) (y x : ℕ) (runs : List Run) : Prop where
  inside : ∀ r ∈ runs, 0 < r.len.toNat ∧ r.stop ≤ next.width ∧ r.y.toNat < next.height
  apart : runs.Pairwise Run.Before
  reached : ∀ r ∈ runs, r.y.toNat < y ∨ r.y.toNat = y ∧ r.stop ≤ x ∧
    (r.stop = x → x < next.width → cellChanged prev next y x = false)
  covered : ∀ i j, (∃ r ∈ runs, r.covers i j = true) ↔ Drawn prev next y x i j

section
variable {prev next : FrameBuffer} {y x : ℕ} {runs : List Run}

theorem Scanned.skip (h : Scanned prev next y x runs)
    (hc : cellChanged prev next y x = false) : Scanned prev next y (x + 1) runs := by
  refine ⟨h.inside, h.apart, fun r hr => ?_, fun i j => (h.covered i j).trans (drawn_skip hc)⟩
  rcases h.reached r hr with hy | ⟨hy, hstop, -⟩
  · exact .inl hy
  · exact .inr ⟨hy, by omega, by omega⟩

theorem mem_pushRun {r : Run} {len : ℕ} :
    r ∈ pushRun runs x y len ↔ r ∈ runs ∨ r = ⟨.ofNat x, .ofNat y, .ofNat len⟩ := by
  rw [pushRun, List.mem_append, List.mem_singleton]

/-- A run that stopped at column `x` stopped at an unchanged column, so a new one leaves a gap. -/
theorem Scanned.before (h : Scanned prev next y x runs) (hx : x < next.width)
    (hc : cellChanged prev next y x = true) {q : Run} (hqx : q.x.toNat = x) (hqy : q.y.toNat = y)
    {r : Run} (hr : r ∈ runs) : r.Before q := by
  unfold Run.Before
  rw [hqx, hqy]
  rcases h.reached r hr with hlt | ⟨heq, hle, hmax⟩
  · exact .inl hlt
  · have hne : r.stop ≠ x := fun he => absurd ((hmax he hx).symm.trans hc) Bool.false_ne_true
    exact .inr ⟨heq, by omega⟩

theorem Scanned.run (hw : next.width < 65536) (hh : next.height < 65536) {len : ℕ}
    (hy : y < next.height) (hlen : 0 < len) (hx : x + len ≤ next.width)
    (hall : ∀ i, x ≤ i → i < x + len → cellChanged prev next y i = true)
    (hend : x + len < next.width → cellChanged prev next y (x + len) = false)
    (h : Scanned prev next y x runs) :
    Scanned prev next y (x + len) (pushRun runs x y len) := by
  have hxn : (UInt16.ofNat x).toNat = x := toNat_uInt16 (by omega)
  have hyn : (UInt16.ofNat y).toNat = y := toNat_uInt16 (by omega)
  have hln : (UInt16.ofNat len).toNat = len := toNat_uInt16 (by omega)
  have hstop : Run.stop ⟨.ofNat x, .ofNat y, .ofNat len⟩ = x + len := by
    rw [Run.stop, hxn, hln]
  have hnew : ∀ i j, Run.covers ⟨.ofNat x, .ofNat y, .ofNat len⟩ i j = true ↔
      j = y ∧ x ≤ i ∧ i < x + len := by
    intro i j
    rw [Run.covers_iff, hstop, hxn, hyn, eq_comm]
  constructor
  case inside =>
    intro r hr
    rcases mem_pushRun.mp hr with hr | rfl
    · exact h.inside r hr
    · rw [hstop, hyn, hln]
      exact ⟨hlen, hx, hy⟩
  case apart =>
    refine List.pairwise_append.mpr ⟨h.apart, List.pairwise_singleton _ _, fun r hr q hq => ?_⟩
    rw [List.mem_singleton.mp hq]
    exact h.before (by omega) (hall x (Nat.le_refl x) (by omega)) hxn hyn hr
  case reached =>
    intro r hr
    rcases mem_pushRun.mp hr with hr | rfl
    · rcases h.reached r hr with hlt | ⟨heq, hle, -⟩
      · exact .inl hlt
      · exact .inr ⟨heq, by omega, by omega⟩
    · rw [hstop, hyn]
      exact .inr ⟨rfl, Nat.le_refl _, fun _ => hend⟩
  case covered =>
    intro i j
    rw [← drawn_run hx hall, ← h.covered i j, ← hnew i j]
    constructor
    · rintro ⟨r, hr, hcov⟩
      rcases mem_pushRun.mp hr with hr | rfl
      · exact .inl ⟨r, hr, hcov⟩
      · exact .inr hcov
    · rintro (⟨r, hr, hcov⟩ | hcov)
      · exact ⟨r, mem_pushRun.mpr (.inl hr), hcov⟩
      · exact ⟨_, mem_pushRun.mpr (.inr rfl), hcov⟩

theorem Scanned.row (h : Scanned prev next y next.width runs) :
    Scanned prev next (y + 1) 0 runs := by
  refine ⟨h.inside, h.apart, fun r hr => ?_, fun i j => (h.covered i j).trans drawn_row⟩
  rcases h.reached r hr with hy | ⟨hy, -, -⟩
  · exact .inl (by omega)
  · exact .inl (by omega)

end

section
variable {prev next : Frame}

theorem changedRuns_scanned (h : ¬Resized prev next) :
    Scanned prev.buffer next.buffer next.buffer.height 0 (changedRuns prev next) := by
  unfold Resized at h
  rw [changedRuns, TermRenderer.forEachChangedRun, if_neg h]
  have hstart : Scanned prev.buffer next.buffer 0 0 [] := by
    refine ⟨fun r hr => absurd hr List.not_mem_nil, .nil, fun r hr => absurd hr List.not_mem_nil,
      fun i j => ?_⟩
    unfold Drawn
    constructor
    · rintro ⟨r, hr, -⟩
      exact absurd hr List.not_mem_nil
    · rintro ⟨hpos, -⟩
      omega
  refine foldl_range_induction
    (P := fun y runs => Scanned prev.buffer next.buffer y 0 runs) hstart fun y hy runs hr => ?_
  exact (rowRuns_induction (P := fun x runs => Scanned prev.buffer next.buffer y x runs)
    (fun x runs _ hc hr => hr.skip hc)
    (fun x len runs hlen hx hall hend hr =>
      hr.run next.width_lt next.height_lt hy hlen hx hall hend)
    next.buffer.width 0 runs (Nat.zero_le _) (Nat.le_refl _) hr).row

/-- After the last row the cells covered are the changed ones. -/
theorem changedRuns_covered (h : ¬Resized prev next) {i j : ℕ} (hi : i < next.buffer.width)
    (hj : j < next.buffer.height) : (∃ r ∈ changedRuns prev next, r.covers i j = true) ↔
      prev.buffer.cellAt i j ≠ next.buffer.cellAt i j := by
  rw [(changedRuns_scanned h).covered i j]
  constructor
  · rintro ⟨-, -, hc⟩
    simpa [cellChanged] using hc
  · intro hne
    exact ⟨.inl hj, hi, by simpa [cellChanged] using hne⟩

theorem fullRow_stop (y : ℕ) : Run.stop ⟨0, .ofNat y, next.width⟩ = next.buffer.width := by
  rw [Run.stop, width_toNat]
  exact Nat.zero_add _

theorem changedRuns_rows (h : Resized prev next) :
    (changedRuns prev next).Pairwise Run.Before := by
  rw [changedRuns_resized h, ← List.map_eq_flatMap, List.pairwise_map]
  refine List.pairwise_lt_range.imp_of_mem fun {y z} hy hz hlt => .inl ?_
  have hyn : y < 65536 := Nat.lt_trans (List.mem_range.mp hy) next.height_lt
  have hzn : z < 65536 := Nat.lt_trans (List.mem_range.mp hz) next.height_lt
  rw [toNat_uInt16 hyn, toNat_uInt16 hzn]
  exact hlt

theorem changedRuns_full (h : Resized prev next) {i j : ℕ} (hi : i < next.buffer.width)
    (hj : j < next.buffer.height) : ∃ r ∈ changedRuns prev next, r.covers i j = true := by
  rw [changedRuns_resized h]
  refine ⟨⟨0, .ofNat j, next.width⟩, ?_, ?_⟩
  · exact List.mem_flatMap.mpr ⟨j, List.mem_range.mpr hj, List.mem_cons_self⟩
  · rw [Run.covers_iff, fullRow_stop, toNat_uInt16 (Nat.lt_trans hj next.height_lt)]
    exact ⟨rfl, Nat.zero_le i, hi⟩

/-- What the runs of two frames of one size are. -/
structure ChangedRuns (prev next : Frame) (runs : List Run) : Prop where
  nonempty : ∀ r ∈ runs, 0 < r.len.toNat
  inside : ∀ r ∈ runs, r.stop ≤ next.buffer.width ∧ r.y.toNat < next.buffer.height
  apart : runs.Pairwise Run.Before
  once : ∀ i < next.buffer.width, ∀ j < next.buffer.height, runs.countP (·.covers i j) =
    if prev.buffer.cellAt i j = next.buffer.cellAt i j then 0 else 1

theorem changedRuns_spec (h : ¬Resized prev next) :
    ChangedRuns prev next (changedRuns prev next) := by
  have hs := changedRuns_scanned h
  refine ⟨fun r hr => (hs.inside r hr).1, fun r hr => (hs.inside r hr).2, hs.apart,
    fun i hi j hj => ?_⟩
  have hcov := changedRuns_covered h hi hj
  split
  · next heq =>
    refine List.countP_eq_zero.mpr fun r hr hc => ?_
    exact hcov.mp ⟨r, hr, hc⟩ heq
  · next hne =>
    have hle := countP_covers_le hs.apart i j
    have hpos := List.countP_pos_iff.mpr (hcov.mpr hne)
    omega

/-- A scan that collects the runs, and a scan with any closure, on frames of any `u16` sizes
and contents. -/
theorem changed_runs_exact (prev next : Frame) : ∃ runs : List Run,
    (∀ fuel : ℕ, next.buffer.width < fuel →
      forEachChangedRun fuel prev next (fun runs r => .ok (runs ++ [r])) [] = .ok runs) ∧
    (∀ (σ : Type) (f : σ → Run → Checked σ) (s : σ) (fuel : ℕ), next.buffer.width < fuel →
      forEachChangedRun fuel prev next f s = runs.foldlM f s) ∧
    (¬Resized prev next → ChangedRuns prev next runs) ∧
    (Resized prev next → ∀ i < next.buffer.width, ∀ j < next.buffer.height,
      runs.countP (·.covers i j) = 1) := by
  refine ⟨changedRuns prev next, fun fuel hfuel => ?_, fun σ f s fuel hfuel => ?_,
    changedRuns_spec, fun h i hi j hj => ?_⟩
  · rw [forEachChangedRun_eq _ _ hfuel]
    refine List.foldlM_pure.trans (congrArg Except.ok ?_)
    exact List.foldl_append_eq_append.trans (List.flatMap_singleton' _)
  · exact forEachChangedRun_eq f s hfuel
  · have hle := countP_covers_le (changedRuns_rows h) i j
    have hpos := List.countP_pos_iff.mpr (changedRuns_full h hi hj)
    omega

end

end TuiTetris.TermChangedRuns
