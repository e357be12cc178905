import TuiTetris.LibDecimal
import TuiTetris.LibLayers
import TuiTetris.TermFrameBuffer

set_option autoImplicit false

/-!
# What the drawing operations paint

On a framebuffer of a fixed size each operation paints one layer and leaves the rest
as it was; the layer is clipped where the framebuffer ends.
-/
namespace TuiTetris.TermPainting
open LibLayers TermFrameBuffer FrameBuffer

/-- `f` paints the layer on every framebuffer of this size. -/
def Paints (w h : ℕ) (f : FrameBuffer → FrameBuffer) (layer : Layer Cell) : Prop :=
  ∀ fb : FrameBuffer, fb.width = w → fb.height = h →
    (f fb).width = w ∧ (f fb).height = h ∧
      ∀ i < w, ∀ j < h, (f fb).cellAt i j = (layer i j).getD (fb.cellAt i j)

variable {w h : ℕ} {β : Type}

theorem paints_id : Paints w h (fun fb => fb) .clear := fun _ hw hh =>
  ⟨hw, hh, fun _ _ _ _ => rfl⟩

theorem Paints.comp {f g : FrameBuffer → FrameBuffer} {l m : Layer Cell} (hf : Paints w h f l)
    (hg : Paints w h g m) : Paints w h (fun fb => g (f fb)) (m.atop l) := by
  intro fb hw hh
  obtain ⟨hw', hh', hl⟩ := hf fb hw hh
  obtain ⟨hw'', hh'', hm⟩ := hg (f fb) hw' hh'
  refine ⟨hw'', hh'', fun i hi j hj => ?_⟩
  rw [hm i hi j hj, hl i hi j hj, Layer.atop_apply]
  cases m i j <;> rfl

theorem Paints.congr {f : FrameBuffer → FrameBuffer} {l m : Layer Cell} (hf : Paints w h f l)
    (hlm : ∀ i < w, ∀ j < h, l i j = m i j) : Paints w h f m := by
  intro fb hw hh
  obtain ⟨hw', hh', hl⟩ := hf fb hw hh
  exact ⟨hw', hh', fun i hi j hj => by rw [hl i hi j hj, hlm i hi j hj]⟩

/-- A loop stacks the layers of its turns. -/
theorem Paints.foldl {f : FrameBuffer → β → FrameBuffer} {layer : β → Layer Cell} {bs : List β}
    (hf : ∀ b ∈ bs, Paints w h (fun fb => f fb b) (layer b)) :
    Paints w h (fun fb => bs.foldl f fb) (.stack (bs.map layer)) := by
  induction bs with
  | nil => exact paints_id
  | cons b bs ih =>
    have hrest := ih fun c hc => hf c (List.mem_cons_of_mem b hc)
    exact (hf b List.mem_cons_self).comp hrest

/-- An operation that replaces cells, told by their index. -/
theorem paints_cells {f : FrameBuffer → FrameBuffer} {layer : Layer Cell}
    (hf : ∀ fb : FrameBuffer, fb.width = w → fb.height = h →
      ∃ cells : List.Vector Cell (fb.width * fb.height), f fb = { fb with cells } ∧
        ∀ i j, (hi : i < fb.width) → (hj : j < fb.height) →
          cells.get ⟨j * fb.width + i, idx_lt ⟨hi, hj⟩⟩ =
            (layer i j).getD (fb.cells.get ⟨j * fb.width + i, idx_lt ⟨hi, hj⟩⟩)) :
    Paints w h f layer := by
  intro fb hw hh
  obtain ⟨cells, hcells, hget⟩ := hf fb hw hh
  subst hw
  subst hh
  rw [hcells]
  refine ⟨rfl, rfl, fun i hi j hj => ?_⟩
  rw [cellAt_of_lt fb ⟨hi, hj⟩, cellAt_of_lt { fb with cells } ⟨hi, hj⟩]
  exact hget i j hi hj

/-- Two places with the same index are the same place. -/
theorem index_place {w i j x y : ℕ} (hi : i < w) (hx : x < w) :
    j * w + i = y * w + x ↔ j = y ∧ i = x := by
  constructor
  · intro h
    have hj : (j * w + i) / w = (y * w + x) / w := congrArg (· / w) h
    rw [Nat.mul_comm j w, Nat.mul_comm y w, Nat.mul_add_div (Nat.zero_lt_of_lt hi),
      Nat.mul_add_div (Nat.zero_lt_of_lt hi), Nat.div_eq_of_lt hi, Nat.div_eq_of_lt hx] at hj
    have hj' : j = y := by omega
    subst hj'
    exact ⟨rfl, by omega⟩
  · rintro ⟨rfl, rfl⟩
    rfl

/-- A place lies in a stretch of one row exactly if its index does. -/
theorem index_stretch {w i j x y stop : ℕ} (hi : i < w) (hs : stop ≤ w) :
    (y * w + x ≤ j * w + i ∧ j * w + i < y * w + stop) ↔ j = y ∧ x ≤ i ∧ i < stop := by
  constructor
  · rintro ⟨hl, hu⟩
    have hj : j = y := by
      rcases Nat.lt_trichotomy j y with hlt | heq | hgt
      · have hmul : (j + 1) * w ≤ y * w := Nat.mul_le_mul_right w hlt
        rw [Nat.add_mul, Nat.one_mul] at hmul
        omega
      · exact heq
      · have hmul : (y + 1) * w ≤ j * w := Nat.mul_le_mul_right w hgt
        rw [Nat.add_mul, Nat.one_mul] at hmul
        omega
    subst hj
    exact ⟨rfl, by omega, by omega⟩
  · rintro ⟨rfl, hl, hu⟩
    exact ⟨by omega, by omega⟩

theorem paints_putChar (x y : ℕ) (ch : Char) (style : CellStyle) :
    Paints w h (fun fb => fb.putChar x y ch style) (.rect x y 1 1 ⟨ch, style⟩) := by
  apply paints_cells
  intro fb _ _
  unfold FrameBuffer.putChar FrameBuffer.set idx
  by_cases hin : x < fb.width ∧ y < fb.height
  · rw [dif_pos hin]
    refine ⟨_, rfl, fun i j hi hj => ?_⟩
    by_cases he : j * fb.width + i = y * fb.width + x
    · obtain ⟨rfl, rfl⟩ := (index_place hi hin.1).mp he
      rw [Layer.rect_inside ⟨Nat.le_refl _, by omega⟩ ⟨Nat.le_refl _, by omega⟩]
      exact List.Vector.get_set_same _ _ _
    · have hne : (⟨y * fb.width + x, idx_lt hin⟩ : Fin (fb.width * fb.height)) ≠
          ⟨j * fb.width + i, idx_lt ⟨hi, hj⟩⟩ := fun h => he (congrArg Fin.val h).symm
      rw [Layer.rect_outside fun ho => he ((index_place hi hin.1).mpr ⟨by omega, by omega⟩)]
      exact List.Vector.get_set_of_ne hne _
  · rw [dif_neg hin]
    refine ⟨fb.cells, rfl, fun i j hi hj => ?_⟩
    rw [Layer.rect_outside fun ho => hin ⟨by omega, by omega⟩]
    rfl

theorem paints_putStr (x y : ℕ) (s : List Char) (style : CellStyle) :
    Paints w h (fun fb => fb.putStr x y s style) (.text x y (s.map fun ch => ⟨ch, style⟩)) := by
  apply paints_cells
  intro fb _ _
  unfold FrameBuffer.putStr idx
  by_cases hin : x < fb.width ∧ y < fb.height
  · rw [dif_pos hin]
    refine ⟨_, rfl, fun i j hi hj => ?_⟩
    have hstretch := index_stretch (x := x) (y := y) (j := j) hi (Nat.le_refl fb.width)
    have hstop : y * fb.width + x + (fb.width - x) = y * fb.width + fb.width := by omega
    unfold zipCells Layer.text
    rw [List.Vector.get_ofFn, hstop]
    by_cases hat : j = y ∧ x ≤ i
    · rw [if_pos (hstretch.mpr ⟨hat.1, hat.2, hi⟩), if_pos hat]
      have hoff : j * fb.width + i - (y * fb.width + x) = i - x := by
        rw [hat.1]
        omega
      simp only [hoff]
    · rw [if_neg fun hs => hat ⟨(hstretch.mp hs).1, (hstretch.mp hs).2.1⟩, if_neg hat]
      rfl
  · rw [dif_neg hin]
    refine ⟨fb.cells, rfl, fun i j hi hj => ?_⟩
    have hout : Layer.text x y (s.map fun ch => (⟨ch, style⟩ : Cell)) i j = none :=
      if_neg fun ho => hin ⟨by omega, by omega⟩
    rw [hout]
    rfl

theorem paints_fillRow {x stop : ℕ} (cell : Cell) (row : ℕ) (hs : stop ≤ w) :
    Paints w h (fun fb => fillRow x stop cell fb row) (.rect x row (stop - x) 1 cell) := by
  apply paints_cells
  intro fb hw _
  refine ⟨_, rfl, fun i j hi hj => ?_⟩
  have hstop : stop ≤ fb.width := hw ▸ hs
  have hstretch := index_stretch (x := x) (y := row) (j := j) hi hstop
  unfold fillCells
  rw [List.Vector.get_ofFn]
  by_cases hat : j = row ∧ x ≤ i ∧ i < stop
  · rw [if_pos (hstretch.mpr hat), Layer.rect_inside ⟨by omega, by omega⟩ ⟨by omega, by omega⟩]
    rfl
  · rw [if_neg fun hs => hat (hstretch.mp hs), Layer.rect_outside fun ho => hat ⟨by omega, by omega, by omega⟩]
    rfl

theorem paints_fillRect (hw : w < 65536) (hh : h < 65536) (x y rw rh : ℕ) (ch : Char)
    (style : CellStyle) :
    Paints w h (fun fb => fb.fillRect x y rw rh ch style) (.rect x y rw rh ⟨ch, style⟩) := by
  intro fb hfw hfh
  have hx : min (satAdd16 x rw) fb.width = min (min (x + rw) 65535) w := by rw [hfw]; rfl
  have hy : min (satAdd16 y rh) fb.height = min (min (y + rh) 65535) h := by rw [hfh]; rfl
  unfold FrameBuffer.fillRect
  simp only [hx, hy]
  split
  · next hempty =>
    refine ⟨hfw, hfh, fun i hi j hj => ?_⟩
    rw [Layer.rect_outside fun ho => by omega]
    rfl
  · next hsome =>
    have hstop : min (min (x + rw) 65535) w ≤ w := Nat.min_le_right _ _
    have hrows := Paints.foldl (w := w) (h := h)
      fun row (_ : row ∈ List.range' y (min (min (y + rh) 65535) h - y)) =>
        paints_fillRow (x := x) ⟨ch, style⟩ row hstop
    refine hrows.congr (fun i hi j hj => ?_) fb hfw hfh
    by_cases hin : x ≤ i ∧ i < x + rw ∧ y ≤ j ∧ j < y + rh
    · rw [Layer.rect_inside ⟨hin.1, hin.2.1⟩ hin.2.2]
      have hrow : j ∈ List.range' y (min (min (y + rh) 65535) h - y) :=
        List.mem_range'_1.mpr ⟨by omega, by omega⟩
      refine Layer.stack_some (List.mem_map_of_mem hrow)
        (Layer.rect_inside ⟨hin.1, by omega⟩ ⟨Nat.le_refl j, Nat.lt_succ_self j⟩) fun m hm => ?_
      obtain ⟨row, -, rfl⟩ := List.mem_map.mp hm
      unfold Layer.rect
      split <;> simp
    · rw [Layer.rect_outside hin]
      refine Layer.stack_eq_none.mpr fun m hm => ?_
      obtain ⟨row, hrow, rfl⟩ := List.mem_map.mp hm
      have hr := List.mem_range'_1.mp hrow
      exact Layer.rect_outside fun ho => hin ⟨by omega, by omega, by omega, by omega⟩

theorem paints_clear (cell : Cell) : Paints w h (fun fb => fb.clear cell) (fun _ _ => some cell) := by
  apply paints_cells
  intro fb _ _
  refine ⟨_, rfl, fun i j hi hj => ?_⟩
  exact List.Vector.get_replicate _ _

/-- The loop writes the decimal digits in front of what is in the buffer. -/
theorem digitLoop_decimal {fuel : ℕ} {v : UInt32} (hv : v ≠ 0) (hf : v.toNat < 10 ^ fuel)
    (buf : List Char) : digitLoop fuel v buf = LibDecimal.decimal v.toNat ++ buf := by
  have h10 : (10 : UInt32).toNat = 10 := rfl
  induction fuel generalizing v buf with
  | zero =>
    have h0 : v.toNat = 0 := by omega
    exact absurd (UInt32.toNat_inj.mp h0) hv
  | succ fuel ih =>
    have hdiv : (v / 10).toNat = v.toNat / 10 := by rw [UInt32.toNat_div, h10]
    have hmod : (v % 10).toNat = v.toNat % 10 := by rw [UInt32.toNat_mod, h10]
    have hdigit : ∀ d < 10, Char.ofNat ('0'.toNat + d) = Nat.digitChar d := by decide
    have hchar := hdigit (v.toNat % 10) (Nat.mod_lt _ (by decide))
    rw [digitLoop, if_neg hv, hmod, hchar]
    unfold LibDecimal.decimal
    by_cases hlt : v.toNat < 10
    · have hz : v / 10 = 0 := by
        apply UInt32.toNat_inj.mp
        rw [hdiv, Nat.div_eq_of_lt hlt]
        rfl
      rw [Nat.toDigits_of_lt_base hlt, Nat.mod_eq_of_lt hlt, hz]
      cases fuel <;> rfl
    · have hnz : v / 10 ≠ 0 := by
        intro hz
        have h0 : (v / 10).toNat = 0 := by rw [hz]; rfl
        omega
      have hrest := ih hnz (by rw [hdiv, Nat.div_lt_iff_lt_mul (by decide)]; exact hf)
        (Nat.digitChar (v.toNat % 10) :: buf)
      rw [hrest, hdiv, Nat.toDigits_of_base_le (by decide) (Nat.not_lt.mp hlt), List.append_assoc]
      rfl

/-- A number is painted as the text of its decimal digits. -/
theorem putU32_decimal (fb : FrameBuffer) (x y : ℕ) (v : UInt32) (style : CellStyle) :
    fb.putU32 x y v style = fb.putStr x y (LibDecimal.decimal v.toNat) style := by
  unfold FrameBuffer.putU32
  by_cases hv : v = 0
  · subst hv
    rfl
  · have hlt : v.toNat < 10 ^ 10 := Nat.lt_trans v.toNat_lt (by decide)
    rw [if_neg hv, digitLoop_decimal hv hlt, List.append_nil]

theorem paints_putU32 (x y : ℕ) (v : UInt32) (style : CellStyle) :
    Paints w h (fun fb => fb.putU32 x y v style)
      (.text x y ((LibDecimal.decimal v.toNat).map fun ch => ⟨ch, style⟩)) := by
  have hfun : (fun fb : FrameBuffer => fb.putU32 x y v style) =
      fun fb => fb.putStr x y (LibDecimal.decimal v.toNat) style :=
    funext fun fb => putU32_decimal fb x y v style
  rw [hfun]
  exact paints_putStr x y _ style

end TuiTetris.TermPainting
