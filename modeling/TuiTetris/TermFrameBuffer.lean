import Mathlib.Data.Vector.Basic

set_option autoImplicit false

/-!
# Framebuffers of styled character cells

The cells are a vector of length `width * height`, so an index that passes `idx`
is inside it.
-/
namespace TuiTetris.TermFrameBuffer

structure Rgb where
  r : UInt8
  g : UInt8
  b : UInt8
  deriving DecidableEq, Repr

structure CellStyle where
  fg : Rgb
  bg : Rgb
  bold : Bool
  dim : Bool
  deriving DecidableEq, Repr

def CellStyle.default : CellStyle := ⟨⟨220, 220, 220⟩, ⟨0, 0, 0⟩, false, false⟩

structure Cell where
  ch : Char
  style : CellStyle
  deriving DecidableEq, Repr

def Cell.default : Cell := ⟨' ', .default⟩

structure FrameBuffer where
  width : ℕ
  height : ℕ
  cells : List.Vector Cell (width * height)
  deriving DecidableEq

namespace FrameBuffer

def new (width height : ℕ) : FrameBuffer := ⟨width, height, .replicate (width * height) .default⟩

theorem idx_lt {width height x y : ℕ} (h : x < width ∧ y < height) :
    y * width + x < width * height := by
  have hy : (y + 1) * width ≤ height * width := Nat.mul_le_mul_right width h.2
  rw [Nat.add_mul, Nat.one_mul, Nat.mul_comm height width] at hy
  omega

/-- Cells beyond the old ones are default cells; rows are not moved. -/
def resize (fb : FrameBuffer) (width height : ℕ) : FrameBuffer :=
  if fb.width = width ∧ fb.height = height then fb
  else
    { width, height
      cells := ⟨(fb.cells.toList ++ List.replicate (width * height) Cell.default).take (width * height), by
        rw [List.length_take, List.length_append, List.length_replicate]
        exact Nat.min_eq_left (Nat.le_add_left _ _)⟩ }

theorem resize_size (fb : FrameBuffer) (width height : ℕ) :
    (fb.resize width height).width = width ∧ (fb.resize width height).height = height := by
  unfold resize
  split
  · next h => exact h
  · exact ⟨rfl, rfl⟩

def idx (fb : FrameBuffer) (x y : ℕ) : Option (Fin (fb.width * fb.height)) :=
  if h : x < fb.width ∧ y < fb.height then some ⟨y * fb.width + x, idx_lt h⟩ else none

def get (fb : FrameBuffer) (x y : ℕ) : Option Cell := (fb.idx x y).map fb.cells.get

def set (fb : FrameBuffer) (x y : ℕ) (cell : Cell) : FrameBuffer :=
  match fb.idx x y with
  | some i => { fb with cells := fb.cells.set i cell }
  | none => fb

def putChar (fb : FrameBuffer) (x y : ℕ) (ch : Char) (style : CellStyle) : FrameBuffer :=
  fb.set x y ⟨ch, style⟩

/-- `get(x, y).unwrap_or_default()`. -/
def cellAt (fb : FrameBuffer) (x y : ℕ) : Cell := (fb.get x y).getD .default

/-- `saturating_add` on `u16`. -/
def satAdd16 (a b : ℕ) : ℕ := min (a + b) 65535

def clear (fb : FrameBuffer) (cell : Cell) : FrameBuffer :=
  { fb with cells := .replicate (fb.width * fb.height) cell }

/-- `cells[start..].iter_mut().zip(…)`, for at most `available` cells. -/
def zipCells {n : ℕ} (cells : List.Vector Cell n) (start available : ℕ) (new : List Cell) :
    List.Vector Cell n :=
  .ofFn fun i =>
    if start ≤ i.val ∧ i.val < start + available then (new[i.val - start]?).getD (cells.get i)
    else cells.get i

def putStr (fb : FrameBuffer) (x y : ℕ) (s : List Char) (style : CellStyle) : FrameBuffer :=
  match fb.idx x y with
  | none => fb
  | some start => { fb with cells := zipCells fb.cells start (fb.width - x) (s.map fun ch => ⟨ch, style⟩) }

/-- The digits that are written from the end of the buffer towards its front. -/
def digitLoop : ℕ → UInt32 → List Char → List Char
  | 0, _, buf => buf
  | fuel + 1, v, buf =>
    if v = 0 then buf else digitLoop fuel (v / 10) (Char.ofNat ('0'.toNat + (v % 10).toNat) :: buf)

/-- The buffer has room for ten digits. -/
def putU32 (fb : FrameBuffer) (x y : ℕ) (v : UInt32) (style : CellStyle) : FrameBuffer :=
  fb.putStr x y (if v = 0 then ['0'] else digitLoop 10 v []) style

/-- `cells[start..end].fill(cell)`. -/
def fillCells {n : ℕ} (cells : List.Vector Cell n) (start stop : ℕ) (cell : Cell) :
    List.Vector Cell n :=
  .ofFn fun i => if start ≤ i.val ∧ i.val < stop then cell else cells.get i

def fillRow (x stop : ℕ) (cell : Cell) (fb : FrameBuffer) (row : ℕ) : FrameBuffer :=
  { fb with cells := fillCells fb.cells (row * fb.width + x) (row * fb.width + stop) cell }

def fillRect (fb : FrameBuffer) (x y w h : ℕ) (ch : Char) (style : CellStyle) : FrameBuffer :=
  let endX := min (satAdd16 x w) fb.width
  let endY := min (satAdd16 y h) fb.height
  if x ≥ endX ∨ y ≥ endY then fb
  else (List.range' y (endY - y)).foldl (fillRow x endX ⟨ch, style⟩) fb

theorem cellAt_of_lt (fb : FrameBuffer) {x y : ℕ} (h : x < fb.width ∧ y < fb.height) :
    fb.cellAt x y = fb.cells.get ⟨y * fb.width + x, idx_lt h⟩ := by
  simp only [cellAt, get, idx, dif_pos h, Option.map_some, Option.getD_some]

theorem get_cellAt (fb : FrameBuffer) {x y : ℕ} (h : x < fb.width ∧ y < fb.height) :
    fb.get x y = some (fb.cellAt x y) := by
  rw [cellAt_of_lt fb h, get, idx, dif_pos h, Option.map_some]

theorem ext_cellAt {a b : FrameBuffer} (hw : a.width = b.width) (hh : a.height = b.height)
    (h : ∀ y < a.height, ∀ x < a.width, a.cellAt x y = b.cellAt x y) : a = b := by
  obtain ⟨w, k, as⟩ := a
  obtain ⟨w', k', bs⟩ := b
  cases hw
  cases hh
  have hcells : as = bs := by
    refine List.Vector.ext fun i => ?_
    have hpos : 0 < w := Nat.pos_of_mul_pos_right (Nat.zero_lt_of_lt i.2)
    have hy : i.1 / w < k := Nat.div_lt_of_lt_mul i.2
    have hx : i.1 % w < w := Nat.mod_lt _ hpos
    have hi : i = ⟨i.1 / w * w + i.1 % w, idx_lt ⟨hx, hy⟩⟩ :=
      Fin.ext (Nat.div_add_mod' i.1 w).symm
    have hc := h (i.1 / w) hy (i.1 % w) hx
    rw [cellAt_of_lt _ ⟨hx, hy⟩, cellAt_of_lt _ ⟨hx, hy⟩] at hc
    rw [hi]
    exact hc
  rw [hcells]

end FrameBuffer
end TuiTetris.TermFrameBuffer
