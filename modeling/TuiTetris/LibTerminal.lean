import Mathlib.Data.List.Basic

set_option autoImplicit false

/-!
# A character terminal

Commands move a cursor, set the pen and write glyphs into a grid, with line wrap
off. A glyph is written with the pen that is current when it is printed.
-/
namespace TuiTetris.LibTerminal

inductive Colour where
  | standard
  | rgb (r g b : UInt8)
  deriving DecidableEq, Repr

structure Pen where
  foreground : Colour
  background : Colour
  bold : Bool
  dim : Bool
  deriving DecidableEq, Repr

/-- The pen after SGR 0. -/
def Pen.plain : Pen := ⟨.standard, .standard, false, false⟩

structure Glyph where
  ch : Char
  pen : Pen
  deriving DecidableEq, Repr

def Glyph.blank : Glyph := ⟨' ', .plain⟩

/-- `grid column row` is what the screen shows there. -/
structure Terminal where
  width : ℕ
  height : ℕ
  grid : ℕ → ℕ → Glyph
  column : ℕ
  row : ℕ
  pen : Pen

inductive Command where
  | clearAll
  | moveTo (column row : ℕ)
  | print (ch : Char)
  | newline
  | setForeground (colour : Colour)
  | setBackground (colour : Colour)
  | resetColor
  | attributeReset
  | attributeBold
  | attributeDim
  deriving DecidableEq, Repr

namespace Terminal

def paint (grid : ℕ → ℕ → Glyph) (column row : ℕ) (glyph : Glyph) : ℕ → ℕ → Glyph :=
  fun x y => if x = column ∧ y = row then glyph else grid x y

def scroll (height : ℕ) (grid : ℕ → ℕ → Glyph) : ℕ → ℕ → Glyph :=
  fun x y => if y + 1 < height then grid x (y + 1) else .blank

def step (t : Terminal) : Command → Terminal
  | .clearAll => { t with grid := fun _ _ => .blank }
  | .moveTo x y => { t with column := min x (t.width - 1), row := min y (t.height - 1) }
  -- at the last column the cursor stays where it is
  | .print ch =>
    { t with
      grid := paint t.grid t.column t.row ⟨ch, t.pen⟩
      column := min (t.column + 1) (t.width - 1) }
  | .newline =>
    if t.row + 1 < t.height then { t with column := 0, row := t.row + 1 }
    else { t with column := 0, grid := scroll t.height t.grid }
  | .setForeground c => { t with pen := { t.pen with foreground := c } }
  | .setBackground c => { t with pen := { t.pen with background := c } }
  | .resetColor => { t with pen := { t.pen with foreground := .standard, background := .standard } }
  | .attributeReset => { t with pen := .plain }
  | .attributeBold => { t with pen := { t.pen with bold := true } }
  | .attributeDim => { t with pen := { t.pen with dim := true } }

def exec (t : Terminal) (commands : List Command) : Terminal := commands.foldl step t

@[simp] theorem exec_nil (t : Terminal) : t.exec [] = t := rfl

@[simp] theorem exec_cons (t : Terminal) (c : Command) (cs : List Command) :
    t.exec (c :: cs) = (t.step c).exec cs := rfl

@[simp] theorem exec_append (t : Terminal) (cs ds : List Command) :
    t.exec (cs ++ ds) = (t.exec cs).exec ds := List.foldl_append

theorem step_size (t : Terminal) (c : Command) :
    (t.step c).width = t.width ∧ (t.step c).height = t.height := by
  cases c with
  | newline =>
    simp only [step]
    split <;> exact ⟨rfl, rfl⟩
  | _ => exact ⟨rfl, rfl⟩

theorem exec_size (t : Terminal) (cs : List Command) :
    (t.exec cs).width = t.width ∧ (t.exec cs).height = t.height := by
  induction cs generalizing t with
  | nil => exact ⟨rfl, rfl⟩
  | cons c cs ih =>
    have hs := step_size t c
    have hr := ih (t.step c)
    exact ⟨hr.1.trans hs.1, hr.2.trans hs.2⟩

theorem step_newline (t : Terminal) (h : t.row + 1 < t.height) :
    t.step .newline = { t with column := 0, row := t.row + 1 } := if_pos h

theorem paint_same (grid : ℕ → ℕ → Glyph) (column row : ℕ) (glyph : Glyph) :
    paint grid column row glyph column row = glyph := if_pos ⟨rfl, rfl⟩

theorem paint_other (grid : ℕ → ℕ → Glyph) {column row x y : ℕ} (glyph : Glyph)
    (h : ¬(x = column ∧ y = row)) : paint grid column row glyph x y = grid x y := if_neg h

end Terminal
end TuiTetris.LibTerminal
