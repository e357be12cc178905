import TuiTetris.TermRenderer

set_option autoImplicit false

/-!
# What the encodings leave on the screen

A terminal shows a framebuffer when every cell has its character, colours and
attributes. SGR 0 comes after the colours of a style are set, so a cell is drawn
with its character and attributes in the standard colours.
-/
namespace TuiTetris.TermRendererScreen
open LibTerminal TermFrameBuffer TermRenderer

/-- The glyph a cell asks for. -/
def cellGlyph (cell : Cell) : Glyph :=
  ⟨cell.ch, ⟨rgbToColor cell.style.fg, rgbToColor cell.style.bg, cell.style.bold, cell.style.dim⟩⟩

def Fits (t : Terminal) (fb : FrameBuffer) : Prop := t.width = fb.width ∧ t.height = fb.height

def Shows (t : Terminal) (fb : FrameBuffer) : Prop :=
  ∀ y < fb.height, ∀ x < fb.width, t.grid x y = cellGlyph (fb.cellAt x y)

instance (t : Terminal) (fb : FrameBuffer) : Decidable (Fits t fb) :=
  inferInstanceAs (Decidable (_ ∧ _))

instance (t : Terminal) (fb : FrameBuffer) : Decidable (Shows t fb) :=
  inferInstanceAs (Decidable (∀ y < fb.height, ∀ x < fb.width, _))

def showing (fb : FrameBuffer) : Terminal where
  width := fb.width
  height := fb.height
  grid := fun x y => cellGlyph (fb.cellAt x y)
  column := 0
  row := 0
  pen := .plain

/-- The pen that `apply_style_into` leaves. -/
def stylePen (style : CellStyle) : Pen := ⟨.standard, .standard, style.bold, style.dim⟩

def drawnGlyph (cell : Cell) : Glyph := ⟨cell.ch, stylePen cell.style⟩

theorem drawnGlyph_ne (cell : Cell) : drawnGlyph cell ≠ cellGlyph cell := by
  intro h
  have hf : Colour.standard = rgbToColor cell.style.fg := congrArg (fun g => g.pen.foreground) h
  cases hf

theorem exec_applyStyleInto (t : Terminal) (out : List Command) (style : CellStyle) :
    t.exec (applyStyleInto out style) = { t.exec out with pen := stylePen style } := by
  unfold applyStyleInto
  cases hb : style.bold <;> cases hd : style.dim <;>
    simp [Terminal.step, stylePen, Pen.plain, hb, hd]

/-- Execution of `e` on `t` has drawn the cells in `done` over the grid `base`, and
the pen fits the cached style. -/
structure Painted (t : Terminal) (fb : FrameBuffer) (base : ℕ → ℕ → Glyph)
    (done : ℕ → ℕ → Prop) (e : Encoder) : Prop where
  pen : ∀ style, e.currentStyle = some style → (t.exec e.out).pen = stylePen style
  inside : ∀ i j, done i j → (t.exec e.out).grid i j = drawnGlyph (fb.cellAt i j)
  outside : ∀ i j, ¬done i j → (t.exec e.out).grid i j = base i j

section
variable {t : Terminal} {fb : FrameBuffer} {base : ℕ → ℕ → Glyph} {done done' : ℕ → ℕ → Prop}
  {e : Encoder}

theorem Painted.congr (h : Painted t fb base done e) (hd : ∀ i j, done i j ↔ done' i j) :
    Painted t fb base done' e :=
  ⟨h.pen, fun i j hi => h.inside i j ((hd i j).mpr hi),
    fun i j hi => h.outside i j (fun hn => hi ((hd i j).mp hn))⟩

theorem Painted.queue (h : Painted t fb base done e) {c : Command}
    (hp : ((t.exec e.out).step c).pen = (t.exec e.out).pen)
    (hg : ((t.exec e.out).step c).grid = (t.exec e.out).grid) :
    Painted t fb base done (e.queue c) := by
  have he : t.exec (e.queue c).out = (t.exec e.out).step c := by
    simp only [Encoder.queue, Terminal.exec_append, Terminal.exec_cons, Terminal.exec_nil]
  refine ⟨fun style hs => ?_, fun i j hi => ?_, fun i j hi => ?_⟩
  · rw [he, hp]
    exact h.pen style hs
  · rw [he, hg]
    exact h.inside i j hi
  · rw [he, hg]
    exact h.outside i j hi

/-- The style is set exactly when it is not the cached one, so the pen fits the cell. -/
theorem exec_encodeCell
    (h : ∀ style, e.currentStyle = some style → (t.exec e.out).pen = stylePen style) (cell : Cell) :
    (encodeCell e cell).currentStyle = some cell.style ∧
      t.exec (encodeCell e cell).out =
        { t.exec e.out with pen := stylePen cell.style }.step (.print cell.ch) := by
  unfold encodeCell
  by_cases hs : e.currentStyle = some cell.style
  · rw [if_neg (not_not_intro hs)]
    refine ⟨hs, ?_⟩
    rw [← h cell.style hs]
    simp only [Encoder.queue, Terminal.exec_append, Terminal.exec_cons, Terminal.exec_nil]
  · rw [if_pos hs]
    refine ⟨rfl, ?_⟩
    simp only [Encoder.queue, Terminal.exec_append, Terminal.exec_cons, Terminal.exec_nil,
      exec_applyStyleInto]

theorem Painted.cell (h : Painted t fb base done e) :
    Painted t fb base
        (fun i j => done i j ∨ (i = (t.exec e.out).column ∧ j = (t.exec e.out).row))
        (encodeCell e (fb.cellAt (t.exec e.out).column (t.exec e.out).row)) ∧
      (t.exec (encodeCell e (fb.cellAt (t.exec e.out).column (t.exec e.out).row)).out).row =
        (t.exec e.out).row ∧
      (t.exec (encodeCell e (fb.cellAt (t.exec e.out).column (t.exec e.out).row)).out).column =
        min ((t.exec e.out).column + 1) (t.width - 1) := by
  obtain ⟨hstyle, hexec⟩ := exec_encodeCell h.pen (fb.cellAt (t.exec e.out).column (t.exec e.out).row)
  refine ⟨⟨fun style hs => ?_, fun i j hi => ?_, fun i j hi => ?_⟩, ?_, ?_⟩
  · rw [hexec]
    rw [hstyle] at hs
    cases hs
    rfl
  · rw [hexec]
    by_cases hij : i = (t.exec e.out).column ∧ j = (t.exec e.out).row
    · obtain ⟨rfl, rfl⟩ := hij
      exact Terminal.paint_same _ _ _ _
    · exact (Terminal.paint_other _ _ hij).trans (h.inside i j (hi.resolve_right hij))
  · rw [hexec]
    rw [not_or] at hi
    exact (Terminal.paint_other _ _ hi.2).trans (h.outside i j hi.1)
  · rw [hexec]
    rfl
  · rw [hexec]
    change min _ ((t.exec e.out).width - 1) = _
    rw [(Terminal.exec_size t e.out).1]

theorem Painted.cells (h : Painted t fb base done e) {x y : ℕ} (hr : (t.exec e.out).row = y)
    (hc : x < t.width → (t.exec e.out).column = x) (len : ℕ) (hlen : x + len ≤ t.width) :
    Painted t fb base (fun i j => done i j ∨ (j = y ∧ x ≤ i ∧ i < x + len))
        (encodeCells fb x y len e) ∧
      (t.exec (encodeCells fb x y len e).out).row = y ∧
      (x + len < t.width → (t.exec (encodeCells fb x y len e).out).column = x + len) := by
  induction len with
  | zero =>
    refine ⟨h.congr fun i j => ?_, hr, hc⟩
    constructor
    · exact Or.inl
    · rintro (hd | ⟨-, hge, hlt⟩)
      · exact hd
      · omega
  | succ len ih =>
    obtain ⟨hp, hrow, hcol⟩ := ih (by omega)
    have hstep : encodeCells fb x y (len + 1) e =
        encodeCell (encodeCells fb x y len e) (fb.cellAt (x + len) y) := by
      simp only [encodeCells, List.range_succ, List.foldl_append, List.foldl_cons, List.foldl_nil]
    have hcell := hp.cell
    rw [hcol (by omega), hrow, ← hstep] at hcell
    obtain ⟨hp', hrow', hcol'⟩ := hcell
    refine ⟨hp'.congr fun i j => ?_, hrow', fun hlt => ?_⟩
    · constructor
      · rintro ((hd | hd) | hd)
        · exact .inl hd
        · exact .inr ⟨hd.1, hd.2.1, by omega⟩
        · exact .inr ⟨hd.2, by omega, by omega⟩
      · rintro (hd | hd)
        · exact .inl (.inl hd)
        · by_cases hi : i = x + len
          · exact .inr ⟨hi, hd.1⟩
          · exact .inl (.inr ⟨hd.1, hd.2.1, by omega⟩)
    · rw [hcol']
      omega

end

theorem exec_reset_grid (t : Terminal) (out : List Command) :
    (t.exec (out ++ [.resetColor, .attributeReset])).grid = (t.exec out).grid := by
  rw [Terminal.exec_append]
  rfl

/-! ## The diff -/

section
variable {prev next : FrameBuffer} {t : Terminal}

/-- The changed cells of the rows above `y`, and those of row `y` left of `x`. -/
def Drawn (prev next : FrameBuffer) (y x i j : ℕ) : Prop :=
  (j < y ∨ (j = y ∧ i < x)) ∧ i < next.width ∧ cellChanged prev next j i = true

theorem drawn_skip {y x i j : ℕ} (hc : cellChanged prev next y x = false) :
    Drawn prev next y x i j ↔ Drawn prev next y (x + 1) i j := by
  unfold Drawn
  constructor
  · rintro ⟨hpos, hrest⟩
    exact ⟨by omega, hrest⟩
  · rintro ⟨hpos, hrest⟩
    refine ⟨?_, hrest⟩
    rcases hpos with hj | ⟨rfl, hi⟩
    · exact .inl hj
    · rcases Nat.lt_succ_iff_lt_or_eq.mp hi with hi | rfl
      · exact .inr ⟨rfl, hi⟩
      · exact absurd (hc.symm.trans hrest.2) Bool.false_ne_true

theorem drawn_run {y x len i j : ℕ} (hx : x + len ≤ next.width)
    (hall : ∀ i, x ≤ i → i < x + len → cellChanged prev next y i = true) :
    (Drawn prev next y x i j ∨ (j = y ∧ x ≤ i ∧ i < x + len)) ↔
      Drawn prev next y (x + len) i j := by
  unfold Drawn
  constructor
  · rintro (⟨hpos, hrest⟩ | ⟨rfl, hge, hlt⟩)
    · exact ⟨by omega, hrest⟩
    · exact ⟨.inr ⟨rfl, hlt⟩, by omega, hall i hge hlt⟩
  · rintro ⟨hpos, hrest⟩
    by_cases hold : j < y ∨ (j = y ∧ i < x)
    · exact .inl ⟨hold, hrest⟩
    · exact .inr (by omega)

theorem drawn_row {y i j : ℕ} : Drawn prev next y next.width i j ↔ Drawn prev next (y + 1) 0 i j := by
  unfold Drawn
  constructor
  · rintro ⟨hpos, hrest⟩
    exact ⟨by omega, hrest⟩
  · rintro ⟨hpos, hrest⟩
    exact ⟨by omega, hrest⟩

theorem encodeRun_painted (ht : Fits t next) {x y len : ℕ} {e : Encoder} (hy : y < next.height)
    (hlen : 0 < len) (hx : x + len ≤ next.width)
    (hall : ∀ i, x ≤ i → i < x + len → cellChanged prev next y i = true)
    (h : Painted t next t.grid (Drawn prev next y x) e) :
    Painted t next t.grid (Drawn prev next y (x + len)) (encodeRun next e x y len) := by
  obtain ⟨hw, hh⟩ := ht
  obtain ⟨hew, heh⟩ := Terminal.exec_size t e.out
  have hq : Painted t next t.grid (Drawn prev next y x) (e.queue (.moveTo x y)) := h.queue rfl rfl
  have hexec : t.exec (e.queue (.moveTo x y)).out = (t.exec e.out).step (.moveTo x y) := by
    simp only [Encoder.queue, Terminal.exec_append, Terminal.exec_cons, Terminal.exec_nil]
  have hrow : (t.exec (e.queue (.moveTo x y)).out).row = y := by
    rw [hexec]
    change min y ((t.exec e.out).height - 1) = y
    omega
  have hcol : (t.exec (e.queue (.moveTo x y)).out).column = x := by
    rw [hexec]
    change min x ((t.exec e.out).width - 1) = x
    omega
  exact (hq.cells hrow (fun _ => hcol) len (by omega)).1.congr fun i j => drawn_run hx hall

theorem encodeRow_painted (ht : Fits t next) {y : ℕ} {e : Encoder} (hy : y < next.height)
    (h : Painted t next t.grid (Drawn prev next y 0) e) :
    Painted t next t.grid (Drawn prev next (y + 1) 0)
      (rowRuns (cellChanged prev next y) next.width (fun s x len => encodeRun next s x y len)
        next.width 0 e) := by
  have hrow := rowRuns_induction
    (P := fun x e => Painted t next t.grid (Drawn prev next y x) e)
    (fun x e hx hc he => he.congr fun i j => drawn_skip hc)
    (fun x len e hlen hx hall _ he => encodeRun_painted ht hy hlen hx hall he)
    next.width 0 e (Nat.zero_le _) (Nat.le_refl _) h
  exact hrow.congr fun i j => drawn_row

/-- The diff draws the changed cells and leaves the others. -/
theorem exec_encodeDiffInto (hs : prev.width = next.width ∧ prev.height = next.height)
    (ht : Fits t next) {i j : ℕ} (hi : i < next.width) (hj : j < next.height) :
    (t.exec (encodeDiffInto prev next [])).grid i j =
      if prev.cellAt i j = next.cellAt i j then t.grid i j else drawnGlyph (next.cellAt i j) := by
  have hsame : ¬(prev.width ≠ next.width ∨ prev.height ≠ next.height) := by
    rw [not_or]
    exact ⟨not_not_intro hs.1, not_not_intro hs.2⟩
  have hstart : Painted t next t.grid (Drawn prev next 0 0) { out := [], currentStyle := none } := by
    refine ⟨fun style h => (nomatch h), fun i j h => ?_, fun i j _ => rfl⟩
    obtain ⟨hpos, -⟩ := h
    omega
  have hall := foldl_range_induction
    (P := fun y e => Painted t next t.grid (Drawn prev next y 0) e) hstart
    (fun y hy e he => encodeRow_painted ht hy he)
  have hgrid : (t.exec (encodeDiffInto prev next [])).grid =
      (t.exec (forEachChangedRun prev next (encodeRun next)
        { out := [], currentStyle := none }).out).grid := by
    simp only [encodeDiffInto]
    split
    · exact exec_reset_grid t _
    · rfl
  have hruns : Painted t next t.grid (Drawn prev next next.height 0)
      (forEachChangedRun prev next (encodeRun next) { out := [], currentStyle := none }) := by
    rw [forEachChangedRun, if_neg hsame]
    exact hall
  rw [hgrid]
  split
  · next heq =>
    refine hruns.outside i j fun hd => ?_
    have hc := hd.2.2
    simp only [cellChanged, ne_eq, decide_not, Bool.not_eq_true', decide_eq_false_iff_not] at hc
    exact hc heq
  · next hne => exact hruns.inside i j ⟨.inl hj, hi, by simpa [cellChanged] using hne⟩

end

/-! ## The full frame -/

section
variable {fb : FrameBuffer} {t : Terminal}

/-- After `y` rows the cursor is at the start of the next one. -/
structure RowsPainted (t : Terminal) (fb : FrameBuffer) (y : ℕ) (e : Encoder) : Prop where
  painted : Painted t fb (fun _ _ => .blank) (fun i j => i < fb.width ∧ j < y) e
  row : y < fb.height → (t.exec e.out).row = y
  column : y < fb.height → (t.exec e.out).column = 0

theorem encodeFullRow_painted (ht : Fits t fb) {y : ℕ} {e : Encoder} (hy : y < fb.height)
    (h : RowsPainted t fb y e) : RowsPainted t fb (y + 1) (encodeFullRow fb e y) := by
  obtain ⟨hw, hh⟩ := ht
  have hlen : 0 + fb.width ≤ t.width := by omega
  obtain ⟨hp, hrow, -⟩ :=
    h.painted.cells (h.row hy) (fun _ => h.column hy) fb.width hlen
  have hrows : Painted t fb (fun _ _ => .blank) (fun i j => i < fb.width ∧ j < y + 1)
      (encodeCells fb 0 y fb.width e) := hp.congr fun i j => by
    constructor
    · rintro (⟨hi, hj⟩ | ⟨rfl, -, hi⟩)
      · exact ⟨hi, Nat.lt_succ_of_lt hj⟩
      · exact ⟨by omega, Nat.lt_succ_self _⟩
    · rintro ⟨hi, hj⟩
      rcases Nat.lt_succ_iff_lt_or_eq.mp hj with hj | rfl
      · exact .inl ⟨hi, hj⟩
      · exact .inr ⟨rfl, Nat.zero_le _, by omega⟩
  simp only [encodeFullRow]
  split
  · next hnext =>
    have hheight := (Terminal.exec_size t (encodeCells fb 0 y fb.width e).out).2
    have hnl := Terminal.step_newline (t.exec (encodeCells fb 0 y fb.width e).out) (by omega)
    have hexec : t.exec ((encodeCells fb 0 y fb.width e).queue .newline).out =
        (t.exec (encodeCells fb 0 y fb.width e).out).step .newline := by
      simp only [Encoder.queue, Terminal.exec_append, Terminal.exec_cons, Terminal.exec_nil]
    refine ⟨hrows.queue (by rw [hnl]) (by rw [hnl]), fun _ => ?_, fun _ => ?_⟩
    · rw [hexec, hnl]
      exact congrArg (· + 1) hrow
    · rw [hexec, hnl]
  · next hlast => exact ⟨hrows, fun h' => absurd h' hlast, fun h' => absurd h' hlast⟩

/-- The full frame draws every cell, whatever the terminal showed. -/
theorem exec_encodeFullInto (ht : Fits t fb) {i j : ℕ} (hi : i < fb.width) (hj : j < fb.height) :
    (t.exec (encodeFullInto fb [])).grid i j = drawnGlyph (fb.cellAt i j) := by
  have hstart : RowsPainted t fb 0
      { out := [.clearAll, .moveTo 0 0], currentStyle := none } := by
    refine ⟨⟨fun style h => (nomatch h), fun i j h => absurd h.2 (Nat.not_lt_zero j),
      fun i j _ => rfl⟩, fun _ => Nat.zero_min _, fun _ => Nat.zero_min _⟩
  have hall := foldl_range_induction (P := fun y e => RowsPainted t fb y e) hstart
    (fun y hy e he => encodeFullRow_painted ht hy he)
  have hgrid := exec_reset_grid t ((List.range fb.height).foldl (encodeFullRow fb)
    { out := [.clearAll, .moveTo 0 0], currentStyle := none }).out
  change (t.exec (_ ++ [Command.resetColor, .attributeReset])).grid i j = _
  rw [List.nil_append, hgrid]
  exact hall.painted.inside i j ⟨hi, hj⟩

end

/-- The diff leaves the terminal showing the next frame exactly when no cell changed, the
full frame exactly when it has no cell. -/
theorem encodings_show_iff (prev next : FrameBuffer)
    (hs : prev.width = next.width ∧ prev.height = next.height) (t u : Terminal)
    (ht : Fits t next) (hu : Fits u next) (hp : Shows t prev) :
    (Shows (t.exec (encodeDiffInto prev next [])) next ↔ prev = next) ∧
      (Shows (u.exec (encodeFullInto next [])) next ↔ next.width = 0 ∨ next.height = 0) := by
  refine ⟨⟨fun h => ?_, fun h y hy x hx => ?_⟩, ⟨fun h => ?_, fun h y hy x hx => ?_⟩⟩
  · refine FrameBuffer.ext_cellAt hs.1 hs.2 fun y hy x hx => ?_
    rw [hs.1] at hx
    rw [hs.2] at hy
    have hc := h y hy x hx
    rw [exec_encodeDiffInto hs ht hx hy] at hc
    split at hc
    · next heq => exact heq
    · exact absurd hc (drawnGlyph_ne _)
  · rw [exec_encodeDiffInto hs ht hx hy, if_pos (by rw [h]), ← h]
    exact hp y (h ▸ hy) x (h ▸ hx)
  · by_contra hne
    rw [not_or] at hne
    have hw := Nat.pos_of_ne_zero hne.1
    have hh := Nat.pos_of_ne_zero hne.2
    have hc := h 0 hh 0 hw
    rw [exec_encodeFullInto hu hw hh] at hc
    exact drawnGlyph_ne _ hc
  · omega

def accent : CellStyle := ⟨⟨90, 200, 90⟩, ⟨10, 10, 30⟩, true, false⟩

def faded : CellStyle := { CellStyle.default with dim := true }

/-- Three rows in three styles. -/
def titled : FrameBuffer :=
  (((FrameBuffer.new 6 3).putStr 0 0 "score".toList .default).fillRect 1 1 4 2 '#' accent).putStr 0 2
    "next".toList faded

/-- Two runs of the first row change, one of the second, none of the third. -/
def retitled : FrameBuffer :=
  ((titled.putStr 0 0 "S".toList accent).putStr 3 0 "42".toList faded).putStr 2 1 "II".toList accent

theorem encodings_show_iff_titled :
    (Shows ((showing titled).exec (encodeDiffInto titled retitled [])) retitled ↔
        titled = retitled) ∧
      (Shows ((showing titled).exec (encodeFullInto retitled [])) retitled ↔
        retitled.width = 0 ∨ retitled.height = 0) :=
  encodings_show_iff titled retitled ⟨rfl, rfl⟩ (showing titled) (showing titled) ⟨rfl, rfl⟩
    ⟨rfl, rfl⟩ (fun _ _ _ _ => rfl)

def blankFrame : FrameBuffer := .new 1 1

def lettered : FrameBuffer := blankFrame.putChar 0 0 'X' .default

/-- A letter in the default style shows in the colours of the terminal, by either path. -/
theorem lettered_colours_lost :
    Fits (showing blankFrame) lettered ∧ Shows (showing blankFrame) blankFrame ∧
      ¬Shows ((showing blankFrame).exec (encodeDiffInto blankFrame lettered [])) lettered ∧
      ¬Shows ((showing blankFrame).exec (encodeFullInto lettered [])) lettered := by
  decide

end TuiTetris.TermRendererScreen
