import Mathlib.Data.List.Basic

set_option autoImplicit false

/-!
# Lines and fields of a text

Texts are lists of characters. `lines` follows `str::lines`: a line ends at a
line feed, a carriage return right before it is dropped, and a text that ends
with a line feed has no empty last line.
-/
namespace TuiTetris.LibText

abbrev Text := List Char

def dropCr : Text → Text
  | '\r' :: cs => cs
  | cs => cs

/-- Lines of the rest of a text, with the characters of the open line in reverse. -/
def linesFrom (acc : Text) : Text → List Text
  | [] => if acc.isEmpty then [] else [acc.reverse]
  | c :: cs => if c = '\n' then (dropCr acc).reverse :: linesFrom [] cs else linesFrom (c :: acc) cs

def lines (text : Text) : List Text := linesFrom [] text

def unlines (ls : List Text) : Text := ls.flatMap (· ++ ['\n'])

def OneLine (l : Text) : Prop := '\n' ∉ l ∧ '\r' ∉ l

theorem dropCr_reverse {l : Text} (h : '\r' ∉ l) : dropCr l.reverse = l.reverse := by
  unfold dropCr
  split
  · next cs hc =>
    have hm : '\r' ∈ l.reverse := hc ▸ List.mem_cons_self
    exact absurd (List.mem_reverse.mp hm) h
  · rfl

theorem linesFrom_append {l : Text} (h : '\n' ∉ l) (acc rest : Text) :
    linesFrom acc (l ++ rest) = linesFrom (l.reverse ++ acc) rest := by
  induction l generalizing acc with
  | nil => rfl
  | cons c cs ih =>
    have hc : c ≠ '\n' := fun he => h (he ▸ List.mem_cons_self)
    have hcs : '\n' ∉ cs := fun hm => h (List.mem_cons_of_mem _ hm)
    rw [List.cons_append, linesFrom, if_neg hc, ih hcs, List.reverse_cons, List.append_assoc]
    rfl

theorem lines_unlines {ls : List Text} (h : ∀ l ∈ ls, OneLine l) : lines (unlines ls) = ls := by
  induction ls with
  | nil => rfl
  | cons l ls ih =>
    have hl := h l List.mem_cons_self
    have hls := ih fun m hm => h m (List.mem_cons_of_mem _ hm)
    unfold lines unlines at hls ⊢
    rw [List.flatMap_cons, List.append_assoc, linesFrom_append hl.1, List.append_nil,
      List.singleton_append, linesFrom, if_pos rfl, dropCr_reverse hl.2, List.reverse_reverse, hls]

def joinWith (sep : Char) (fields : List Text) : Text := [sep].intercalate fields

theorem splitOn_joinWith {sep : Char} {fields : List Text} (h : ∀ f ∈ fields, sep ∉ f)
    (hne : fields ≠ []) : (joinWith sep fields).splitOn sep = fields :=
  List.splitOn_intercalate sep h hne

theorem joinWith_cons_cons (sep : Char) (f g : Text) (fields : List Text) :
    joinWith sep (f :: g :: fields) = f ++ sep :: joinWith sep (g :: fields) := by
  simp [joinWith, List.intercalate_cons_cons]

theorem mem_joinWith {sep c : Char} (hc : c ≠ sep) {fields : List Text}
    (h : c ∈ joinWith sep fields) : ∃ f ∈ fields, c ∈ f := by
  induction fields with
  | nil => simp [joinWith] at h
  | cons f fields ih =>
    cases fields with
    | nil => exact ⟨f, List.mem_cons_self, by simpa [joinWith] using h⟩
    | cons g fields =>
      rw [joinWith_cons_cons] at h
      rcases List.mem_append.mp h with h | h
      · exact ⟨f, List.mem_cons_self, h⟩
      · rcases List.mem_cons.mp h with h | h
        · exact absurd h hc
        · obtain ⟨k, hk, hm⟩ := ih h
          exact ⟨k, List.mem_cons_of_mem _ hk, hm⟩

theorem oneLine_joinWith {sep : Char} (hn : sep ≠ '\n') (hr : sep ≠ '\r') {fields : List Text}
    (h : ∀ f ∈ fields, OneLine f) : OneLine (joinWith sep fields) := by
  constructor
  · intro hm
    obtain ⟨f, hf, hmem⟩ := mem_joinWith hn.symm hm
    exact (h f hf).1 hmem
  · intro hm
    obtain ⟨f, hf, hmem⟩ := mem_joinWith hr.symm hm
    exact (h f hf).2 hmem

/-- `str::eq_ignore_ascii_case`. -/
def eqIgnoreAsciiCase (a b : Text) : Bool := a.map Char.toLower == b.map Char.toLower

/-- `char::is_whitespace`. -/
def isWhitespace (c : Char) : Bool :=
  let n := c.toNat
  (0x9 ≤ n && n ≤ 0xD) || n = 0x20 || n = 0x85 || n = 0xA0 || n = 0x1680 ||
    (0x2000 ≤ n && n ≤ 0x200A) || n = 0x2028 || n = 0x2029 || n = 0x202F || n = 0x205F || n = 0x3000

end TuiTetris.LibText
