import Mathlib.Computability.Language

set_option autoImplicit false

/-!
# Languages of separated fields

Classes of letters, optional parts and repetitions with a separator, as regular
expressions write them, and how splitting a word at the separator decides them.
-/
namespace TuiTetris.LibLanguage
open scoped Computability

variable {α : Type} {L A B : Language α} {p : α → Bool} {sep a : α} {w : List α}

/-- The words of one letter of a class. -/
def oneOf (p : α → Bool) : Language α := {w | ∃ a, p a = true ∧ w = [a]}

def optional (L : Language α) : Language α := 1 + L

/-- One word of `L` or more, with a separator between them. -/
def separated (sep : α) (L : Language α) : Language α := L * ({[sep]} * L)∗

theorem mem_oneOf_mul : w ∈ oneOf p * L ↔ ∃ a v, w = a :: v ∧ p a = true ∧ v ∈ L := by
  rw [Language.mem_mul]
  constructor
  · rintro ⟨u, ⟨a, ha, rfl⟩, v, hv, rfl⟩
    exact ⟨a, v, rfl, ha, hv⟩
  · rintro ⟨a, v, rfl, ha, hv⟩
    exact ⟨[a], ⟨a, ha, rfl⟩, v, hv, rfl⟩

theorem mem_letter_mul : w ∈ ({[a]} : Language α) * L ↔ ∃ v ∈ L, w = a :: v := by
  rw [Language.mem_mul]
  constructor
  · rintro ⟨u, rfl, v, hv, rfl⟩
    exact ⟨v, hv, rfl⟩
  · rintro ⟨v, hv, rfl⟩
    exact ⟨[a], rfl, v, hv, rfl⟩

theorem mem_oneOf_star : w ∈ (oneOf p)∗ ↔ ∀ a ∈ w, p a = true := by
  rw [Language.mem_kstar]
  constructor
  · rintro ⟨ws, rfl, hws⟩ a ha
    obtain ⟨v, hv, hmem⟩ := List.mem_flatten.mp ha
    obtain ⟨b, hb, rfl⟩ := hws v hv
    rwa [List.mem_singleton.mp hmem]
  · intro h
    refine ⟨w.map fun a => [a], (List.flatMap_singleton' w).symm, fun v hv => ?_⟩
    obtain ⟨a, ha, rfl⟩ := List.mem_map.mp hv
    exact ⟨a, h a ha, rfl⟩

/-! ## Separated fields -/

theorem flatten_fields (sep : α) (f : List α) (fs : List (List α)) :
    f ++ (fs.map (sep :: ·)).flatten = [sep].intercalate (f :: fs) := by
  induction fs generalizing f with
  | nil => simp
  | cons g fs ih =>
    rw [List.map_cons, List.flatten_cons, List.cons_append, ih g]
    simp [List.intercalate_cons_cons]

theorem tails_fields {ws : List (List α)} (h : ∀ u ∈ ws, u ∈ ({[sep]} : Language α) * L) :
    ∃ fs : List (List α), (∀ f ∈ fs, f ∈ L) ∧ ws = fs.map (sep :: ·) := by
  induction ws with
  | nil => exact ⟨[], by simp, rfl⟩
  | cons u ws ih =>
    obtain ⟨f, hf, rfl⟩ := mem_letter_mul.mp (h u List.mem_cons_self)
    obtain ⟨fs, hfs, rfl⟩ := ih fun v hv => h v (List.mem_cons_of_mem _ hv)
    exact ⟨f :: fs, by simpa using ⟨hf, hfs⟩, rfl⟩

theorem mem_separated : w ∈ separated sep L ↔
    ∃ fs : List (List α), fs ≠ [] ∧ (∀ f ∈ fs, f ∈ L) ∧ w = [sep].intercalate fs := by
  unfold separated
  rw [Language.mem_mul]
  constructor
  · rintro ⟨f, hf, v, ⟨ws, rfl, hws⟩, rfl⟩
    obtain ⟨fs, hfs, rfl⟩ := tails_fields hws
    exact ⟨f :: fs, by simp, by simpa using ⟨hf, hfs⟩, flatten_fields sep f fs⟩
  · rintro ⟨fs, hne, hfs, rfl⟩
    obtain ⟨f, fs, rfl⟩ := List.exists_cons_of_ne_nil hne
    refine ⟨f, hfs f List.mem_cons_self, _, ⟨fs.map (sep :: ·), rfl, fun u hu => ?_⟩,
      flatten_fields sep f fs⟩
    obtain ⟨g, hg, rfl⟩ := List.mem_map.mp hu
    exact mem_letter_mul.mpr ⟨g, hfs g (List.mem_cons_of_mem _ hg), rfl⟩

/-- Where no word of `L` has the separator, splitting decides membership. -/
theorem mem_separated_iff [BEq α] [LawfulBEq α] (h : ∀ f ∈ L, sep ∉ f) :
    w ∈ separated sep L ↔ ∀ f ∈ w.splitOn sep, f ∈ L := by
  rw [mem_separated]
  constructor
  · rintro ⟨fs, hne, hfs, rfl⟩
    rwa [List.splitOn_intercalate sep (fun f hf => h f (hfs f hf)) hne]
  · intro hall
    exact ⟨w.splitOn sep, List.splitOn_ne_nil sep w, hall, (List.intercalate_splitOn sep).symm⟩

/-- A letter of a separated word is the separator or a letter of a field. -/
theorem mem_of_separated (h : w ∈ separated sep L) (ha : a ∈ w) : a = sep ∨ ∃ f ∈ L, a ∈ f := by
  obtain ⟨f, hf, v, ⟨ws, rfl, hws⟩, rfl⟩ := Language.mem_mul.mp h
  rcases List.mem_append.mp ha with ha | ha
  · exact .inr ⟨f, hf, ha⟩
  · obtain ⟨u, hu, hmem⟩ := List.mem_flatten.mp ha
    obtain ⟨g, hg, rfl⟩ := mem_letter_mul.mp (hws u hu)
    rcases List.mem_cons.mp hmem with rfl | hmem
    · exact .inl rfl
    · exact .inr ⟨g, hg, hmem⟩

/-! ## A part before a mark -/

theorem append_mark_inj {u u' v v' : List α} (hu : a ∉ u) (hu' : a ∉ u')
    (h : u ++ a :: v = u' ++ a :: v') : u = u' ∧ v = v' := by
  rcases List.append_eq_append_iff.mp h with ⟨c, rfl, hc⟩ | ⟨c, rfl, hc⟩
  · cases c with
    | nil => simpa using hc
    | cons b c =>
      obtain ⟨rfl, -⟩ := List.cons.inj hc
      simp at hu'
  · cases c with
    | nil => simpa using hc.symm
    | cons b c =>
      obtain ⟨rfl, -⟩ := List.cons.inj hc
      simp at hu

theorem mem_unmarked (hw : a ∉ w) : w ∈ A * optional ({[a]} * B) ↔ w ∈ A := by
  rw [Language.mem_mul]
  constructor
  · rintro ⟨u, hu, v, rfl | hv, rfl⟩
    · rwa [List.append_nil]
    · obtain ⟨b, -, rfl⟩ := mem_letter_mul.mp hv
      simp at hw
  · intro h
    exact ⟨w, h, [], .inl rfl, List.append_nil w⟩

/-- The first mark is where the optional part begins. -/
theorem mem_marked (hA : ∀ u ∈ A, a ∉ u) {u v : List α} (hu : a ∉ u) :
    u ++ a :: v ∈ A * optional ({[a]} * B) ↔ u ∈ A ∧ v ∈ B := by
  rw [Language.mem_mul]
  constructor
  · rintro ⟨u', hu', v', rfl | hv', h⟩
    · rw [List.append_nil] at h
      exact absurd (by rw [h]; simp) (hA u' hu')
    · obtain ⟨b, hb, rfl⟩ := mem_letter_mul.mp hv'
      obtain ⟨rfl, rfl⟩ := append_mark_inj (hA u' hu') hu h
      exact ⟨hu', hb⟩
  · rintro ⟨hA, hB⟩
    exact ⟨u, hA, a :: v, .inr (mem_letter_mul.mpr ⟨v, hB, rfl⟩), rfl⟩

end TuiTetris.LibLanguage
