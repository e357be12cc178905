import Mathlib.Data.List.Nodup
import Mathlib.Logic.Function.Basic

set_option autoImplicit false

/-!
# Encodings that end by themselves

No code word is the beginning of another one, so a code word followed by anything
is read in one way. The combinators build records, optional parts and lists that
come with their length.
-/
namespace TuiTetris.LibEncoding

variable {α β ω : Type}

def SelfEnding (enc : α → List ω) : Prop :=
  ∀ (a b : α) (u v : List ω), enc a ++ u = enc b ++ v → a = b

def pair (f : α → List ω) (g : β → List ω) (p : α × β) : List ω := f p.1 ++ g p.2

/-- A mark says whether the value follows. -/
def marked (absent present : ω) (enc : α → List ω) : Option α → List ω
  | none => [absent]
  | some a => present :: enc a

/-- Lists whose length a counter of the given range can hold. -/
abbrev Counted (α : Type) (bound : ℕ) := {xs : List α // xs.length < bound}

def counted {bound : ℕ} (count : ℕ → List ω) (enc : α → List ω) (xs : Counted α bound) : List ω :=
  count xs.val.length ++ xs.val.flatMap enc

/-- A table of codes without repetition. -/
theorem injective_of_nodup {code : α → ω} (all : List α) (hall : ∀ a, a ∈ all)
    (h : (all.map code).Nodup) : Function.Injective code := fun a b he =>
  List.inj_on_of_nodup_map h (hall a) (hall b) he

namespace SelfEnding

variable {f : α → List ω} {g : β → List ω} {a b : α} {u v : List ω}

theorem split (h : SelfEnding f) (he : f a ++ u = f b ++ v) : a = b ∧ u = v := by
  have hab : a = b := h a b u v he
  rw [hab] at he
  exact ⟨hab, List.append_cancel_left he⟩

theorem injective (h : SelfEnding f) : Function.Injective f := fun a b he =>
  h a b [] [] (congrArg (· ++ []) he)

theorem split_iff (h : SelfEnding f) : f a ++ u = f b ++ v ↔ a = b ∧ u = v := by
  refine ⟨h.split, ?_⟩
  rintro ⟨rfl, rfl⟩
  rfl

theorem congr {f' : α → List ω} (h : SelfEnding f) (he : ∀ a, f' a = f a) : SelfEnding f' := by
  intro a b u v hw
  rw [he, he] at hw
  exact h a b u v hw

theorem of_length {n : ℕ} (hlen : ∀ a, (f a).length = n) (hinj : Function.Injective f) :
    SelfEnding f := by
  intro a b u v he
  have hl : (f a).length = (f b).length := by rw [hlen, hlen]
  exact hinj (List.append_inj he hl).1

theorem symbol {code : α → ω} (hinj : Function.Injective code) : SelfEnding fun a => [code a] :=
  of_length (n := 1) (fun _ => rfl) fun _ _ he => hinj (List.head_eq_of_cons_eq he)

theorem comp {γ : Type} {view : γ → α} (h : SelfEnding f) (hinj : Function.Injective view) :
    SelfEnding fun c => f (view c) := fun _ _ u v he => hinj (h _ _ u v he)

theorem pair (hf : SelfEnding f) (hg : SelfEnding g) : SelfEnding (pair f g) := by
  intro p q u v he
  unfold LibEncoding.pair at he
  rw [List.append_assoc, List.append_assoc] at he
  obtain ⟨hfst, he⟩ := hf.split he
  exact Prod.ext hfst (hg _ _ u v he)

theorem marked {absent present : ω} (hne : absent ≠ present) (h : SelfEnding f) :
    SelfEnding (marked absent present f) := by
  intro a b u v he
  cases a with
  | none =>
    cases b with
    | none => rfl
    | some b => exact absurd (List.head_eq_of_cons_eq he) hne
  | some a =>
    cases b with
    | none => exact absurd (List.head_eq_of_cons_eq he).symm hne
    | some b => exact congrArg some (h a b u v (List.tail_eq_of_cons_eq he))

/-- Two lists of one length are read off one after the other. -/
theorem list_of_length (h : SelfEnding f) {xs ys : List α} (hl : xs.length = ys.length)
    (he : xs.flatMap f ++ u = ys.flatMap f ++ v) : xs = ys := by
  induction xs generalizing ys with
  | nil => exact (List.length_eq_zero_iff.mp hl.symm).symm
  | cons x xs ih =>
    cases ys with
    | nil => cases hl
    | cons y ys =>
      rw [List.flatMap_cons, List.flatMap_cons, List.append_assoc, List.append_assoc] at he
      obtain ⟨hhead, htail⟩ := h.split he
      rw [hhead, ih (Nat.succ.inj hl) htail]

theorem vector {n : ℕ} (h : SelfEnding f) :
    SelfEnding fun xs : Vector α n => xs.toList.flatMap f := by
  intro xs ys u v he
  refine Vector.toList_inj.mp (h.list_of_length ?_ he)
  rw [Vector.length_toList, Vector.length_toList]

theorem counted {bound : ℕ} {count : ℕ → List ω} (h : SelfEnding f)
    (hcount : SelfEnding fun n : Fin bound => count n.val) :
    SelfEnding (LibEncoding.counted count f : Counted α bound → List ω) := by
  intro xs ys u v he
  unfold LibEncoding.counted at he
  rw [List.append_assoc, List.append_assoc] at he
  obtain ⟨hlen, he⟩ := hcount.split (a := ⟨_, xs.property⟩) (b := ⟨_, ys.property⟩) he
  exact Subtype.ext (h.list_of_length (congrArg Fin.val hlen) he)

end SelfEnding

end TuiTetris.LibEncoding
