import TuiTetris.CoreTypes

set_option autoImplicit false

/-!
# Seven-bag piece generation
-/
namespace TuiTetris.CoreRng
open CoreTypes

structure SimpleRng where
  state : UInt32
  deriving DecidableEq, Repr

namespace SimpleRng

def nextU32 (g : SimpleRng) : UInt32 × SimpleRng :=
  let state := g.state * 1664525 + 1013904223
  (state, ⟨state⟩)

def nextRange (g : SimpleRng) (max : UInt32) : UInt32 × SimpleRng :=
  let r := g.nextU32
  (r.1 % max, r.2)

theorem nextRange_lt (g : SimpleRng) (i n : ℕ) (h : i < n) (hn : n < 2 ^ 32) :
    (g.nextRange (UInt32.ofNat (i + 1))).1.toNat < n := by
  have hmod : (UInt32.ofNat (i + 1)).toNat = i + 1 := by
    rw [UInt32.toNat_ofNat', Nat.mod_eq_of_lt (by omega)]
  simp only [nextRange, UInt32.toNat_mod, hmod]
  exact Nat.lt_of_lt_of_le (Nat.mod_lt _ (Nat.succ_pos i)) h

/-- The swaps of the shuffle for the indices `i, i - 1, …, 1`. -/
def shuffleLoop {α : Type} {n : ℕ} (hn : n < 2 ^ 32) :
    (i : ℕ) → i < n → SimpleRng → Vector α n → SimpleRng × Vector α n
  | 0, _, g, slice => (g, slice)
  | i + 1, hi, g, slice =>
    let r := g.nextRange (UInt32.ofNat (i + 1 + 1))
    shuffleLoop hn i (Nat.lt_of_succ_lt hi) r.2
      (slice.swap (i + 1) r.1.toNat hi (nextRange_lt g (i + 1) n hi hn))

/-- Fisher-Yates. Irreducible, so that no unification runs the generator. -/
@[irreducible] def shuffle {α : Type} {n : ℕ} (hn : n < 2 ^ 32) (g : SimpleRng) (slice : Vector α n) :
    SimpleRng × Vector α n :=
  if h : 0 < n then shuffleLoop hn (n - 1) (Nat.sub_lt h Nat.one_pos) g slice else (g, slice)

end SimpleRng

def allKinds : Vector PieceKind 7 := #v[.I, .O, .T, .S, .Z, .J, .L]

structure PieceQueue where
  episodeSeed : UInt32
  bag : Vector PieceKind 7
  bagIndex : ℕ
  rng : SimpleRng
  deriving DecidableEq

namespace PieceQueue

/-- The tail of `refill_bag`: install the shuffled bag and the advanced generator. -/
def withBag (q : PieceQueue) (r : SimpleRng × Vector PieceKind 7) : PieceQueue :=
  { q with bag := r.2, bagIndex := 0, rng := r.1 }

def refillBag (q : PieceQueue) : PieceQueue :=
  q.withBag (q.rng.shuffle (by decide) allKinds)

def new (seed : UInt32) : PieceQueue :=
  refillBag { episodeSeed := seed, bag := allKinds, bagIndex := 0, rng := ⟨seed⟩ }

/-- The bag that the next refill will produce, from a copy of the generator. -/
def previewBag (q : PieceQueue) : Vector PieceKind 7 := (q.rng.shuffle (by decide) allKinds).2

def peek (q : PieceQueue) : Option PieceKind :=
  if q.bagIndex < 7 then q.bag[q.bagIndex]? else some q.previewBag[0]

/-- First loop of `peek_5`: what is left of the current bag, five pieces at most. -/
def peekCurrent (q : PieceQueue) : List PieceKind := (q.bag.toList.drop q.bagIndex).take 5

/-- Second loop of `peek_5`: fill up from the preview of the next bag. -/
def peekFill (q : PieceQueue) (out : List PieceKind) : List PieceKind :=
  if out.length < 5 then out ++ q.previewBag.toList.take (5 - out.length) else out

theorem peekFill_length (q : PieceQueue) : (q.peekFill q.peekCurrent).length = 5 := by
  have hc : q.peekCurrent.length ≤ 5 := by
    simp only [peekCurrent, List.length_take]
    omega
  unfold peekFill
  split
  · simp only [List.length_append, List.length_take, Vector.length_toList]
    omega
  · omega

def peek5 (q : PieceQueue) : Vector PieceKind 5 :=
  ⟨(q.peekFill q.peekCurrent).toArray, q.peekFill_length⟩

/-- `draw` starts by refilling an exhausted bag. -/
def ensureBag (q : PieceQueue) : PieceQueue := if q.bagIndex ≥ 7 then q.refillBag else q

theorem ensureBag_index (q : PieceQueue) : q.ensureBag.bagIndex < 7 := by
  unfold ensureBag
  split
  · exact Nat.zero_lt_succ _
  · omega

def draw (q : PieceQueue) : PieceKind × PieceQueue :=
  have h := q.ensureBag_index
  (q.ensureBag.bag[q.ensureBag.bagIndex], { q.ensureBag with bagIndex := q.ensureBag.bagIndex + 1 })

def seed (q : PieceQueue) : UInt32 := q.episodeSeed

def rngState (q : PieceQueue) : UInt32 := q.rng.state

end PieceQueue

open PieceQueue

/-- The preview agrees with the draw, also across the bag boundary. -/
theorem peek_eq_draw (q : PieceQueue) : q.peek = some q.draw.1 := by
  unfold peek draw
  by_cases h : q.bagIndex < 7
  · have hb : q.ensureBag = q := by simp [ensureBag, Nat.not_le_of_lt h]
    simp [h, hb]
  · have hb : q.ensureBag = q.refillBag := by simp [ensureBag, Nat.le_of_not_lt h]
    simp [h, hb, refillBag, withBag, previewBag]

theorem peekCurrent_head (q : PieceQueue) (h : q.bagIndex < 7) :
    q.peekCurrent[0]? = some q.bag[q.bagIndex] := by
  have hl : q.bagIndex < q.bag.toList.length := by simpa using h
  rw [peekCurrent, List.drop_eq_getElem_cons hl]
  simp

theorem peekCurrent_nil (q : PieceQueue) (h : ¬q.bagIndex < 7) : q.peekCurrent = [] := by
  rw [peekCurrent, List.drop_eq_nil_of_le (by simpa using h)]
  rfl

theorem peekFill_nil (q : PieceQueue) : q.peekFill [] = q.previewBag.toList.take 5 := by
  unfold peekFill
  rw [if_pos (by decide), List.nil_append, List.length_nil]

theorem peekFill_head (q : PieceQueue) : (q.peekFill q.peekCurrent)[0]? = q.peek := by
  unfold peek
  by_cases h : q.bagIndex < 7
  · have hc := peekCurrent_head q h
    have hpos : 0 < q.peekCurrent.length := (List.getElem?_eq_some_iff.mp hc).1
    unfold peekFill
    simp only [h, if_true]
    split
    · rw [List.getElem?_append_left hpos, hc]
      simp [h]
    · rw [hc]
      simp [h]
  · have hp : q.previewBag.toList[0]? = some q.previewBag[0] := by simp
    rw [peekCurrent_nil q h, peekFill_nil, if_neg h, List.getElem?_take_of_lt (by decide)]
    exact hp

theorem preview_pos : 0 < 5 := Nat.zero_lt_succ 4

theorem peek5_head (q : PieceQueue) : some q.peek5[0] = q.peek := by
  have hl : q.peek5.toList = q.peekFill q.peekCurrent := rfl
  have h0 : q.peek5.toList[0]? = some q.peek5[0] := by simp
  rw [← h0, hl, peekFill_head]

theorem withBag_seed (q : PieceQueue) (r : SimpleRng × Vector PieceKind 7) :
    (q.withBag r).seed = q.seed := rfl

@[simp] theorem draw_seed (q : PieceQueue) : q.draw.2.seed = q.seed := by
  change q.ensureBag.seed = q.seed
  unfold ensureBag
  split
  · exact withBag_seed q _
  · rfl

end TuiTetris.CoreRng
