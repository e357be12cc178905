import Mathlib.Algebra.GroupWithZero.Nat
import Mathlib.Data.List.Basic

set_option autoImplicit false

/-!
# Removing marked rows from a stack of fixed height

Each removal deletes one row and puts a blank row on top, so the height stays
the same. The indices are those of the original stack; removing in ascending
order leaves the later indices pointing at the rows they were computed for.
-/
namespace TuiTetris.LibRowStack

variable {α : Type} (full : α → Bool) (blank : α)

def dropRow (rows : List α) (y : ℕ) : List α := blank :: rows.eraseIdx y

def marked (rows : List α) (y : ℕ) : Bool := (rows[y]?.map full).getD false

def markedRows (rows : List α) : List ℕ := (List.range rows.length).filter (marked full rows)

/-- Blank rows for the removed ones, above the rows that stay. -/
def settled (rows : List α) : List α :=
  List.replicate (rows.countP full) blank ++ rows.filter (fun r => !full r)

theorem settled_length (rows : List α) : (settled full blank rows).length = rows.length := by
  have h := List.length_eq_countP_add_countP full (l := rows)
  simp only [settled, List.length_append, List.length_replicate]
  rw [h, List.countP_eq_length_filter (p := fun r => !full r).symm]
  simp [List.countP_eq_length_filter]

theorem settled_concat_full (rows : List α) (r : α) (h : full r = true) :
    settled full blank (rows ++ [r]) = blank :: settled full blank rows := by
  simp [settled, h, List.replicate_succ]

theorem settled_concat_open (rows : List α) (r : α) (h : full r = false) :
    settled full blank (rows ++ [r]) = settled full blank rows ++ [r] := by
  simp [settled, h]

/-- After the first `k` rows have been looked at, those `k` are settled and the rest is untouched. -/
theorem foldl_dropRow_take (rows : List α) (k : ℕ) (hk : k ≤ rows.length) :
    ((List.range k).filter (marked full rows)).foldl (dropRow blank) rows =
      settled full blank (rows.take k) ++ rows.drop k := by
  induction k with
  | zero => simp [settled]
  | succ k ih =>
    have hlt : k < rows.length := hk
    have hdrop : rows.drop k = rows[k] :: rows.drop (k + 1) := List.drop_eq_getElem_cons hlt
    have htake : rows.take (k + 1) = rows.take k ++ [rows[k]] := List.take_succ_eq_append_getElem hlt
    have hlen : (settled full blank (rows.take k)).length = k := by
      rw [settled_length, List.length_take]
      omega
    rw [List.range_succ, List.filter_append, List.foldl_append, ih (by omega)]
    by_cases hf : full rows[k] = true
    · have hm : marked full rows k = true := by simp [marked, hlt, hf]
      simp only [hm, List.filter_cons_of_pos, List.filter_nil, List.foldl_cons, List.foldl_nil]
      rw [dropRow, List.eraseIdx_append_of_length_le (by omega), hlen, Nat.sub_self, hdrop,
        List.eraseIdx_cons_zero, htake, settled_concat_full full blank _ _ hf]
      rfl
    · have ho : full rows[k] = false := by simpa using hf
      have hm : marked full rows k = false := by simp [marked, hlt, ho]
      simp only [hm, Bool.false_eq_true, not_false_eq_true, List.filter_cons_of_neg,
        List.filter_nil, List.foldl_nil]
      rw [hdrop, htake, settled_concat_open full blank _ _ ho, List.append_assoc]
      rfl

theorem foldl_dropRow (rows : List α) :
    (markedRows full rows).foldl (dropRow blank) rows = settled full blank rows := by
  have h := foldl_dropRow_take full blank rows rows.length (Nat.le_refl _)
  simpa [markedRows] using h

theorem settled_unmarked (rows : List α) (hb : full blank = false) (r : α)
    (hr : r ∈ settled full blank rows) : full r = false := by
  rcases List.mem_append.mp hr with h | h
  · rw [List.eq_of_mem_replicate h, hb]
  · simpa using (List.mem_filter.mp h).2

theorem markedRows_length (rows : List α) : (markedRows full rows).length = rows.countP full := by
  have h : ∀ k ≤ rows.length, ((List.range k).filter (marked full rows)).length =
      (rows.take k).countP full := by
    intro k hk
    induction k with
    | zero => simp
    | succ k ih =>
      have hlt : k < rows.length := hk
      rw [List.range_succ, List.filter_append, List.length_append, ih (by omega),
        List.take_succ_eq_append_getElem hlt, List.countP_append]
      by_cases hf : full rows[k] = true <;> simp [marked, hlt, hf]
  simpa [markedRows] using h rows.length (Nat.le_refl _)

theorem markedRows_sorted (rows : List α) : (markedRows full rows).Pairwise (· < ·) :=
  List.pairwise_lt_range.filter _

/-- Any weight of the rows: what is removed is the weight of the marked rows. -/
theorem settled_sum (weight : α → ℕ) (rows : List α) :
    ((settled full blank rows).map weight).sum + ((rows.filter full).map weight).sum =
      (rows.map weight).sum + rows.countP full * weight blank := by
  have hsplit : ((rows.filter full).map weight).sum +
      ((rows.filter fun r => !full r).map weight).sum = (rows.map weight).sum := by
    induction rows with
    | nil => rfl
    | cons r rows ih =>
      cases h : full r <;> simp only [List.filter_cons, h, if_true, if_false, Bool.not_true,
        Bool.not_false, Bool.false_eq_true, List.map_cons, List.sum_cons] <;> omega
  rw [settled, List.map_append, List.sum_append, List.map_replicate, List.sum_replicate_nat]
  omega

end TuiTetris.LibRowStack
