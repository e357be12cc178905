import Mathlib.Data.List.Basic

set_option autoImplicit false

/-!
# Computations that may fault

Machine arithmetic, array accesses and loops as they run with every check on. A
computation is `ok` or it stops with the first fault it meets.
-/
namespace TuiTetris.LibChecked

variable {α σ τ : Type} {n : ℕ}

inductive Fault where
  | overflow
  | conversion
  | division
  | index
  | capacity
  | diverges
  deriving DecidableEq, Repr

abbrev Checked (α : Type) := Except Fault α

@[simp] theorem ok_bind {β : Type} (a : α) (f : α → Checked β) : (Except.ok a >>= f) = f a := rfl

@[simp] theorem pure_ok (a : α) : (pure a : Checked α) = .ok a := rfl

/-! ## Integers -/

def addInt8 (a b : Int8) : Checked Int8 :=
  if -128 ≤ a.toInt + b.toInt ∧ a.toInt + b.toInt < 128 then .ok (a + b) else .error .overflow

def subInt8 (a b : Int8) : Checked Int8 :=
  if -128 ≤ a.toInt - b.toInt ∧ a.toInt - b.toInt < 128 then .ok (a - b) else .error .overflow

def negInt8 (a : Int8) : Checked Int8 := if a = -128 then .error .overflow else .ok (-a)

def addUInt8 (a b : UInt8) : Checked UInt8 :=
  if a.toNat + b.toNat < 256 then .ok (a + b) else .error .overflow

def addUInt16 (a b : UInt16) : Checked UInt16 :=
  if a.toNat + b.toNat < 65536 then .ok (a + b) else .error .overflow

def subUInt16 (a b : UInt16) : Checked UInt16 := if b ≤ a then .ok (a - b) else .error .overflow

def addUInt32 (a b : UInt32) : Checked UInt32 :=
  if a.toNat + b.toNat < 4294967296 then .ok (a + b) else .error .overflow

def subUInt32 (a b : UInt32) : Checked UInt32 := if b ≤ a then .ok (a - b) else .error .overflow

def divUInt32 (a b : UInt32) : Checked UInt32 := if b = 0 then .error .division else .ok (a / b)

def modUInt32 (a b : UInt32) : Checked UInt32 := if b = 0 then .error .division else .ok (a % b)

/-- A conversion that must not change the value. -/
def castInt8 (a : UInt32) : Checked Int8 :=
  if a.toNat < 128 then .ok (Int8.ofNat a.toNat) else .error .conversion

theorem toInt_add {a b : Int8} (h : -128 ≤ a.toInt + b.toInt) (h' : a.toInt + b.toInt < 128) :
    (a + b).toInt = a.toInt + b.toInt := by
  rw [Int8.toInt_add, Int.bmod_def]
  omega

theorem addInt8_ok {a b : Int8} (h : -128 ≤ a.toInt + b.toInt) (h' : a.toInt + b.toInt < 128) :
    addInt8 a b = .ok (a + b) := if_pos ⟨h, h'⟩

theorem addInt8_overflow {a b : Int8} (h : 128 ≤ a.toInt + b.toInt) :
    addInt8 a b = .error .overflow := if_neg (by omega)

theorem subInt8_ok {a b : Int8} (h : -128 ≤ a.toInt - b.toInt) (h' : a.toInt - b.toInt < 128) :
    subInt8 a b = .ok (a - b) := if_pos ⟨h, h'⟩

theorem negInt8_ok {a : Int8} (h : a ≠ -128) : negInt8 a = .ok (-a) := if_neg h

theorem toNat_uInt16 {n : ℕ} (h : n < 65536) : (UInt16.ofNat n).toNat = n :=
  UInt16.toNat_ofNat_of_lt' h

theorem addUInt16_ofNat {m n : ℕ} (h : m + n < 65536) :
    addUInt16 (.ofNat m) (.ofNat n) = .ok (.ofNat (m + n)) := by
  have hm : m < 65536 := by omega
  have hn : n < 65536 := by omega
  rw [addUInt16, toNat_uInt16 hm, toNat_uInt16 hn, if_pos h, UInt16.ofNat_add]

theorem ofNat_lt_uInt16 {m n : ℕ} (hm : m < 65536) (hn : n < 65536) :
    UInt16.ofNat m < UInt16.ofNat n ↔ m < n := by
  rw [UInt16.lt_iff_toNat_lt, toNat_uInt16 hm, toNat_uInt16 hn]

theorem subUInt16_ofNat {m n : ℕ} (h : n ≤ m) (hm : m < 65536) :
    subUInt16 (.ofNat m) (.ofNat n) = .ok (.ofNat (m - n)) := by
  have hle : UInt16.ofNat n ≤ UInt16.ofNat m := by
    rw [UInt16.le_iff_toNat_le, toNat_uInt16 hm, toNat_uInt16 (Nat.lt_of_le_of_lt h hm)]
    exact h
  rw [subUInt16, if_pos hle, UInt16.ofNat_sub h]

theorem subUInt32_ok {a b : UInt32} (h : b ≤ a) : subUInt32 a b = .ok (a - b) := if_pos h

theorem divUInt32_ok {a b : UInt32} (h : b ≠ 0) : divUInt32 a b = .ok (a / b) := if_neg h

theorem modUInt32_ok {a b : UInt32} (h : b ≠ 0) : modUInt32 a b = .ok (a % b) := if_neg h

/-! ## Arrays -/

def readAt (xs : Vector α n) (i : ℕ) : Checked α :=
  match xs[i]? with
  | some a => .ok a
  | none => .error .index

def readList (xs : List α) (i : ℕ) : Checked α :=
  match xs[i]? with
  | some a => .ok a
  | none => .error .index

def writeAt (xs : Vector α n) (i : ℕ) (a : α) : Checked (Vector α n) :=
  if h : i < n then .ok (xs.set i a h) else .error .index

def swapAt (xs : Vector α n) (i j : ℕ) : Checked (Vector α n) :=
  if h : i < n ∧ j < n then .ok (xs.swap i j h.1 h.2) else .error .index

def slice (xs : Vector α n) (start stop : ℕ) : Checked (Vector α (min stop n - start)) :=
  if start ≤ stop ∧ stop ≤ n then .ok (xs.extract start stop) else .error .index

/-- Append to a buffer of fixed capacity. -/
def push (capacity : ℕ) (xs : List α) (a : α) : Checked (List α) :=
  if xs.length < capacity then .ok (xs ++ [a]) else .error .capacity

theorem readAt_some {xs : Vector α n} {i : ℕ} {a : α} (h : xs[i]? = some a) : readAt xs i = .ok a := by
  unfold readAt
  rw [h]

theorem readAt_ok (xs : Vector α n) {i : ℕ} (h : i < n) : readAt xs i = .ok xs[i] :=
  readAt_some (Vector.getElem?_eq_getElem h)

theorem readList_ok {xs : List α} {i : ℕ} {a : α} (h : xs[i]? = some a) : readList xs i = .ok a := by
  unfold readList
  rw [h]

theorem writeAt_ok (xs : Vector α n) {i : ℕ} (a : α) (h : i < n) :
    writeAt xs i a = .ok (xs.set i a h) := dif_pos h

theorem swapAt_ok (xs : Vector α n) {i j : ℕ} (hi : i < n) (hj : j < n) :
    swapAt xs i j = .ok (xs.swap i j hi hj) := dif_pos ⟨hi, hj⟩

theorem slice_ok (xs : Vector α n) {start stop : ℕ} (h : start ≤ stop) (h' : stop ≤ n) :
    slice xs start stop = .ok (xs.extract start stop) := if_pos ⟨h, h'⟩

/-- The first `k` entries replaced by those of `g`. -/
def overwritten (xs : Vector α n) (g : ℕ → α) (k : ℕ) : Vector α n :=
  Vector.ofFn fun i => if i.val < k then g i.val else xs[i]

theorem overwritten_zero (xs : Vector α n) (g : ℕ → α) : overwritten xs g 0 = xs := by
  ext i hi
  simp [overwritten]

theorem overwritten_succ (xs : Vector α n) (g : ℕ → α) {k : ℕ} (h : k < n) :
    (overwritten xs g k).set k (g k) h = overwritten xs g (k + 1) := by
  ext i hi
  simp only [overwritten, Vector.getElem_set, Vector.getElem_ofFn]
  by_cases he : k = i
  · subst he
    simp
  · have hlt : i < k ↔ i < k + 1 := by omega
    simp only [he, if_false, hlt]

theorem overwritten_all (xs : Vector α n) (g : ℕ → α) :
    overwritten xs g n = Vector.ofFn fun i => g i.val := by
  ext i hi
  simp [overwritten]

/-- A counting loop that writes one entry in each turn. -/
theorem foldlM_write {f : Vector α n → ℕ → Checked (Vector α n)} {g : ℕ → α} {k : ℕ} (hk : k ≤ n)
    (h : ∀ xs i, (hi : i < k) → f xs i = .ok (xs.set i (g i) (Nat.lt_of_lt_of_le hi hk)))
    (xs : Vector α n) : (List.range k).foldlM f xs = .ok (overwritten xs g k) := by
  induction k with
  | zero =>
    rw [overwritten_zero]
    rfl
  | succ k ih =>
    have hrest := ih (Nat.le_of_succ_le hk) fun xs i hi => h xs i (Nat.lt_succ_of_lt hi)
    rw [List.range_succ, List.foldlM_append, hrest, ok_bind, List.foldlM_cons,
      h _ k (Nat.lt_succ_self k), overwritten_succ]
    rfl

/-- A loop that collects the marked entries in a buffer large enough for them. -/
theorem foldlM_push {p : α → Bool} {f : List α → α → Checked (List α)} {capacity : ℕ}
    (h : ∀ out a, f out a = if p a then push capacity out a else .ok out) (xs out : List α)
    (hl : (out ++ xs.filter p).length ≤ capacity) :
    xs.foldlM f out = .ok (out ++ xs.filter p) := by
  induction xs generalizing out with
  | nil =>
    rw [List.filter_nil, List.append_nil]
    rfl
  | cons a xs ih =>
    rw [List.foldlM_cons, h]
    cases hp : p a with
    | false =>
      rw [List.filter_cons_of_neg (by simp [hp])] at hl ⊢
      exact ih out hl
    | true =>
      rw [List.filter_cons_of_pos hp] at hl ⊢
      have hlt : out.length < capacity := by
        rw [List.length_append, List.length_cons] at hl
        omega
      have hpush : push capacity out a = .ok (out ++ [a]) := if_pos hlt
      rw [if_pos rfl, hpush, ok_bind, ih (out ++ [a]) (by simpa using hl), List.append_assoc]
      rfl

/-! ## Loops -/

theorem allM_ok {p : α → Checked Bool} {q : α → Bool} {l : List α} (h : ∀ a ∈ l, p a = .ok (q a)) :
    l.allM p = .ok (l.all q) := by
  induction l with
  | nil => rfl
  | cons a l ih =>
    rw [List.allM, h a List.mem_cons_self, ok_bind, List.all_cons]
    cases q a with
    | false => rfl
    | true => exact ih fun b hb => h b (List.mem_cons_of_mem a hb)

theorem anyM_ok {p : α → Checked Bool} {q : α → Bool} {l : List α} (h : ∀ a ∈ l, p a = .ok (q a)) :
    l.anyM p = .ok (l.any q) := by
  induction l with
  | nil => rfl
  | cons a l ih =>
    rw [List.anyM, h a List.mem_cons_self, ok_bind, List.any_cons]
    cases q a with
    | true => rfl
    | false => exact ih fun b hb => h b (List.mem_cons_of_mem a hb)

theorem findM_ok {p : α → Checked Bool} {q : α → Bool} {l : List α} (h : ∀ a ∈ l, p a = .ok (q a)) :
    l.findM? p = .ok (l.find? q) := by
  induction l with
  | nil => rfl
  | cons a l ih =>
    rw [List.findM?, h a List.mem_cons_self, ok_bind, List.find?_cons]
    cases q a with
    | true => rfl
    | false => exact ih fun b hb => h b (List.mem_cons_of_mem a hb)

/-- `filter(…).count()`. -/
def countM (p : α → Checked Bool) (l : List α) : Checked ℕ :=
  l.foldlM (fun count a => do return if ← p a then count + 1 else count) 0

theorem countM_ok {p : α → Checked Bool} {q : α → Bool} {l : List α} (h : ∀ a ∈ l, p a = .ok (q a)) :
    countM p l = .ok (l.filter q).length := by
  have hfold : ∀ (l : List α) (count : ℕ), (∀ a ∈ l, p a = .ok (q a)) →
      l.foldlM (fun count a => do return if ← p a then count + 1 else count) count =
        (.ok (count + (l.filter q).length) : Checked ℕ) := by
    intro l
    induction l with
    | nil => exact fun count _ => rfl
    | cons a l ih =>
      intro count h
      rw [List.foldlM_cons, h a List.mem_cons_self, ok_bind, pure_ok, ok_bind,
        ih _ fun b hb => h b (List.mem_cons_of_mem a hb)]
      cases hq : q a with
      | false => rw [List.filter_cons_of_neg (by simp [hq]), if_neg (by decide)]
      | true =>
        rw [List.filter_cons_of_pos hq, if_pos rfl, List.length_cons]
        congr 1
        omega
  rw [countM, hfold l 0 h, Nat.zero_add]

/-- A loop of loops is one loop over all that they visit. -/
theorem foldlM_flatMap {β : Type} {f : σ → α → Checked σ} {g : σ → β → Checked σ}
    {h : β → List α} {l : List β} (hl : ∀ b ∈ l, ∀ s, g s b = (h b).foldlM f s) (s : σ) :
    l.foldlM g s = (l.flatMap h).foldlM f s := by
  induction l generalizing s with
  | nil => rfl
  | cons b l ih =>
    rw [List.foldlM_cons, hl b List.mem_cons_self s, List.flatMap_cons, List.foldlM_append]
    congr 1
    funext u
    exact ih (fun c hc => hl c (List.mem_cons_of_mem b hc)) u

/-- `loop { … }` with fuel; running out of fuel is a fault. -/
def loop (step : σ → Checked (σ ⊕ τ)) : ℕ → σ → Checked τ
  | 0, _ => .error .diverges
  | fuel + 1, s => do
    match ← step s with
    | .inl u => loop step fuel u
    | .inr r => return r

theorem loop_next {step : σ → Checked (σ ⊕ τ)} {s u : σ} (h : step s = .ok (.inl u)) (fuel : ℕ) :
    loop step (fuel + 1) s = loop step fuel u := by
  rw [loop, h, ok_bind]

theorem loop_stop {step : σ → Checked (σ ⊕ τ)} {s : σ} {r : τ} (h : step s = .ok (.inr r))
    (fuel : ℕ) : loop step (fuel + 1) s = .ok r := by
  rw [loop, h, ok_bind]
  rfl

/-- A loop that runs through the states `f 0, …, f n` and stops there. -/
theorem loop_run {step : σ → Checked (σ ⊕ τ)} (f : ℕ → σ) {r : τ} {n : ℕ}
    (hnext : ∀ i < n, step (f i) = .ok (.inl (f (i + 1)))) (hstop : step (f n) = .ok (.inr r))
    {fuel : ℕ} (hf : n < fuel) : loop step fuel (f 0) = .ok r := by
  induction n generalizing f fuel with
  | zero =>
    obtain ⟨fuel, rfl⟩ := Nat.exists_eq_succ_of_ne_zero (Nat.ne_zero_of_lt hf)
    exact loop_stop hstop fuel
  | succ n ih =>
    obtain ⟨fuel, rfl⟩ := Nat.exists_eq_succ_of_ne_zero (Nat.ne_zero_of_lt hf)
    rw [loop_next (hnext 0 (Nat.succ_pos n))]
    exact ih (fun i => f (i + 1)) (fun i hi => hnext (i + 1) (Nat.succ_lt_succ hi)) hstop
      (Nat.lt_of_succ_lt_succ hf)

end TuiTetris.LibChecked
