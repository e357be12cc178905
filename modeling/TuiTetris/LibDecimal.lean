import Mathlib.Data.List.Basic

set_option autoImplicit false

/-!
# Decimal numbers of bounded integer types

Printing, and parsing as the integer types of the source do it: an optional
sign, then digits, with an overflow reported at the digit that causes it.
-/
namespace TuiTetris.LibDecimal

inductive IntErrorKind where
  | Empty | InvalidDigit | PosOverflow | NegOverflow
  deriving DecidableEq, Repr

def IntErrorKind.message : IntErrorKind → String
  | .Empty => "cannot parse integer from empty string"
  | .InvalidDigit => "invalid digit found in string"
  | .PosOverflow => "number too large to fit in target type"
  | .NegOverflow => "number too small to fit in target type"

def decimal (n : ℕ) : List Char := Nat.toDigits 10 n

def decimalInt (i : Int) : List Char :=
  if i < 0 then '-' :: decimal i.natAbs else decimal i.natAbs

/-- The digit loop, for a magnitude of at most `limit`. -/
def accumulate (limit : ℕ) (overflow : IntErrorKind) : ℕ → List Char → Except IntErrorKind ℕ
  | r, [] => .ok r
  | r, c :: cs =>
    if c.isDigit then
      let next := 10 * r + (c.toNat - '0'.toNat)
      if limit < next then .error overflow else accumulate limit overflow next cs
    else .error .InvalidDigit

def parseUnsigned (max : ℕ) : List Char → Except IntErrorKind ℕ
  | [] => .error .Empty
  | ['+'] | ['-'] => .error .InvalidDigit
  | '+' :: cs => accumulate max .PosOverflow 0 cs
  | cs => accumulate max .PosOverflow 0 cs

/-- `min` is the magnitude of the least value of the type. -/
def parseSigned (max min : ℕ) : List Char → Except IntErrorKind Int
  | [] => .error .Empty
  | ['+'] | ['-'] => .error .InvalidDigit
  | '+' :: cs => (accumulate max .PosOverflow 0 cs).map Int.ofNat
  | '-' :: cs => (accumulate min .NegOverflow 0 cs).map fun n => -Int.ofNat n
  | cs => (accumulate max .PosOverflow 0 cs).map Int.ofNat

theorem isDigit_decimal {n : ℕ} {c : Char} (h : c ∈ decimal n) : c.isDigit = true :=
  Nat.isDigit_of_mem_toDigits (by decide) (by decide) h

theorem decimal_ne_nil (n : ℕ) : decimal n ≠ [] := Nat.toDigits_ne_nil

theorem ofDigitChars_ge (cs : List Char) (r : ℕ) : r ≤ Nat.ofDigitChars 10 cs r := by
  induction cs generalizing r with
  | nil => exact Nat.le_of_eq Nat.ofDigitChars_nil.symm
  | cons c cs ih =>
    rw [Nat.ofDigitChars_cons]
    have h := ih (10 * r + (c.toNat - '0'.toNat))
    omega

theorem accumulate_digits (limit : ℕ) (overflow : IntErrorKind) (cs : List Char) (r : ℕ)
    (hd : ∀ c ∈ cs, c.isDigit = true) (hl : Nat.ofDigitChars 10 cs r ≤ limit) :
    accumulate limit overflow r cs = .ok (Nat.ofDigitChars 10 cs r) := by
  induction cs generalizing r with
  | nil => rw [accumulate, Nat.ofDigitChars_nil]
  | cons c cs ih =>
    rw [Nat.ofDigitChars_cons] at hl ⊢
    have hge := ofDigitChars_ge cs (10 * r + (c.toNat - '0'.toNat))
    have hnext : ¬limit < 10 * r + (c.toNat - '0'.toNat) := by omega
    simp only [accumulate, hd c List.mem_cons_self, if_true, hnext, if_false]
    exact ih _ (fun d h => hd d (List.mem_cons_of_mem _ h)) hl

theorem accumulate_decimal (limit : ℕ) (overflow : IntErrorKind) (n : ℕ) (h : n ≤ limit) :
    accumulate limit overflow 0 (decimal n) = .ok n := by
  have hn : Nat.ofDigitChars 10 (decimal n) 0 = n :=
    Nat.ofDigitChars_toDigits (by decide) (by decide)
  rw [accumulate_digits limit overflow (decimal n) 0 (fun c hc => isDigit_decimal hc) (by omega), hn]

theorem decimal_cons (n : ℕ) : ∃ c cs, decimal n = c :: cs ∧ c ≠ '+' ∧ c ≠ '-' := by
  obtain ⟨c, cs, hc⟩ := List.exists_cons_of_ne_nil (decimal_ne_nil n)
  have hd : c.isDigit = true := isDigit_decimal (hc ▸ List.mem_cons_self)
  refine ⟨c, cs, hc, ?_, ?_⟩ <;> rintro rfl <;> exact absurd hd (by decide)

theorem parseUnsigned_digits (max : ℕ) {cs : List Char} (hne : cs ≠ [])
    (hd : ∀ c ∈ cs, c.isDigit = true) (hl : Nat.ofDigitChars 10 cs 0 ≤ max) :
    parseUnsigned max cs = .ok (Nat.ofDigitChars 10 cs 0) := by
  have hplus : '+' ∉ cs := fun h => absurd (hd '+' h) (by decide)
  have hminus : '-' ∉ cs := fun h => absurd (hd '-' h) (by decide)
  unfold parseUnsigned
  split
  · exact absurd rfl hne
  · simp at hplus
  · simp at hminus
  · simp at hplus
  · exact accumulate_digits max .PosOverflow cs 0 hd hl

theorem parseUnsigned_decimal (max n : ℕ) (h : n ≤ max) :
    parseUnsigned max (decimal n) = .ok n := by
  have hn : Nat.ofDigitChars 10 (decimal n) 0 = n :=
    Nat.ofDigitChars_toDigits (by decide) (by decide)
  have hp := parseUnsigned_digits max (decimal_ne_nil n) (fun c hc => isDigit_decimal hc) (by omega)
  rwa [hn] at hp

theorem parseSigned_decimalInt (max min : ℕ) (i : Int) (hl : -(min : Int) ≤ i)
    (hu : i ≤ (max : Int)) : parseSigned max min (decimalInt i) = .ok i := by
  unfold decimalInt
  split
  · next hneg =>
    have ha := accumulate_decimal min .NegOverflow i.natAbs (by omega)
    obtain ⟨c, cs, hc, -, -⟩ := decimal_cons i.natAbs
    rw [hc] at ha ⊢
    have hp : parseSigned max min ('-' :: c :: cs) =
        (accumulate min .NegOverflow 0 (c :: cs)).map fun n => -Int.ofNat n := rfl
    rw [hp, ha]
    change Except.ok (-Int.ofNat i.natAbs) = Except.ok i
    congr 1
    simp only [Int.ofNat_eq_natCast]
    omega
  · next hpos =>
    have ha := accumulate_decimal max .PosOverflow i.natAbs (by omega)
    obtain ⟨c, cs, hc, hp, hm⟩ := decimal_cons i.natAbs
    have hi : Int.ofNat i.natAbs = i := by
      simp only [Int.ofNat_eq_natCast]
      omega
    rw [hc] at ha ⊢
    unfold parseSigned
    split
    · next he => cases he
    · next he => exact absurd (List.cons.inj he).1 hp
    · next he => exact absurd (List.cons.inj he).1 hm
    · next he => exact absurd (List.cons.inj he).1 hp
    · next he => exact absurd (List.cons.inj he).1 hm
    · rw [ha]
      exact congrArg Except.ok hi

theorem decimalInt_chars {i : Int} {c : Char} (h : c ∈ decimalInt i) :
    c.isDigit = true ∨ c = '-' := by
  unfold decimalInt at h
  split at h
  · rcases List.mem_cons.mp h with h | h
    · exact .inr h
    · exact .inl (isDigit_decimal h)
  · exact .inl (isDigit_decimal h)

end TuiTetris.LibDecimal
