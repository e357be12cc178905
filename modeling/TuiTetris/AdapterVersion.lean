import Mathlib.Data.List.TakeWhile
import TuiTetris.AdapterMessages
import TuiTetris.LibLanguage

set_option autoImplicit false

/-!
# The grammar of protocol versions

`protocolVersionPattern` is the pattern of the schema for a hello; the check of
the source splits the text at plus, at the first hyphen and at dots instead.
-/
namespace TuiTetris.AdapterVersion
open LibDecimal LibLanguage LibText AdapterMessages
open scoped Computability

/-! ## The pattern -/

def nonzeroDigit (c : Char) : Bool := c.isDigit && c != '0'

def letterOrHyphen (c : Char) : Bool := c.isAlpha || c = '-'

def identifierChar (c : Char) : Bool := c.isAlphanum || c = '-'

/-- `0|[1-9][0-9]*` -/
def numeric : Language Char := {['0']} + oneOf nonzeroDigit * (oneOf Char.isDigit)∗

/-- `0|[1-9][0-9]*|[0-9]*[A-Za-z-][0-9A-Za-z-]*` -/
def identifier : Language Char :=
  numeric + (oneOf Char.isDigit)∗ * (oneOf letterOrHyphen * (oneOf identifierChar)∗)

/-- `[0-9A-Za-z-]+` -/
def buildIdentifier : Language Char := oneOf identifierChar * (oneOf identifierChar)∗

def coreVersionPattern : Language Char :=
  {['3']} * ({['.']} * (numeric * ({['.']} * numeric)))

def releasePattern : Language Char :=
  coreVersionPattern * optional ({['-']} * separated '.' identifier)

def protocolVersionPattern : Language Char :=
  releasePattern * optional ({['+']} * separated '.' buildIdentifier)

/-! ## Identifiers -/

theorem identifierChar_cases {c : Char} (h : identifierChar c = true) :
    letterOrHyphen c = true ∨ c.isDigit = true := by
  unfold identifierChar Char.isAlphanum at h
  unfold letterOrHyphen
  cases hd : c.isDigit <;> simp_all

theorem identifierChar_digit {c : Char} (h : c.isDigit = true) : identifierChar c = true := by
  simp [identifierChar, Char.isAlphanum, h]

theorem identifierChar_letter {c : Char} (h : letterOrHyphen c = true) :
    identifierChar c = true := by
  unfold letterOrHyphen at h
  unfold identifierChar Char.isAlphanum
  cases ha : c.isAlpha <;> simp_all

theorem isAlpha_toNat {c : Char} (h : c.isAlpha = true) : 'A'.toNat ≤ c.toNat := by
  rcases (Bool.or_eq_true c.isUpper c.isLower).mp h with hu | hl
  · exact UInt32.le_iff_toNat_le.mp (of_decide_eq_true hu).1
  · have hle : 'a'.val ≤ c.val := of_decide_eq_true ((Bool.and_eq_true _ _).mp hl).1
    exact Nat.le_trans (by decide) (UInt32.le_iff_toNat_le.mp hle)

theorem letterOrHyphen_digit {c : Char} (h : letterOrHyphen c = true) : c.isDigit = false := by
  apply Bool.eq_false_iff.mpr
  intro hd
  rcases (Bool.or_eq_true _ _).mp h with ha | hhyphen
  · have hA : 'A'.toNat = 65 := rfl
    have h9 : '9'.toNat = 57 := rfl
    have hle := isAlpha_toNat ha
    have hdigit := (Char.isDigit_iff_toNat.mp hd).2
    omega
  · rw [of_decide_eq_true hhyphen] at hd
    cases hd

/-- A number is its digits without a leading zero. -/
theorem mem_numeric (value : Text) : value ∈ numeric ↔
    value ≠ [] ∧ (∀ c ∈ value, c.isDigit = true) ∧ (value.length = 1 ∨ value.head? ≠ some '0') := by
  change value = ['0'] ∨ value ∈ oneOf nonzeroDigit * (oneOf Char.isDigit)∗ ↔ _
  rw [mem_oneOf_mul]
  constructor
  · rintro (rfl | ⟨c, cs, rfl, hc, hcs⟩)
    · exact ⟨by simp, by simp, .inl rfl⟩
    · obtain ⟨hd, h0⟩ := Bool.and_eq_true_iff.mp hc
      rw [mem_oneOf_star] at hcs
      exact ⟨by simp, by simpa using ⟨hd, hcs⟩, .inr (by simpa using h0)⟩
  · rintro ⟨hne, hd, hzero⟩
    obtain ⟨c, cs, rfl⟩ := List.exists_cons_of_ne_nil hne
    have hc := hd c List.mem_cons_self
    have hcs : cs ∈ (oneOf Char.isDigit)∗ :=
      mem_oneOf_star.mpr fun d h => hd d (List.mem_cons_of_mem _ h)
    by_cases h0 : c = '0'
    · subst h0
      simp at hzero
      exact .inl (by rw [hzero])
    · exact .inr ⟨c, cs, rfl, by simp [nonzeroDigit, hc, h0], hcs⟩

theorem mem_identifier (value : Text) : value ∈ identifier ↔
    value ≠ [] ∧ (∀ c ∈ value, identifierChar c = true) ∧
      ((∃ c ∈ value, c.isDigit = false) ∨ value.length = 1 ∨ value.head? ≠ some '0') := by
  change value ∈ numeric ∨ value ∈ (oneOf Char.isDigit)∗ * _ ↔ _
  rw [mem_numeric, Language.mem_mul]
  constructor
  · rintro (⟨hne, hd, hzero⟩ | ⟨ds, hds, v, hv, rfl⟩)
    · exact ⟨hne, fun c hc => identifierChar_digit (hd c hc), .inr hzero⟩
    · obtain ⟨c, cs, rfl, hc, hcs⟩ := mem_oneOf_mul.mp hv
      rw [mem_oneOf_star] at hds hcs
      refine ⟨by simp, ?_, .inl ⟨c, by simp, letterOrHyphen_digit hc⟩⟩
      intro d hd
      rcases List.mem_append.mp hd with hd | hd
      · exact identifierChar_digit (hds d hd)
      · rcases List.mem_cons.mp hd with rfl | hd
        · exact identifierChar_letter hc
        · exact hcs d hd
  · rintro ⟨hne, hall, hzero⟩
    by_cases hd : ∀ c ∈ value, c.isDigit = true
    · refine .inl ⟨hne, hd, hzero.resolve_left ?_⟩
      rintro ⟨c, hc, hn⟩
      rw [hd c hc] at hn
      cases hn
    · -- the digits before the first letter or hyphen are the prefix of the word
      refine .inr ⟨value.takeWhile Char.isDigit, ?_, value.dropWhile Char.isDigit, ?_,
        List.takeWhile_append_dropWhile⟩
      · exact mem_oneOf_star.mpr fun c hc => List.mem_takeWhile_imp hc
      · cases hdrop : value.dropWhile Char.isDigit with
        | nil => exact absurd (List.dropWhile_eq_nil_iff.mp hdrop) hd
        | cons c cs =>
          have hsub : ∀ d ∈ c :: cs, identifierChar d = true := fun d h =>
            hall d ((List.dropWhile_sublist _).mem (hdrop ▸ h))
          have hc : c.isDigit = false := by
            have := List.head_dropWhile_not Char.isDigit (l := value) (by simp [hdrop])
            simpa [hdrop] using this
          refine mem_oneOf_mul.mpr ⟨c, cs, rfl, ?_, ?_⟩
          · exact (identifierChar_cases (hsub c List.mem_cons_self)).resolve_right (by simp [hc])
          · exact mem_oneOf_star.mpr fun d h => hsub d (List.mem_cons_of_mem _ h)

theorem mem_buildIdentifier (value : Text) : value ∈ buildIdentifier ↔
    value ≠ [] ∧ ∀ c ∈ value, identifierChar c = true := by
  unfold buildIdentifier
  rw [mem_oneOf_mul]
  constructor
  · rintro ⟨c, cs, rfl, hc, hcs⟩
    rw [mem_oneOf_star] at hcs
    exact ⟨by simp, by simpa using ⟨hc, hcs⟩⟩
  · rintro ⟨hne, hall⟩
    obtain ⟨c, cs, rfl⟩ := List.exists_cons_of_ne_nil hne
    exact ⟨c, cs, rfl, hall c List.mem_cons_self,
      mem_oneOf_star.mpr fun d h => hall d (List.mem_cons_of_mem _ h)⟩

theorem identifier_chars {value : Text} (h : value ∈ identifier) :
    ∀ c ∈ value, identifierChar c = true := ((mem_identifier value).mp h).2.1

theorem buildIdentifier_chars {value : Text} (h : value ∈ buildIdentifier) :
    ∀ c ∈ value, identifierChar c = true := ((mem_buildIdentifier value).mp h).2

/-- The identifiers that the check accepts between dots. -/
def identifiers (rejectNumericLeadingZero : Bool) : Language Char :=
  if rejectNumericLeadingZero then identifier else buildIdentifier

theorem identifiers_chars {strict : Bool} {value : Text} (h : value ∈ identifiers strict) :
    ∀ c ∈ value, identifierChar c = true := by
  cases strict with
  | false => exact buildIdentifier_chars h
  | true => exact identifier_chars h

theorem validIdentifiers_iff (value : Text) (strict : Bool) :
    validIdentifiers value strict = true ↔ value ∈ separated '.' (identifiers strict) := by
  have hdot : ∀ f ∈ identifiers strict, '.' ∉ f := by
    intro f hf hmem
    exact absurd (identifiers_chars hf '.' hmem) (by decide)
  have hfield : ∀ f : Text, (!f.isEmpty && f.all (fun c => c.isAlphanum || c = '-') &&
      (!strict || !f.all Char.isDigit || f.length = 1 || f.head? ≠ some '0')) = true ↔
        f ∈ identifiers strict := by
    intro f
    cases strict with
    | false =>
      change _ ↔ f ∈ buildIdentifier
      rw [mem_buildIdentifier]
      simp [identifierChar]
    | true =>
      change _ ↔ f ∈ identifier
      rw [mem_identifier]
      simp [identifierChar, and_assoc, or_assoc]
  have hempty : validIdentifiers value strict = true ↔ ∀ f ∈ value.splitOn '.', f ∈ identifiers strict := by
    unfold validIdentifiers
    rw [Bool.and_eq_true, List.all_eq_true]
    simp only [hfield]
    refine and_iff_right_of_imp fun hall => ?_
    cases value with
    | nil =>
      have hnil : [] ∈ identifiers strict := hall [] (by simp)
      cases strict with
      | false => exact absurd rfl ((mem_buildIdentifier []).mp hnil).1
      | true => exact absurd rfl ((mem_identifier []).mp hnil).1
    | cons c cs => rfl
  rw [hempty, mem_separated_iff hdot]

/-! ## The core of a version -/

theorem parseNumeric_numeric {value : Text} (h : value ∈ numeric)
    (hfit : Nat.ofDigitChars 10 value 0 < 2 ^ 64) :
    parseNumeric value = some (Nat.ofDigitChars 10 value 0) := by
  obtain ⟨hne, hd, hzero⟩ := (mem_numeric value).mp h
  have hcheck : (value.isEmpty || !value.all Char.isDigit ||
      (value.length > 1 && value.head? = some '0')) = false := by
    have hall : value.all Char.isDigit = true := List.all_eq_true.mpr hd
    rcases hzero with h1 | h0
    · simp [hne, hall, h1]
    · simp [hne, hall, h0]
  unfold parseNumeric
  rw [hcheck, if_neg (by decide), parseUnsigned_digits _ hne hd (by omega)]
  rfl

theorem numeric_parseNumeric {value : Text} (h : (parseNumeric value).isSome = true) :
    value ∈ numeric := by
  unfold parseNumeric at h
  split at h
  · cases h
  · next hcheck =>
    rw [mem_numeric]
    simp only [Bool.or_eq_true, Bool.and_eq_true, Bool.not_eq_true', decide_eq_true_eq, not_or,
      not_and, List.isEmpty_iff, Bool.not_eq_false, List.all_eq_true] at hcheck
    obtain ⟨⟨hne, hd⟩, hzero⟩ := hcheck
    have hlen := List.length_pos_of_ne_nil hne
    refine ⟨hne, hd, ?_⟩
    by_cases h1 : value.length = 1
    · exact .inl h1
    · exact .inr (hzero (by omega))

/-- Only one numeral of the grammar has the value three. -/
theorem numeric_three {value : Text} (h : value ∈ numeric) :
    Nat.ofDigitChars 10 value 0 = 3 ↔ value = ['3'] := by
  refine ⟨fun hv => ?_, fun hv => by rw [hv]; rfl⟩
  rcases h with rfl | h
  · cases hv
  · obtain ⟨c, cs, rfl, hc, hcs⟩ := mem_oneOf_mul.mp h
    obtain ⟨hd, h0⟩ := Bool.and_eq_true_iff.mp hc
    have hlow : '0'.toNat < c.toNat := by
      refine Nat.lt_of_le_of_ne (Char.isDigit_iff_toNat.mp hd).1 fun he => ?_
      rw [← Char.toNat_inj.mp he] at h0
      cases h0
    rw [Nat.ofDigitChars_cons] at hv
    cases cs with
    | nil =>
      rw [Nat.ofDigitChars_nil] at hv
      have h3 : c.toNat = '3'.toNat := by
        have hzero : '0'.toNat = 48 := rfl
        have hthree : '3'.toNat = 51 := rfl
        omega
      rw [Char.toNat_inj.mp h3]
    | cons d ds =>
      rw [Nat.ofDigitChars_cons] at hv
      have hge := ofDigitChars_ge ds (10 * (10 * 0 + (c.toNat - '0'.toNat)) + (d.toNat - '0'.toNat))
      omega

theorem digit_numeric {c : Char} (h : c.isDigit = true) : [c] ∈ numeric :=
  (mem_numeric [c]).mpr ⟨by simp, by simpa using h, .inl rfl⟩

theorem numeric_digits {value : Text} (h : value ∈ numeric) : ∀ c ∈ value, c.isDigit = true :=
  ((mem_numeric value).mp h).2.1

/-- The check of the numeric core. -/
def acceptsCore (core : Text) : Bool :=
  match core.splitOn '.' with
  | [major, minor, patch] =>
    parseNumeric major = some 3 && (parseNumeric minor).isSome && (parseNumeric patch).isSome
  | _ => false

/-- The numeric components of the core are values of `u64`. -/
def ComponentsFit (core : Text) : Prop :=
  ∀ f ∈ core.splitOn '.', f.all Char.isDigit = true → Nat.ofDigitChars 10 f 0 < 2 ^ 64

theorem mem_coreVersion (core : Text) : core ∈ coreVersionPattern ↔
    ∃ minor patch, minor ∈ numeric ∧ patch ∈ numeric ∧
      core = joinWith '.' [['3'], minor, patch] := by
  unfold coreVersionPattern
  rw [mem_letter_mul]
  constructor
  · rintro ⟨u, hu, rfl⟩
    obtain ⟨v, hv, rfl⟩ := mem_letter_mul.mp hu
    obtain ⟨minor, hminor, w, hw, rfl⟩ := Language.mem_mul.mp hv
    obtain ⟨patch, hpatch, rfl⟩ := mem_letter_mul.mp hw
    exact ⟨minor, patch, hminor, hpatch, by simp [joinWith, List.intercalate_cons_cons]⟩
  · rintro ⟨minor, patch, hminor, hpatch, rfl⟩
    refine ⟨'.' :: (minor ++ '.' :: patch), ?_, by simp [joinWith, List.intercalate_cons_cons]⟩
    refine mem_letter_mul.mpr ⟨_, ?_, rfl⟩
    exact Language.mem_mul.mpr
      ⟨minor, hminor, _, mem_letter_mul.mpr ⟨patch, hpatch, rfl⟩, rfl⟩

theorem acceptsCore_iff {core : Text} (hfit : ComponentsFit core) :
    acceptsCore core = true ↔ core ∈ coreVersionPattern := by
  have hvalue : ∀ f ∈ core.splitOn '.', f ∈ numeric →
      parseNumeric f = some (Nat.ofDigitChars 10 f 0) := fun f hf hn =>
    parseNumeric_numeric hn (hfit f hf (List.all_eq_true.mpr (numeric_digits hn)))
  rw [mem_coreVersion]
  unfold acceptsCore
  constructor
  · intro h
    split at h
    · next major minor patch hsplit =>
      simp only [Bool.and_eq_true, decide_eq_true_eq] at h
      obtain ⟨⟨hmajor, hminor⟩, hpatch⟩ := h
      have hm : major ∈ numeric := numeric_parseNumeric (by rw [hmajor]; rfl)
      rw [hvalue major (by rw [hsplit]; simp) hm, Option.some.injEq, numeric_three hm] at hmajor
      refine ⟨minor, patch, numeric_parseNumeric hminor, numeric_parseNumeric hpatch, ?_⟩
      rw [← hmajor, ← hsplit]
      exact (List.intercalate_splitOn '.').symm
    · cases h
  · rintro ⟨minor, patch, hminor, hpatch, rfl⟩
    have hdot : ∀ f ∈ [['3'], minor, patch], '.' ∉ f := by
      have hnodot : ∀ f : Text, (∀ c ∈ f, c.isDigit = true) → '.' ∉ f := fun f hd hm =>
        absurd (hd '.' hm) (by decide)
      simp only [List.mem_cons, List.not_mem_nil, or_false]
      rintro f (rfl | rfl | rfl)
      · decide
      · exact hnodot f (numeric_digits hminor)
      · exact hnodot f (numeric_digits hpatch)
    have hsplit := splitOn_joinWith hdot (by simp)
    rw [hsplit] at hvalue ⊢
    have h3 : ['3'] ∈ numeric := digit_numeric rfl
    simp only [hvalue ['3'] (by simp) h3, hvalue minor (by simp) hminor, hvalue patch (by simp) hpatch,
      (numeric_three h3).mpr rfl]
    rfl

/-! ## Hyphen and plus -/

/-- Letters of a version without build metadata. -/
def releaseChar (c : Char) : Bool := identifierChar c || c = '.'

theorem separated_chars (strict : Bool) {value : Text}
    (h : value ∈ separated '.' (identifiers strict)) : ∀ c ∈ value, releaseChar c = true := by
  intro c hc
  unfold releaseChar
  rcases mem_of_separated h hc with rfl | ⟨f, hf, hmem⟩
  · rfl
  · rw [identifiers_chars hf c hmem, Bool.true_or]

theorem coreVersion_chars {core : Text} (h : core ∈ coreVersionPattern) :
    ∀ c ∈ core, c.isDigit = true ∨ c = '.' := by
  obtain ⟨minor, patch, hminor, hpatch, rfl⟩ := (mem_coreVersion core).mp h
  intro c hc
  by_cases hdot : c = '.'
  · exact .inr hdot
  · obtain ⟨f, hf, hmem⟩ := mem_joinWith hdot hc
    refine .inl ?_
    simp only [List.mem_cons, List.not_mem_nil, or_false] at hf
    rcases hf with rfl | rfl | rfl
    · rw [List.mem_singleton.mp hmem]
      rfl
    · exact numeric_digits hminor c hmem
    · exact numeric_digits hpatch c hmem

theorem coreVersion_hyphen {core : Text} (h : core ∈ coreVersionPattern) : '-' ∉ core := by
  intro hm
  rcases coreVersion_chars h '-' hm with hc | hc <;> exact absurd hc (by decide)

theorem release_chars {base : Text} (h : base ∈ releasePattern) :
    ∀ c ∈ base, releaseChar c = true := by
  obtain ⟨core, hcore, rest, hrest, rfl⟩ := Language.mem_mul.mp h
  intro c hc
  rcases List.mem_append.mp hc with hc | hc
  · unfold releaseChar
    rcases coreVersion_chars hcore c hc with hd | rfl
    · rw [identifierChar_digit hd, Bool.true_or]
    · rfl
  · rcases hrest with rfl | hrest
    · cases hc
    · obtain ⟨prerelease, hpre, rfl⟩ := mem_letter_mul.mp hrest
      rcases List.mem_cons.mp hc with rfl | hc
      · rfl
      · exact separated_chars true hpre c hc

theorem splitOnce_absent {sep : Char} {text : Text} (h : sep ∉ text) : splitOnce sep text = none :=
  if_neg h

theorem splitOnce_first {sep : Char} {u : Text} (h : sep ∉ u) (v : Text) :
    splitOnce sep (u ++ sep :: v) = some (u, v) := by
  have hu : ∀ c ∈ u, (decide (c ≠ sep)) = true := by
    intro c hc
    rw [decide_eq_true_iff]
    rintro rfl
    exact h hc
  unfold splitOnce
  rw [if_pos (by simp), List.takeWhile_append_of_pos hu, List.dropWhile_append_of_pos hu]
  simp

/-- The check of a version without build metadata. -/
def acceptsRelease (base : Text) : Bool :=
  match coreVersion base with
  | none => false
  | some core => acceptsCore core

/-- What comes before the pre-release and the build. -/
def coreOf (version : Text) : Text := version.takeWhile fun c => c ≠ '-' && c ≠ '+'

theorem coreOf_marked {mark : Char} (h : mark = '-' ∨ mark = '+') (u v : Text) :
    coreOf (u ++ mark :: v) = coreOf u := by
  induction u with
  | nil => rcases h with rfl | rfl <;> rfl
  | cons c u ih =>
    unfold coreOf at ih ⊢
    rw [List.cons_append, List.takeWhile_cons, List.takeWhile_cons, ih]

theorem coreOf_plain {u : Text} (hminus : '-' ∉ u) (hplus : '+' ∉ u) : coreOf u = u := by
  refine List.takeWhile_eq_self_iff.mpr fun c hc => ?_
  have hm : c ≠ '-' := fun he => hminus (he ▸ hc)
  have hp : c ≠ '+' := fun he => hplus (he ▸ hc)
  simp [hm, hp]

theorem acceptsRelease_iff {base : Text} (hplus : '+' ∉ base) (hfit : ComponentsFit (coreOf base)) :
    acceptsRelease base = true ↔ base ∈ releasePattern := by
  unfold acceptsRelease coreVersion releasePattern
  by_cases hm : '-' ∈ base
  · obtain ⟨u, v, rfl, hu⟩ := List.eq_append_cons_of_mem hm
    have hu' : '+' ∉ u := fun h => hplus (List.mem_append_left _ h)
    rw [coreOf_marked (.inl rfl), coreOf_plain hu hu'] at hfit
    have hpre : validIdentifiers v true = true ↔ v ∈ separated '.' identifier :=
      validIdentifiers_iff v true
    rw [splitOnce_first hu, mem_marked (fun w hw => coreVersion_hyphen hw) hu, ← acceptsCore_iff hfit,
      ← hpre]
    cases hv : validIdentifiers v true <;> simp [hv]
  · rw [coreOf_plain hm hplus] at hfit
    rw [splitOnce_absent hm, mem_unmarked hm]
    exact acceptsCore_iff hfit

theorem separated_plus (strict : Bool) {value : Text}
    (h : value ∈ separated '.' (identifiers strict)) : '+' ∉ value := fun hm =>
  absurd (separated_chars strict h '+' hm) (by decide)

/-- The check of the parts between plus signs after the first. -/
def validBuild : List Text → Bool
  | [] => true
  | [build] => validIdentifiers build false
  | _ => false

theorem validBuild_iff (rest : Text) : validBuild (rest.splitOn '+') = true ↔
    rest ∈ separated '.' buildIdentifier := by
  by_cases hm : '+' ∈ rest
  · obtain ⟨u, v, rfl, hu⟩ := List.eq_append_cons_of_mem hm
    rw [List.splitOn_append_cons_self_of_not_mem hu]
    obtain ⟨f, fs, hsplit⟩ := List.exists_cons_of_ne_nil (List.splitOn_ne_nil '+' v)
    rw [hsplit]
    exact ⟨fun h => (nomatch h), fun h => absurd hm (separated_plus false h)⟩
  · rw [List.splitOn_eq_singleton hm]
    exact validIdentifiers_iff rest false

/-- For every text whose core components are values of `u64`, the check accepts the text exactly
when it is a word of the pattern. -/
theorem compatible_iff_pattern (version : Text) (hfit : ComponentsFit (coreOf version)) :
    isCompatibleProtocolVersion version = true ↔ version ∈ protocolVersionPattern := by
  have hcheck : isCompatibleProtocolVersion version =
      (validBuild (version.splitOn '+').tail && acceptsRelease ((version.splitOn '+').headD [])) := rfl
  rw [hcheck]
  unfold protocolVersionPattern
  by_cases hm : '+' ∈ version
  · obtain ⟨base, rest, rfl, hbase⟩ := List.eq_append_cons_of_mem hm
    have hrelease : ∀ w ∈ releasePattern, '+' ∉ w := fun w hw hmem =>
      absurd (release_chars hw '+' hmem) (by decide)
    rw [coreOf_marked (.inr rfl)] at hfit
    rw [List.splitOn_append_cons_self_of_not_mem hbase, mem_marked hrelease hbase,
      ← acceptsRelease_iff hbase hfit, ← validBuild_iff, Bool.and_eq_true, and_comm]
    rfl
  · rw [List.splitOn_eq_singleton hm, mem_unmarked hm, ← acceptsRelease_iff hm hfit]
    rfl

theorem compatible_iff_pattern_beta :
    isCompatibleProtocolVersion ['3', '.', '1', '.', '0', '-', 'b', 'e', 't', 'a', '.', '1'] = true ↔
      ['3', '.', '1', '.', '0', '-', 'b', 'e', 't', 'a', '.', '1'] ∈ protocolVersionPattern :=
  compatible_iff_pattern _ (by unfold ComponentsFit; decide)

end TuiTetris.AdapterVersion
