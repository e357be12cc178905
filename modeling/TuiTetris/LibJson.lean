import TuiTetris.LibDecimal
import TuiTetris.LibText

set_option autoImplicit false

/-!
# JSON

Values, their compact text and a reader of texts. A string remembers whether its text
had escapes in it, and a number that is no integer of 64 bits keeps its text.
-/
namespace TuiTetris.LibJson
open LibDecimal LibText

inductive Json where
  | null
  | bool (b : Bool)
  | int (n : Int)
  | float (lexeme : Text)
  | str (escaped : Bool) (s : Text)
  | arr (items : List Json)
  | obj (members : List (Text × Json))

/-! ## Printing -/

def hexDigit (n : ℕ) : Char := if n < 10 then Char.ofNat (48 + n) else Char.ofNat (87 + n)

def escape (c : Char) : Text :=
  if c = '"' then ['\\', '"']
  else if c = '\\' then ['\\', '\\']
  else if c = '\n' then ['\\', 'n']
  else if c = '\r' then ['\\', 'r']
  else if c = '\t' then ['\\', 't']
  else if c.toNat = 8 then ['\\', 'b']
  else if c.toNat = 12 then ['\\', 'f']
  else if c.toNat < 32 then ['\\', 'u', '0', '0', hexDigit (c.toNat / 16), hexDigit (c.toNat % 16)]
  else [c]

def needsEscape (s : Text) : Bool := s.any fun c => escape c ≠ [c]

def printStr (s : Text) : Text := '"' :: s.flatMap escape ++ ['"']

namespace Json

/-- A string as the printer writes it. -/
def text (s : Text) : Json := .str (needsEscape s) s

mutual

def print : Json → Text
  | .null => ['n', 'u', 'l', 'l']
  | .bool true => ['t', 'r', 'u', 'e']
  | .bool false => ['f', 'a', 'l', 's', 'e']
  | .int n => decimalInt n
  | .float lexeme => lexeme
  | .str _ s => printStr s
  | .arr [] => ['[', ']']
  | .arr (v :: vs) => '[' :: (print v ++ printItems vs)
  | .obj [] => ['{', '}']
  | .obj ((k, v) :: ms) => '{' :: (printStr k ++ ':' :: (print v ++ printMembers ms))

/-- What follows an item, the closing bracket included. -/
def printItems : List Json → Text
  | [] => [']']
  | v :: vs => ',' :: (print v ++ printItems vs)

def printMembers : List (Text × Json) → Text
  | [] => ['}']
  | (k, v) :: ms => ',' :: (printStr k ++ ':' :: (print v ++ printMembers ms))

end

mutual

/-- The values that are read back as they are. -/
def plain : Json → Bool
  | .null => true
  | .bool _ => true
  | .int n => -9223372036854775808 ≤ n && n < 18446744073709551616
  | .float _ => false
  | .str escaped s => escaped == needsEscape s
  | .arr items => plainItems items
  | .obj members => plainMembers members

def plainItems : List Json → Bool
  | [] => true
  | v :: vs => plain v && plainItems vs

def plainMembers : List (Text × Json) → Bool
  | [] => true
  | (_, v) :: ms => plain v && plainMembers ms

end

end Json

/-! ## Reading -/

def isBlank (c : Char) : Bool := c = ' ' || c = '\n' || c = '\r' || c = '\t'

def skipBlanks (t : Text) : Text := t.dropWhile isBlank

def expect (word t : Text) : Option Text :=
  if word.isPrefixOf t then some (t.drop word.length) else none

def hexValue (c : Char) : Option ℕ :=
  if '0' ≤ c ∧ c ≤ '9' then some (c.toNat - 48)
  else if 'a' ≤ c ∧ c ≤ 'f' then some (c.toNat - 87)
  else if 'A' ≤ c ∧ c ≤ 'F' then some (c.toNat - 55)
  else none

/-- The letter of a one-letter escape. -/
def unescape (c : Char) : Option Char :=
  if c = '"' ∨ c = '\\' ∨ c = '/' then some c
  else if c = 'n' then some '\n'
  else if c = 'r' then some '\r'
  else if c = 't' then some '\t'
  else if c = 'b' then some (Char.ofNat 8)
  else if c = 'f' then some (Char.ofNat 12)
  else none

/-- Escapes of surrogate pairs are not read. -/
def unescapeHex (a b c d : Char) : Option Char := do
  let code := (((← hexValue a) * 16 + (← hexValue b)) * 16 + (← hexValue c)) * 16 + (← hexValue d)
  if 0xd800 ≤ code ∧ code ≤ 0xdfff then none else some (Char.ofNat code)

abbrev Quoted := Bool × Text

/-- The rest of a string after its opening quote. -/
def readStr : Text → Option (Quoted × Text)
  | [] => none
  | '\\' :: 'u' :: x :: y :: z :: w :: t =>
    (unescapeHex x y z w).bind fun ch => (readStr t).map fun r => ((true, ch :: r.1.2), r.2)
  | '\\' :: e :: t =>
    (unescape e).bind fun ch => (readStr t).map fun r => ((true, ch :: r.1.2), r.2)
  | c :: t =>
    if c = '"' then some ((false, []), t)
    else if c.toNat < 32 ∨ c = '\\' then none
    else (readStr t).map fun r => ((r.1.1, c :: r.1.2), r.2)
termination_by structural t => t

def isNumeral (c : Char) : Bool := c.isDigit || c = '-' || c = '+' || c = '.' || c = 'e' || c = 'E'

def digitsThen (next : Text → Bool) (t : Text) : Bool :=
  !(t.takeWhile Char.isDigit).isEmpty && next (t.dropWhile Char.isDigit)

def isExponent : Text → Bool
  | [] => true
  | c :: t =>
    (c = 'e' || c = 'E') && match t with
      | '+' :: t => digitsThen List.isEmpty t
      | '-' :: t => digitsThen List.isEmpty t
      | t => digitsThen List.isEmpty t

def isFloat (t : Text) : Bool :=
  let t := if t.head? = some '-' then t.tail else t
  (t.head? ≠ some '0' || !((t.drop 1).head?.any Char.isDigit)) && digitsThen (fun t =>
    match t with
    | '.' :: t => digitsThen isExponent t
    | t => isExponent t) t

def readNumber (lexeme : Text) : Option Json :=
  match parseSigned 18446744073709551615 9223372036854775808 lexeme with
  | .ok n =>
    if decimalInt n = lexeme then some (.int n)
    else if isFloat lexeme then some (.float lexeme) else none
  | .error _ => if isFloat lexeme then some (.float lexeme) else none

mutual

def readValue : ℕ → Text → Option (Json × Text)
  | 0, _ => none
  | n + 1, t =>
    match skipBlanks t with
    | [] => none
    | c :: t =>
      if c.isDigit || c = '-' then
        (readNumber (c :: t.takeWhile isNumeral)).map fun v => (v, t.dropWhile isNumeral)
      else if c = '"' then (readStr t).map fun r => (.str r.1.1 r.1.2, r.2)
      else if c = '[' then
        if (skipBlanks t).head? = some ']' then some (.arr [], (skipBlanks t).tail)
        else (readItems n t).map fun r => (.arr r.1, r.2)
      else if c = '{' then
        if (skipBlanks t).head? = some '}' then some (.obj [], (skipBlanks t).tail)
        else (readMembers n t).map fun r => (.obj r.1, r.2)
      else if c = 'n' then (expect ['u', 'l', 'l'] t).map fun t => (.null, t)
      else if c = 't' then (expect ['r', 'u', 'e'] t).map fun t => (.bool true, t)
      else if c = 'f' then (expect ['a', 'l', 's', 'e'] t).map fun t => (.bool false, t)
      else none

def readItems : ℕ → Text → Option (List Json × Text)
  | 0, _ => none
  | n + 1, t => do
    let (v, t) ← readValue n t
    match skipBlanks t with
    | ']' :: t => some ([v], t)
    | ',' :: t => (readItems n t).map fun r => (v :: r.1, r.2)
    | _ => none

def readMembers : ℕ → Text → Option (List (Text × Json) × Text)
  | 0, _ => none
  | n + 1, t =>
    match skipBlanks t with
    | '"' :: t => do
      let (k, t) ← readStr t
      match skipBlanks t with
      | ':' :: t => do
        let (v, t) ← readValue n t
        match skipBlanks t with
        | '}' :: t => some ([(k.2, v)], t)
        | ',' :: t => (readMembers n t).map fun r => ((k.2, v) :: r.1, r.2)
        | _ => none
      | _ => none
    | _ => none

end

/-- One value and nothing after it. -/
def read (t : Text) : Option Json :=
  match readValue (t.length + 1) t with
  | some (v, rest) => if (skipBlanks rest).isEmpty then some v else none
  | none => none

/-! ## Reading what was printed -/

theorem hexValue_hexDigit : ∀ d < 16, hexValue (hexDigit d) = some d := by decide

theorem readStr_escape (c : Char) (t : Text) : readStr (escape c ++ t) =
    (readStr t).map fun r => ((escape c ≠ [c] || r.1.1, c :: r.1.2), r.2) := by
  unfold escape
  split
  · next h => subst h; rfl
  split
  · next h => subst h; rfl
  split
  · next h => subst h; rfl
  split
  · next h => subst h; rfl
  split
  · next h => subst h; rfl
  split
  · next h =>
    have hc : c = Char.ofNat 8 := (Char.ofNat_toNat c).symm.trans (congrArg Char.ofNat h)
    subst hc; rfl
  split
  · next h =>
    have hc : c = Char.ofNat 12 := (Char.ofNat_toNat c).symm.trans (congrArg Char.ofNat h)
    subst hc; rfl
  split
  · next h =>
    have hhi := hexValue_hexDigit (c.toNat / 16) (by omega)
    have hlo := hexValue_hexDigit (c.toNat % 16) (by omega)
    have hcode : ((0 * 16 + 0) * 16 + c.toNat / 16) * 16 + c.toNat % 16 = c.toNat := by omega
    have hchar : unescapeHex '0' '0' (hexDigit (c.toNat / 16)) (hexDigit (c.toNat % 16)) = some c := by
      have h0 : hexValue '0' = some 0 := by decide
      unfold unescapeHex
      simp only [h0, hhi, hlo, Option.bind_eq_bind, Option.bind_some, hcode]
      rw [if_neg (by omega), Char.ofNat_toNat]
    change (unescapeHex '0' '0' (hexDigit (c.toNat / 16)) (hexDigit (c.toNat % 16))).bind _ = _
    rw [hchar, Option.bind_some]
    simp
  · next hquote hslash _ _ _ _ _ hctl =>
    have hread : readStr (c :: t) = if c = '"' then some ((false, []), t)
        else if c.toNat < 32 ∨ c = '\\' then none
        else (readStr t).map fun r => ((r.1.1, c :: r.1.2), r.2) := by
      rw [readStr]
      · rintro x y z w t rfl
        exact absurd rfl hslash
      · rintro e t rfl
        exact absurd rfl hslash
    rw [List.singleton_append, hread, if_neg hquote, if_neg (by simp [hctl, hslash])]
    simp

theorem readStr_print (s rest : Text) :
    readStr (s.flatMap escape ++ '"' :: rest) = some ((needsEscape s, s), rest) := by
  induction s with
  | nil => rfl
  | cons c s ih =>
    rw [List.flatMap_cons, List.append_assoc, readStr_escape, ih]
    rfl

/-- A text after which a numeral ends. -/
def Ends (rest : Text) : Prop := ∀ c ∈ rest.head?, isNumeral c = false

theorem takeWhile_run {p : Char → Bool} {t rest : Text} (ht : ∀ c ∈ t, p c = true)
    (hr : ∀ c ∈ rest.head?, p c = false) :
    (t ++ rest).takeWhile p = t ∧ (t ++ rest).dropWhile p = rest := by
  induction t with
  | nil =>
    cases rest with
    | nil => exact ⟨rfl, rfl⟩
    | cons c rest =>
      have hc : p c = false := hr c rfl
      exact ⟨List.takeWhile_cons_of_neg (by simp [hc]), List.dropWhile_cons_of_neg (by simp [hc])⟩
  | cons c t ih =>
    obtain ⟨htake, hdrop⟩ := ih fun d hd => ht d (List.mem_cons_of_mem c hd)
    have hc := ht c List.mem_cons_self
    rw [List.cons_append, List.takeWhile_cons_of_pos hc, List.dropWhile_cons_of_pos hc, htake, hdrop]
    exact ⟨rfl, rfl⟩

theorem skipBlanks_cons {c : Char} (h : isBlank c = false) (t : Text) :
    skipBlanks (c :: t) = c :: t := List.dropWhile_cons_of_neg (by simp [h])

theorem isNumeral_decimalInt {n : Int} {c : Char} (h : c ∈ decimalInt n) : isNumeral c = true := by
  rcases decimalInt_chars h with hd | rfl
  · simp [isNumeral, hd]
  · rfl

theorem readNumber_decimalInt {n : Int} (h : -9223372036854775808 ≤ n)
    (h' : n < 18446744073709551616) :
    readNumber (decimalInt n) = some (.int n) := by
  unfold readNumber
  rw [parseSigned_decimalInt 18446744073709551615 9223372036854775808 n (by omega) (by omega)]
  exact if_pos rfl

theorem decimalInt_cons (n : Int) : ∃ c t, decimalInt n = c :: t := by
  unfold decimalInt
  split
  · exact ⟨_, _, rfl⟩
  · obtain ⟨c, t, h, -⟩ := decimal_cons n.natAbs
    exact ⟨c, t, h⟩

theorem numeral_start {c : Char} (h : c.isDigit = true ∨ c = '-') : isBlank c = false ∧ c ≠ ']' := by
  rcases h with h | rfl
  · unfold isBlank
    simp only [Bool.or_eq_false_iff, decide_eq_false_iff_not]
    refine ⟨⟨⟨⟨?_, ?_⟩, ?_⟩, ?_⟩, ?_⟩ <;> rintro rfl <;> revert h <;> decide
  · decide

open Json

/-- No printed value begins with a blank or as the end of an array. -/
theorem print_head {v : Json} (h : plain v = true) :
    ∃ c t, print v = c :: t ∧ isBlank c = false ∧ c ≠ ']' := by
  cases v with
  | null => exact ⟨_, _, rfl, by decide⟩
  | bool b => cases b <;> exact ⟨_, _, rfl, by decide⟩
  | int n =>
    obtain ⟨c, t, hc⟩ := decimalInt_cons n
    have hhead := decimalInt_chars (i := n) (c := c) (by rw [hc]; exact List.mem_cons_self)
    exact ⟨c, t, hc, numeral_start hhead⟩
  | float lexeme => cases h
  | str escaped s => exact ⟨_, _, rfl, by decide⟩
  | arr items => cases items <;> exact ⟨_, _, rfl, by decide⟩
  | obj members => rcases members with _ | ⟨m, ms⟩ <;> exact ⟨_, _, rfl, by decide⟩

theorem readValue_int {n : ℕ} {i : Int} {rest : Text} (h : -9223372036854775808 ≤ i)
    (h' : i < 18446744073709551616)
    (hr : Ends rest) : readValue (n + 1) (decimalInt i ++ rest) = some (.int i, rest) := by
  obtain ⟨c, t, hc⟩ := decimalInt_cons i
  have hhead := decimalInt_chars (i := i) (c := c) (by rw [hc]; exact List.mem_cons_self)
  obtain ⟨htake, hdrop⟩ := takeWhile_run (p := isNumeral) (t := t)
    (fun d hd => isNumeral_decimalInt (n := i) (by rw [hc]; exact List.mem_cons_of_mem c hd)) hr
  rw [hc, List.cons_append, readValue, skipBlanks_cons (numeral_start hhead).1]
  simp only
  rw [if_pos (by simpa using hhead), htake, hdrop, ← hc, readNumber_decimalInt h h']
  rfl

theorem ends_items (vs : List Json) (rest : Text) : Ends (printItems vs ++ rest) := by
  cases vs <;> rintro c ⟨⟩ <;> rfl

theorem ends_members (ms : List (Text × Json)) (rest : Text) : Ends (printMembers ms ++ rest) := by
  rcases ms with _ | ⟨m, ms⟩ <;> rintro c ⟨⟩ <;> rfl

theorem readValue_str (n : ℕ) (s rest : Text) :
    readValue (n + 1) (printStr s ++ rest) = some (.text s, rest) := by
  have hread : readValue (n + 1) (printStr s ++ rest) =
      (readStr (s.flatMap escape ++ ['"'] ++ rest)).map fun r => (.str r.1.1 r.1.2, r.2) := rfl
  rw [hread, List.append_assoc, List.singleton_append, readStr_print]
  rfl

theorem readValue_arr {n : ℕ} {t rest : Text} {c : Char} (hc : isBlank c = false) (hne : c ≠ ']')
    {vs : List Json} (h : readItems n (c :: t) = some (vs, rest)) :
    readValue (n + 1) ('[' :: c :: t) = some (.arr vs, rest) := by
  have hread : readValue (n + 1) ('[' :: c :: t) =
      if (skipBlanks (c :: t)).head? = some ']' then some (.arr [], (skipBlanks (c :: t)).tail)
      else (readItems n (c :: t)).map fun r => (.arr r.1, r.2) := rfl
  have hhead : ¬(c :: t).head? = some ']' := fun he => hne (Option.some.inj he)
  rw [hread, skipBlanks_cons hc, if_neg hhead, h]
  rfl

theorem readValue_obj {n : ℕ} {t rest : Text} {ms : List (Text × Json)}
    (h : readMembers n ('"' :: t) = some (ms, rest)) :
    readValue (n + 1) ('{' :: '"' :: t) = some (.obj ms, rest) := by
  have hread : readValue (n + 1) ('{' :: '"' :: t) =
      (readMembers n ('"' :: t)).map fun r => (.obj r.1, r.2) := rfl
  rw [hread, h]
  rfl

/-- With fuel for its length a text is read as what it was printed from. -/
structure Reads (n : ℕ) : Prop where
  value : ∀ (v : Json) (rest : Text), plain v = true → (print v).length ≤ n → Ends rest →
    readValue n (print v ++ rest) = some (v, rest)
  items : ∀ (v : Json) (vs : List Json) (rest : Text), plain v = true → plainItems vs = true →
    (print v ++ printItems vs).length ≤ n →
    readItems n (print v ++ (printItems vs ++ rest)) = some (v :: vs, rest)
  members : ∀ (k : Text) (v : Json) (ms : List (Text × Json)) (rest : Text), plain v = true →
    plainMembers ms = true → (printStr k ++ ':' :: (print v ++ printMembers ms)).length ≤ n →
    readMembers n (printStr k ++ ':' :: (print v ++ (printMembers ms ++ rest))) =
      some ((k, v) :: ms, rest)

theorem print_pos {v : Json} (h : plain v = true) : 0 < (print v).length := by
  obtain ⟨c, t, hc, -⟩ := print_head h
  rw [hc]
  exact Nat.succ_pos _

theorem Reads.value_succ {n : ℕ} (ih : Reads n) (v : Json) (rest : Text) (h : plain v = true)
    (hn : (print v).length ≤ n + 1) (hr : Ends rest) :
    readValue (n + 1) (print v ++ rest) = some (v, rest) := by
  match v with
  | .null => rfl
  | .bool true => rfl
  | .bool false => rfl
  | .int i =>
    have hi : -9223372036854775808 ≤ i ∧ i < 18446744073709551616 := by simpa [plain] using h
    exact readValue_int hi.1 hi.2 hr
  | .str escaped s =>
    have he : escaped = needsEscape s := by simpa [plain] using h
    rw [he]
    exact readValue_str n s rest
  | .arr [] => rfl
  | .arr (v :: vs) =>
    have hp : plain v = true ∧ plainItems vs = true := by simpa [plain, plainItems] using h
    have hitems := ih.items v vs rest hp.1 hp.2 (Nat.le_of_succ_le_succ hn)
    obtain ⟨c, t, hc, hblank, hne⟩ := print_head hp.1
    rw [print, List.cons_append, List.append_assoc]
    rw [hc, List.cons_append] at hitems ⊢
    exact readValue_arr hblank hne hitems
  | .obj [] => rfl
  | .obj ((k, v) :: ms) =>
    have hp : plain v = true ∧ plainMembers ms = true := by simpa [plain, plainMembers] using h
    have hmembers := ih.members k v ms rest hp.1 hp.2 (Nat.le_of_succ_le_succ hn)
    rw [print, List.cons_append, List.append_assoc, List.cons_append, List.append_assoc]
    exact readValue_obj hmembers

theorem Reads.items_succ {n : ℕ} (ih : Reads n) (v : Json) (vs : List Json) (rest : Text)
    (h : plain v = true) (hs : plainItems vs = true)
    (hn : (print v ++ printItems vs).length ≤ n + 1) :
    readItems (n + 1) (print v ++ (printItems vs ++ rest)) = some (v :: vs, rest) := by
  have hpos : 0 < (printItems vs).length := by cases vs <;> exact Nat.succ_pos _
  rw [List.length_append] at hn
  have hv := ih.value v (printItems vs ++ rest) h (by omega) (ends_items vs rest)
  rw [readItems, hv]
  cases vs with
  | nil => rfl
  | cons w ws =>
    have hp : plain w = true ∧ plainItems ws = true := by simpa [plainItems] using hs
    have hlen : (printItems (w :: ws)).length = (print w ++ printItems ws).length + 1 := rfl
    have hnext := ih.items w ws rest hp.1 hp.2 (by have := print_pos h; omega)
    change (readItems n (print w ++ printItems ws ++ rest)).map _ = _
    rw [List.append_assoc, hnext]
    rfl

theorem Reads.members_succ {n : ℕ} (ih : Reads n) (k : Text) (v : Json)
    (ms : List (Text × Json)) (rest : Text) (h : plain v = true) (hs : plainMembers ms = true)
    (hn : (printStr k ++ ':' :: (print v ++ printMembers ms)).length ≤ n + 1) :
    readMembers (n + 1) (printStr k ++ ':' :: (print v ++ (printMembers ms ++ rest))) =
      some ((k, v) :: ms, rest) := by
  have hkey : 2 ≤ (printStr k).length := by simp [printStr]
  rw [List.length_append, List.length_cons, List.length_append] at hn
  have hv := ih.value v (printMembers ms ++ rest) h (by omega) (ends_members ms rest)
  have hread : readMembers (n + 1) (printStr k ++ ':' :: (print v ++ (printMembers ms ++ rest))) =
      (readStr (k.flatMap escape ++ ['"'] ++ ':' :: (print v ++ (printMembers ms ++ rest)))).bind
        fun r => match skipBlanks r.2 with
          | ':' :: t => (readValue n t).bind fun s => match skipBlanks s.2 with
            | '}' :: t => some ([(r.1.2, s.1)], t)
            | ',' :: t => (readMembers n t).map fun u => ((r.1.2, s.1) :: u.1, u.2)
            | _ => none
          | _ => none := rfl
  rw [hread, List.append_assoc, List.singleton_append, readStr_print, Option.bind_some]
  change (readValue n (print v ++ (printMembers ms ++ rest))).bind _ = _
  rw [hv, Option.bind_some]
  cases ms with
  | nil => rfl
  | cons m ms =>
    obtain ⟨l, w⟩ := m
    have hp : plain w = true ∧ plainMembers ms = true := by simpa [plainMembers] using hs
    have hlen : (printMembers ((l, w) :: ms)).length =
        (printStr l ++ ':' :: (print w ++ printMembers ms)).length + 1 := rfl
    have hnext := ih.members l w ms rest hp.1 hp.2 (by omega)
    change (readMembers n (printStr l ++ ':' :: (print w ++ printMembers ms) ++ rest)).map _ = _
    rw [List.append_assoc, List.cons_append, List.append_assoc, hnext]
    rfl

theorem reads (n : ℕ) : Reads n := by
  induction n with
  | zero =>
    refine ⟨fun v rest h hn _ => ?_, fun v vs rest h _ hn => ?_, fun k v ms rest _ _ hn => ?_⟩
    · have := print_pos h
      omega
    · have := print_pos h
      rw [List.length_append] at hn
      omega
    · simp [printStr] at hn
  | succ n ih => exact ⟨ih.value_succ, ih.items_succ, ih.members_succ⟩

theorem read_print {v : Json} (h : plain v = true) : read (print v) = some v := by
  have hv := (reads ((print v).length + 1)).value v [] h (Nat.le_succ _) (by rintro c ⟨⟩)
  rw [List.append_nil] at hv
  unfold read
  rw [hv]
  rfl

/-! ## Printed texts stay on one line -/

def Visible (t : Text) : Prop := ∀ c ∈ t, 32 ≤ c.toNat

theorem Visible.cons {c : Char} {t : Text} (hc : 32 ≤ c.toNat) (h : Visible t) : Visible (c :: t) :=
  List.forall_mem_cons.mpr ⟨hc, h⟩

theorem Visible.append {t u : Text} (ht : Visible t) (hu : Visible u) : Visible (t ++ u) :=
  List.forall_mem_append.mpr ⟨ht, hu⟩

theorem Visible.of_all {t : Text} (h : (t.all fun c => decide (32 ≤ c.toNat)) = true) : Visible t :=
  fun c hc => of_decide_eq_true (List.all_eq_true.mp h c hc)

theorem visible_escape (c : Char) : Visible (escape c) := by
  have hhex : ∀ d < 16, 32 ≤ (hexDigit d).toNat := by decide
  have hnil : Visible [] := List.forall_mem_nil _
  unfold escape
  split
  · exact .of_all rfl
  split
  · exact .of_all rfl
  split
  · exact .of_all rfl
  split
  · exact .of_all rfl
  split
  · exact .of_all rfl
  split
  · exact .of_all rfl
  split
  · exact .of_all rfl
  split
  · next h =>
    have hhi := hhex (c.toNat / 16) (by omega)
    have hlo := hhex (c.toNat % 16) (by omega)
    exact .cons (by decide) (.cons (by decide) (.cons (by decide) (.cons (by decide)
      (.cons hhi (.cons hlo hnil)))))
  · next h => exact .cons (Nat.le_of_not_lt h) hnil

theorem visible_printStr (s : Text) : Visible (printStr s) := by
  have hbody : Visible (s.flatMap escape) := fun d hd => by
    obtain ⟨c, -, hc⟩ := List.mem_flatMap.mp hd
    exact visible_escape c d hc
  exact .append (.cons (by decide) hbody) (.of_all rfl)

theorem visible_decimalInt (n : Int) : Visible (decimalInt n) := by
  intro c hc
  rcases decimalInt_chars hc with hd | rfl
  · have h0 : '0'.toNat ≤ c.toNat := (Char.isDigit_iff_toNat.mp hd).1
    exact Nat.le_trans (by decide) h0
  · decide

mutual

theorem visible_print : ∀ v : Json, v.plain = true → Visible (print v)
  | .null, _ => .of_all rfl
  | .bool true, _ => .of_all rfl
  | .bool false, _ => .of_all rfl
  | .int n, _ => visible_decimalInt n
  | .str _ s, _ => visible_printStr s
  | .arr [], _ => .of_all rfl
  | .arr (v :: vs), h => by
    have hp : plain v = true ∧ plainItems vs = true := by simpa [plain, plainItems] using h
    exact .cons (by decide) ((visible_print v hp.1).append (visible_printItems vs hp.2))
  | .obj [], _ => .of_all rfl
  | .obj ((k, v) :: ms), h => by
    have hp : plain v = true ∧ plainMembers ms = true := by simpa [plain, plainMembers] using h
    exact .cons (by decide) ((visible_printStr k).append
      (.cons (by decide) ((visible_print v hp.1).append (visible_printMembers ms hp.2))))

theorem visible_printItems : ∀ vs : List Json, plainItems vs = true → Visible (printItems vs)
  | [], _ => .of_all rfl
  | v :: vs, h => by
    have hp : plain v = true ∧ plainItems vs = true := by simpa [plainItems] using h
    exact .cons (by decide) ((visible_print v hp.1).append (visible_printItems vs hp.2))

theorem visible_printMembers : ∀ ms : List (Text × Json), plainMembers ms = true →
    Visible (printMembers ms)
  | [], _ => .of_all rfl
  | (k, v) :: ms, h => by
    have hp : plain v = true ∧ plainMembers ms = true := by simpa [plainMembers] using h
    exact .cons (by decide) ((visible_printStr k).append
      (.cons (by decide) ((visible_print v hp.1).append (visible_printMembers ms hp.2))))

end

theorem oneLine_print {v : Json} (h : v.plain = true) : OneLine (print v) := by
  have hv := visible_print v h
  exact ⟨fun hc => absurd (hv _ hc) (by decide), fun hc => absurd (hv _ hc) (by decide)⟩

/-- A blank text has no value. -/
theorem read_blank {t : Text} (h : ∀ c ∈ t, isWhitespace c = true) : read t = none := by
  have hvalue : readValue (t.length + 1) t = none := by
    have hrest (c : Char) (hc : c ∈ skipBlanks t) : isWhitespace c = true :=
      h c (List.dropWhile_suffix isBlank |>.subset hc)
    rw [readValue]
    cases hs : skipBlanks t with
    | nil => rfl
    | cons c u =>
      have hc := hrest c (by rw [hs]; exact List.mem_cons_self)
      have hdigit : c.isDigit = false := Bool.eq_false_iff.mpr fun hd => by
        have hbounds := Char.isDigit_iff_toNat.mp hd
        have hspace := hc
        simp only [isWhitespace, Bool.or_eq_true, Bool.and_eq_true, decide_eq_true_iff] at hspace
        simp only [Char.reduceToNat] at hbounds
        omega
      have hne {d : Char} (hd : isWhitespace d = false) : c ≠ d := by
        rintro rfl
        rw [hc] at hd
        cases hd
      simp only [hdigit, hne (d := '-') (by decide), hne (d := '"') (by decide),
        hne (d := '[') (by decide), hne (d := '{') (by decide), hne (d := 'n') (by decide),
        hne (d := 't') (by decide), hne (d := 'f') (by decide), Bool.false_eq_true, if_false,
        decide_false, Bool.or_self]
  unfold read
  rw [hvalue]

end TuiTetris.LibJson
