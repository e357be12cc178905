import TuiTetris.LibArrayVec
import TuiTetris.LibJson

set_option autoImplicit false

/-!
# Records in JSON

What derived readers and writers do: a record is written as an object without its absent
members, and read from an object by key or from an array in the order of its keys. What
a writer has written, the reader gives back.
-/
namespace TuiTetris.LibJsonRecord
open LibArrayVec LibJson LibText

/-- A library that prints values in one line and reads texts; `explain` is what it says of a text
that it rejects. -/
structure JsonText where
  print : Json → Text
  read : Text → Option Json
  explain : Text → Text
  read_print : ∀ v, v.plain = true → read (print v) = some v
  oneLine_print : ∀ v, v.plain = true → OneLine (print v)
  read_blank : ∀ t, (∀ c ∈ t, isWhitespace c = true) → read t = none

theorem JsonText.print_solid (json : JsonText) {v : Json} (h : v.plain = true) :
    (json.print v).all isWhitespace = false := by
  refine Bool.eq_false_iff.mpr fun hall => ?_
  have hblank := json.read_blank (json.print v) (List.all_eq_true.mp hall)
  rw [json.read_print v h] at hblank
  cases hblank

variable {α : Type}

/-! ## Scalars -/

def asInt (lo hi : Int) : Json → Option Int
  | .int n => if lo ≤ n ∧ n ≤ hi then some n else none
  | _ => none

def asBool : Json → Option Bool
  | .bool b => some b
  | _ => none

def asText : Json → Option Text
  | .str _ s => some s
  | _ => none

/-- A reader that borrows from the text takes a string without escapes only. -/
def asBorrowed : Json → Option Text
  | .str false s => some s
  | _ => none

def asU8 (v : Json) : Option UInt8 := (asInt 0 255 v).map fun n => UInt8.ofNat n.toNat
def asU32 (v : Json) : Option UInt32 := (asInt 0 4294967295 v).map fun n => UInt32.ofNat n.toNat
def asU64 (v : Json) : Option UInt64 :=
  (asInt 0 18446744073709551615 v).map fun n => UInt64.ofNat n.toNat
def asI8 (v : Json) : Option Int8 := (asInt (-128) 127 v).map Int8.ofInt
def asI32 (v : Json) : Option Int32 := (asInt (-2147483648) 2147483647 v).map Int32.ofInt

def ofU8 (n : UInt8) : Json := .int n.toNat
def ofU32 (n : UInt32) : Json := .int n.toNat
def ofU64 (n : UInt64) : Json := .int n.toNat
def ofI8 (n : Int8) : Json := .int n.toInt
def ofI32 (n : Int32) : Json := .int n.toInt

/-- A unit variant, by its name or as an object with its name and `null`. -/
def asVariant (names : List (Text × α)) : Json → Option α
  | .str _ s => names.lookup s
  | .obj [(s, .null)] => names.lookup s
  | _ => none

/-- The name of a borrowed string, whatever its case. -/
def asWord (names : List (Text × α)) (v : Json) : Option α :=
  (asBorrowed v).bind fun s => (names.find? fun n => eqIgnoreAsciiCase s n.1).map Prod.snd

def nullable (decode : Json → Option α) : Json → Option (Option α)
  | .null => some none
  | v => (decode v).map some

/-! ## Arrays -/

/-- Exactly `n` items. -/
def asVector (n : ℕ) (decode : Json → Option α) : Json → Option (Vector α n)
  | .arr vs => (vs.mapM decode).bind fun xs => if h : xs.length = n then some ⟨xs.toArray, h⟩ else none
  | _ => none

/-- Item after item, as long as there is room. -/
def asArrayVec (cap : ℕ) (decode : Json → Option α) : Json → Option (ArrayVec α cap)
  | .arr vs => vs.foldlM (fun out v => (decode v).bind out.tryPush) .empty
  | _ => none

def ofList (encode : α → Json) (xs : List α) : Json := .arr (xs.map encode)

/-! ## Records -/

structure Fields where
  byPosition : Bool
  members : List (Text × Json)

/-- The members with one of the keys. -/
def among (keys : List Text) (ms : List (Text × Json)) : List (Text × Json) :=
  ms.filter fun m => m.1 ∈ keys

/-- Unknown keys are ignored; a known one stands at most once. -/
def record (keys : List Text) : Json → Option Fields
  | .obj ms =>
    let known := among keys ms
    if (known.map Prod.fst).Nodup then some ⟨false, known⟩ else none
  | .arr vs => if vs.length ≤ keys.length then some ⟨true, keys.zip vs⟩ else none
  | _ => none

namespace Fields

def find (f : Fields) (key : Text) : Option Json := f.members.lookup key

def required (f : Fields) (key : Text) (decode : Json → Option α) : Option α := (f.find key).bind decode

/-- An absent member of an object is `None`. -/
def optional (f : Fields) (key : Text) (decode : Json → Option α) : Option (Option α) :=
  match f.find key with
  | some v => nullable decode v
  | none => if f.byPosition then none else some none

end Fields

/-- A member of an object by its key, of equal keys the last one. -/
def member (key : Text) : Json → Option Json
  | .obj ms => ms.reverse.lookup key
  | _ => none

/-- Members of a record that are there. -/
def written (members : List (Text × Option Json)) : List (Text × Json) :=
  members.filterMap fun m => m.2.map (Prod.mk m.1)

def ofRecord (members : List (Text × Option Json)) : Json := .obj (written members)

def ofNullable (encode : α → Json) : Option α → Json
  | none => .null
  | some a => encode a

/-! ## Reading what was written -/

/-- Values that are written are given back, and the text between is read as it was printed. -/
structure Lawful (encode : α → Json) (decode : Json → Option α) : Prop where
  decode_encode : ∀ a, decode (encode a) = some a
  plain : ∀ a, (encode a).plain = true
  present : ∀ a, encode a ≠ .null

theorem plain_int {n : Int} (h : -9223372036854775808 ≤ n) (h' : n < 18446744073709551616) :
    (Json.int n).plain = true := by
  simp only [Json.plain, Bool.and_eq_true, decide_eq_true_iff]
  exact ⟨h, h'⟩

theorem plain_text (s : Text) : (Json.text s).plain = true := by simp [Json.text, Json.plain]

theorem lawful_bool : Lawful Json.bool asBool := ⟨fun _ => rfl, fun _ => rfl, fun _ => nofun⟩

theorem lawful_text : Lawful Json.text asText := ⟨fun _ => rfl, plain_text, fun _ => nofun⟩

theorem asInt_of {lo hi n : Int} (h : lo ≤ n) (h' : n ≤ hi) : asInt lo hi (.int n) = some n :=
  if_pos ⟨h, h'⟩

theorem lawful_u8 : Lawful ofU8 asU8 := by
  refine ⟨fun n => ?_, fun n => plain_int ?_ ?_, fun _ => nofun⟩ <;> have hn := n.toNat_lt
  · rw [asU8, ofU8, asInt_of (by omega) (by omega)]
    simp
  · omega
  · omega

theorem lawful_u32 : Lawful ofU32 asU32 := by
  refine ⟨fun n => ?_, fun n => plain_int ?_ ?_, fun _ => nofun⟩ <;> have hn := n.toNat_lt
  · rw [asU32, ofU32, asInt_of (by omega) (by omega)]
    simp
  · omega
  · omega

theorem lawful_u64 : Lawful ofU64 asU64 := by
  refine ⟨fun n => ?_, fun n => plain_int ?_ ?_, fun _ => nofun⟩ <;> have hn := n.toNat_lt
  · rw [asU64, ofU64, asInt_of (by omega) (by omega)]
    simp
  · omega
  · omega

theorem lawful_i8 : Lawful ofI8 asI8 := by
  refine ⟨fun n => ?_, fun n => plain_int ?_ ?_, fun _ => nofun⟩ <;>
    have hl := n.le_toInt <;> have hu := n.toInt_lt
  · rw [asI8, ofI8, asInt_of (by omega) (by omega)]
    simp
  · omega
  · omega

theorem lawful_i32 : Lawful ofI32 asI32 := by
  refine ⟨fun n => ?_, fun n => plain_int ?_ ?_, fun _ => nofun⟩ <;>
    have hl := n.le_toInt <;> have hu := n.toInt_lt
  · rw [asI32, ofI32, asInt_of (by omega) (by omega)]
    simp
  · omega
  · omega

theorem lawful_variant {names : List (Text × α)} {name : α → Text}
    (h : ∀ a, names.lookup (name a) = some a) : Lawful (fun a => .text (name a)) (asVariant names) :=
  ⟨h, fun _ => plain_text _, fun _ => nofun⟩

theorem lawful_word {names : List (Text × α)} {name : α → Text}
    (h : ∀ a, needsEscape (name a) = false ∧
      (names.find? fun n => eqIgnoreAsciiCase (name a) n.1).map Prod.snd = some a) :
    Lawful (fun a => .text (name a)) (asWord names) := by
  refine ⟨fun a => ?_, fun _ => plain_text _, fun _ => nofun⟩
  obtain ⟨hplain, hfind⟩ := h a
  rw [asWord, Json.text, hplain]
  exact hfind

section Items

variable {encode : α → Json} {decode : Json → Option α}

theorem plainItems_map (h : Lawful encode decode) (xs : List α) :
    Json.plainItems (xs.map encode) = true := by
  induction xs with
  | nil => rfl
  | cons x xs ih => simp [Json.plainItems, h.plain x, ih]

theorem mapM_encode (h : Lawful encode decode) (xs : List α) : (xs.map encode).mapM decode = some xs := by
  induction xs with
  | nil => rfl
  | cons x xs ih => simp [h.decode_encode x, ih]

theorem lawful_vector (h : Lawful encode decode) (n : ℕ) :
    Lawful (fun xs : Vector α n => ofList encode xs.toList) (asVector n decode) := by
  refine ⟨fun xs => ?_, fun xs => plainItems_map h xs.toList, fun _ => nofun⟩
  rw [ofList, asVector, mapM_encode h, Option.bind_some, dif_pos xs.length_toList]
  exact congrArg some (Vector.ext fun i hi => by simp)

theorem foldlM_encode {cap : ℕ} (h : Lawful encode decode) (xs : List α) (out v : ArrayVec α cap)
    (hv : v.toList = out.toList ++ xs) :
    (xs.map encode).foldlM (fun out v => (decode v).bind out.tryPush) out = some v := by
  induction xs generalizing out with
  | nil =>
    rw [List.append_nil] at hv
    exact congrArg some (ArrayVec.ext_toList hv.symm)
  | cons x xs ih =>
    have hroom : out.toList.length < cap := by
      have hle := v.length_le
      rw [hv, List.length_append, List.length_cons] at hle
      omega
    have hpush : out.tryPush x = some (out.push x) :=
      (ArrayVec.tryPush_eq_some out (out.push x) x).mpr (ArrayVec.push_toList out x hroom)
    rw [List.map_cons, List.foldlM_cons, h.decode_encode, Option.bind_some, hpush]
    refine ih (out.push x) ?_
    rw [ArrayVec.push_toList out x hroom, hv, List.append_assoc, List.singleton_append]

theorem lawful_arrayVec (h : Lawful encode decode) (cap : ℕ) :
    Lawful (fun xs : ArrayVec α cap => ofList encode xs.toList) (asArrayVec cap decode) :=
  ⟨fun xs => foldlM_encode h xs.toList .empty xs rfl, fun xs => plainItems_map h xs.toList,
    fun _ => nofun⟩

end Items

/-! ## Members of a written record -/

section Members

variable {members : List (Text × Option Json)}

theorem written_keys {m : Text × Json} (h : m ∈ written members) : m.1 ∈ members.map Prod.fst := by
  obtain ⟨⟨k, v⟩, hk, hm⟩ := List.mem_filterMap.mp h
  obtain ⟨w, -, rfl⟩ := Option.map_eq_some_iff.mp hm
  exact List.mem_map_of_mem hk

theorem written_nodup (h : (members.map Prod.fst).Nodup) : ((written members).map Prod.fst).Nodup := by
  induction members with
  | nil => exact List.nodup_nil
  | cons m members ih =>
    obtain ⟨k, v⟩ := m
    obtain ⟨hk, hrest⟩ := List.nodup_cons.mp h
    cases v with
    | none => exact ih hrest
    | some v =>
      refine List.nodup_cons.mpr ⟨fun hmem => ?_, ih hrest⟩
      obtain ⟨m, hm, rfl⟩ := List.mem_map.mp hmem
      exact hk (written_keys hm)

theorem lookup_written (h : (members.map Prod.fst).Nodup) (key : Text) :
    (written members).lookup key = (members.lookup key).join := by
  induction members with
  | nil => rfl
  | cons m members ih =>
    obtain ⟨k, v⟩ := m
    obtain ⟨hk, hrest⟩ := List.nodup_cons.mp h
    by_cases hkey : key = k
    · subst hkey
      rw [List.lookup_cons_self, Option.join_some]
      cases v with
      | none =>
        refine List.lookup_eq_none_iff.mpr fun m hm => ?_
        have hne : key ≠ m.1 := fun he => hk (he ▸ written_keys hm)
        simpa using hne
      | some v => exact List.lookup_cons_self
    · have hne : (key == k) = false := by simpa using hkey
      have hskip {β : Type} (b : β) (es : List (Text × β)) :
          List.lookup key ((k, b) :: es) = List.lookup key es := by rw [List.lookup_cons, hne]
      rw [hskip, ← ih hrest]
      cases v with
      | none => rfl
      | some v => exact hskip v (written members)

theorem lookup_reverse {ms : List (Text × Json)} (h : (ms.map Prod.fst).Nodup) (key : Text) :
    ms.reverse.lookup key = ms.lookup key := by
  induction ms with
  | nil => rfl
  | cons m ms ih =>
    obtain ⟨k, v⟩ := m
    obtain ⟨hk, hrest⟩ := List.nodup_cons.mp h
    rw [List.reverse_cons, List.lookup_append, ih hrest]
    by_cases hkey : key = k
    · subst hkey
      have habsent : ms.lookup key = none := List.lookup_eq_none_iff.mpr fun m hm => by
        have hmem : m.1 ∈ ms.map Prod.fst := List.mem_map_of_mem hm
        have hne : key ≠ m.1 := fun he => hk (he ▸ hmem)
        simpa using hne
      rw [habsent, List.lookup_cons_self, List.lookup_cons_self]
      rfl
    · have hne : (key == k) = false := by simpa using hkey
      rw [List.lookup_cons, List.lookup_cons, hne]
      exact Option.or_none

theorem member_ofRecord (h : (members.map Prod.fst).Nodup) (key : Text) :
    member key (ofRecord members) = (members.lookup key).join :=
  (lookup_reverse (written_nodup h) key).trans (lookup_written h key)

theorem record_ofRecord (h : (members.map Prod.fst).Nodup) :
    record (members.map Prod.fst) (ofRecord members) = some ⟨false, written members⟩ := by
  have hknown : among (members.map Prod.fst) (written members) = written members :=
    List.filter_eq_self.mpr fun m hm => decide_eq_true (written_keys hm)
  unfold record ofRecord
  simp only [hknown, if_pos (written_nodup h)]

variable {encode : α → Json} {decode : Json → Option α} {key : Text}

theorem required_written (h : (members.map Prod.fst).Nodup) (hc : Lawful encode decode) {a : α}
    (hm : members.lookup key = some (some (encode a))) :
    (Fields.mk false (written members)).required key decode = some a := by
  unfold Fields.required Fields.find
  rw [lookup_written h, hm]
  exact hc.decode_encode a

theorem nullable_ofNullable (hc : Lawful encode decode) (o : Option α) :
    nullable decode (ofNullable encode o) = some o := by
  cases o with
  | none => rfl
  | some a =>
    have hread : nullable decode (encode a) = (decode (encode a)).map some := by
      unfold nullable
      split
      · next he => exact absurd he (hc.present a)
      · rfl
    exact hread.trans (congrArg (Option.map some) (hc.decode_encode a))

theorem optional_written (h : (members.map Prod.fst).Nodup) (hc : Lawful encode decode)
    {o : Option α} (hm : members.lookup key = some (o.map encode)) :
    (Fields.mk false (written members)).optional key decode = some o := by
  unfold Fields.optional Fields.find
  rw [lookup_written h, hm]
  cases o with
  | none => rfl
  | some a => exact nullable_ofNullable hc (some a)

theorem plain_some (hc : Lawful encode decode) (a : α) : ∀ v ∈ some (encode a), v.plain = true := by
  rintro v ⟨⟩
  exact hc.plain a

theorem plain_map (hc : Lawful encode decode) (o : Option α) :
    ∀ v ∈ o.map encode, v.plain = true := by
  cases o with
  | none => exact fun v hv => nomatch hv
  | some a => exact plain_some hc a

theorem plain_ofNullable (hc : Lawful encode decode) (o : Option α) :
    ∀ v ∈ some (ofNullable encode o), v.plain = true := by
  rintro v ⟨⟩
  cases o with
  | none => rfl
  | some a => exact hc.plain a

theorem plain_ofRecord (h : members.Forall fun m => ∀ v ∈ m.2, v.plain = true) :
    (ofRecord members).plain = true := by
  rw [List.forall_iff_forall_mem] at h
  change Json.plainMembers (written members) = true
  induction members with
  | nil => rfl
  | cons m members ih =>
    obtain ⟨k, v⟩ := m
    have hrest := ih fun m hm => h m (List.mem_cons_of_mem _ hm)
    cases v with
    | none => exact hrest
    | some v => exact Bool.and_eq_true_iff.mpr ⟨h (k, some v) List.mem_cons_self v rfl, hrest⟩

end Members

/-! ## Order of members -/

section Alike

variable {ms ms' : List (Text × Json)}

/-- The members with the given keys are the same but for their order. -/
def Alike (keys : List Text) (ms ms' : List (Text × Json)) : Prop :=
  (among keys ms).Perm (among keys ms')

theorem Alike.subset {keys more : List Text} (h : Alike more ms ms') (hk : ∀ k ∈ keys, k ∈ more) :
    Alike keys ms ms' := by
  have hcut : ∀ xs : List (Text × Json), among keys (among more xs) = among keys xs := by
    intro xs
    unfold among
    rw [List.filter_filter]
    refine List.filter_congr fun m _ => ?_
    by_cases hm : m.1 ∈ keys
    · simp [hm, hk _ hm]
    · simp [hm]
  have hp : (among keys (among more ms)).Perm (among keys (among more ms')) := h.filter _
  rwa [hcut, hcut] at hp

theorem Alike.filter {keys : List Text} (h : Alike keys ms ms') (p : Text → Bool) :
    Alike keys (ms.filter fun m => p m.1) (ms'.filter fun m => p m.1) := by
  have hp := List.Perm.filter (fun m => p m.1) h
  unfold Alike among at *
  rw [List.filter_filter] at hp ⊢
  rw [List.filter_filter] at hp ⊢
  simpa only [Bool.and_comm] using hp

end Alike

end TuiTetris.LibJsonRecord
