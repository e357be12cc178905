import TuiTetris.SessionReplay

set_option autoImplicit false

/-!
# Decoding an encoded tape

Every field is free of separators, so lines and fields come back from the text,
and each line is parsed to the value it was printed from. The decoder has the
whole record again when it reaches the end line.
-/
namespace TuiTetris.SessionReplayRoundTrip
open CoreTypes CoreSnapshot LibArrayVec LibDecimal LibText SessionEngine SessionReplay

theorem ok_bind {α β ε : Type} (a : α) (f : α → Except ε β) : (Except.ok a >>= f) = f a := rfl

def Plain (f : Text) : Prop := '\t' ∉ f ∧ OneLine f

theorem plain_of_chars {f : Text} (h : ∀ c ∈ f, c ≠ '\t' ∧ c ≠ '\n' ∧ c ≠ '\r') : Plain f :=
  ⟨fun hm => (h _ hm).1 rfl, fun hm => (h _ hm).2.1 rfl, fun hm => (h _ hm).2.2 rfl⟩

theorem plain_of_all {f : Text}
    (h : f.all (fun c => c ≠ '\t' ∧ c ≠ '\n' ∧ c ≠ '\r') = true) : Plain f :=
  plain_of_chars fun c hc => of_decide_eq_true (List.all_eq_true.mp h c hc)

theorem isDigit_plain {c : Char} (h : c.isDigit = true) : c ≠ '\t' ∧ c ≠ '\n' ∧ c ≠ '\r' := by
  refine ⟨?_, ?_, ?_⟩ <;> rintro rfl <;> exact absurd h (by decide)

theorem plain_decimal (n : ℕ) : Plain (decimal n) :=
  plain_of_chars fun _ h => isDigit_plain (isDigit_decimal h)

theorem plain_decimalInt (i : Int) : Plain (decimalInt i) := by
  refine plain_of_chars fun c h => ?_
  rcases decimalInt_chars h with h | rfl
  · exact isDigit_plain h
  · decide

theorem actionText_chars (a : GameAction) :
    ∀ c ∈ actionText a, c ≠ ',' ∧ c ≠ '\t' ∧ c ≠ '\n' ∧ c ≠ '\r' := by
  have hall : (actionText a).all (fun c => c ≠ ',' ∧ c ≠ '\t' ∧ c ≠ '\n' ∧ c ≠ '\r') = true := by
    cases a <;> decide
  exact fun c hc => of_decide_eq_true (List.all_eq_true.mp hall c hc)

theorem plain_actionText (a : GameAction) : Plain (actionText a) :=
  plain_of_chars fun c h => (actionText_chars a c h).2

theorem plain_joinActions (actions : List GameAction) :
    Plain (joinWith ',' (actions.map actionText)) := by
  refine plain_of_chars fun c h => ?_
  by_cases hc : c = ','
  · subst hc
    decide
  · obtain ⟨f, hf, hm⟩ := mem_joinWith hc h
    obtain ⟨a, -, rfl⟩ := List.mem_map.mp hf
    exact (actionText_chars a c hm).2

theorem plain_rotationText (r : Rotation) : Plain (rotationText r) := by
  cases r <;> exact plain_of_all (by decide)

theorem plain_boolText (b : Bool) : Plain (boolText b) := by
  cases b <;> exact plain_of_all (by decide)

theorem plain_seedText (seed : Option UInt32) : Plain (seedText seed) := by
  cases seed with
  | none => exact plain_of_all (by decide)
  | some seed => exact plain_decimal _

theorem plain_formatText : Plain formatText := by
  have htag : Plain "TTR".toList := plain_of_all (by decide)
  have hversion := plain_decimal replayFormatVersion.toNat
  constructor
  · exact fun h => (List.mem_append.mp h).elim htag.1 hversion.1
  · exact ⟨fun h => (List.mem_append.mp h).elim htag.2.1 hversion.2.1,
      fun h => (List.mem_append.mp h).elim htag.2.2 hversion.2.2⟩

theorem plain_tag {c : Char} (h : c ≠ '\t' ∧ c ≠ '\n' ∧ c ≠ '\r') : Plain [c] :=
  plain_of_chars fun d hd => by rwa [List.mem_singleton.mp hd]

theorem plain_commandFields (command : GameCommand) : ∀ f ∈ commandFields command, Plain f := by
  cases command with
  | Actions actions restartSeed =>
    simp only [commandFields, List.forall_mem_cons]
    exact ⟨plain_tag (by decide), plain_tag (by decide), plain_seedText _, plain_joinActions _,
      fun _ h => absurd h List.not_mem_nil⟩
  | Place x rotation useHold =>
    simp only [commandFields, List.forall_mem_cons]
    exact ⟨plain_tag (by decide), plain_tag (by decide), plain_decimalInt _, plain_rotationText _,
      plain_boolText _, fun _ h => absurd h List.not_mem_nil⟩

def localFields (action : GameAction) : List Text := [['L'], actionText action]

theorem plain_localFields (action : GameAction) : ∀ f ∈ localFields action, Plain f := by
  simp only [localFields, List.forall_mem_cons]
  exact ⟨plain_tag (by decide), plain_actionText _, fun _ h => absurd h List.not_mem_nil⟩

theorem plain_recordFields (r : StepRecord) (fields : List Text) (h : fields ∈ recordFields r) :
    ∀ f ∈ fields, Plain f := by
  simp only [recordFields, List.mem_append, List.mem_singleton, List.mem_map] at h
  rcases h with ((rfl | ⟨command, -, rfl⟩) | ⟨action, -, rfl⟩) | rfl
  · simp only [List.forall_mem_cons]
    exact ⟨plain_tag (by decide), plain_decimal _, plain_decimal _, fun _ h => absurd h List.not_mem_nil⟩
  · exact plain_commandFields command
  · exact plain_localFields action
  · simp only [List.forall_mem_cons]
    exact ⟨plain_tag (by decide), fun _ h => absurd h List.not_mem_nil⟩

theorem plain_tapeFields (t : ReplayTape) (fields : List Text) (h : fields ∈ tapeFields t) :
    ∀ f ∈ fields, Plain f := by
  rcases List.mem_cons.mp h with rfl | h
  · have hr : Plain rulesetVersion := plain_of_all (by decide)
    simp only [List.forall_mem_cons]
    exact ⟨plain_formatText, hr, plain_decimal _, fun _ h => absurd h List.not_mem_nil⟩
  · obtain ⟨r, -, hr⟩ := List.mem_flatMap.mp h
    exact plain_recordFields r fields hr

theorem lines_tape (t : ReplayTape) :
    lines (unlines ((tapeFields t).map (joinWith '\t'))) = (tapeFields t).map (joinWith '\t') := by
  apply lines_unlines
  intro l hl
  obtain ⟨fields, hf, rfl⟩ := List.mem_map.mp hl
  exact oneLine_joinWith (by decide) (by decide) fun f hm => (plain_tapeFields t fields hf f hm).2

theorem splitOn_fields {fields : List Text} (h : ∀ f ∈ fields, Plain f) (hne : fields ≠ []) :
    (joinWith '\t' fields).splitOn '\t' = fields :=
  splitOn_joinWith (fun f hf => (h f hf).1) hne

theorem parseU32_decimal (v : UInt32) : parseU32 (decimal v.toNat) = .ok v := by
  have hv := v.toNat_lt
  unfold parseU32
  rw [parseUnsigned_decimal _ _ (by omega)]
  exact congrArg Except.ok UInt32.ofNat_toNat

theorem parseU64_decimal (v : UInt64) : parseU64 (decimal v.toNat) = .ok v := by
  have hv := v.toNat_lt
  unfold parseU64
  rw [parseUnsigned_decimal _ _ (by omega)]
  exact congrArg Except.ok UInt64.ofNat_toNat

theorem parseI8_decimalInt (v : Int8) : parseI8 (decimalInt v.toInt) = .ok v := by
  have hl := v.le_toInt
  have hu := v.toInt_lt
  unfold parseI8
  rw [parseSigned_decimalInt _ _ _ (by omega) (by omega)]
  exact congrArg Except.ok (Int8.ofInt_toInt v)

theorem parseAction_actionText (a : GameAction) : parseAction (actionText a) = some a := by
  cases a <;> decide

theorem parseRotation_rotationText (r : Rotation) : parseRotation (rotationText r) = some r := by
  cases r <;> decide

theorem parseBool_boolText (b : Bool) : parseBool (boolText b) = .ok b := by
  cases b <;> rfl

theorem decimal_ne_dash (n : ℕ) : decimal n ≠ ['-'] := by
  intro h
  have hd : '-' ∈ decimal n := h ▸ List.mem_singleton.mpr rfl
  exact absurd (isDigit_decimal hd) (by decide)

theorem parseActions_texts (actions : List GameAction) (parsed result : ArrayVec GameAction 32)
    (h : result.toList = parsed.toList ++ actions) :
    parseActions parsed (actions.map actionText) = .ok result := by
  induction actions generalizing parsed with
  | nil =>
    rw [List.append_nil] at h
    rw [ArrayVec.ext_toList h]
    rfl
  | cons a actions ih =>
    have hl := result.length_le
    rw [h, List.length_append, List.length_cons] at hl
    obtain ⟨next, hnext⟩ : ∃ next, parsed.tryPush a = some next := by
      unfold ArrayVec.tryPush
      rw [dif_pos (by omega)]
      exact ⟨_, rfl⟩
    have happ := (ArrayVec.tryPush_eq_some parsed next a).mp hnext
    have hrest := ih next (by rw [h, happ, List.append_assoc]; rfl)
    simp only [List.map_cons, parseActions, parseAction_actionText, orFail, ok_bind, hnext]
    exact hrest

theorem decodeStep_fields (step stateHash : UInt64) :
    decodeStep [['S'], decimal step.toNat, decimal stateHash.toNat] = .ok (step, stateHash) := by
  simp only [decodeStep, parseU64_decimal, ok_bind]
  rfl

theorem parseRestartSeed_seedText (restartSeed : Option UInt32) :
    parseRestartSeed (seedText restartSeed) = .ok restartSeed := by
  cases restartSeed with
  | none => rfl
  | some seed =>
    simp only [parseRestartSeed, seedText, if_neg (decimal_ne_dash _), parseU32_decimal]
    rfl

theorem joinActions_isEmpty (a : GameAction) (actions : List GameAction) :
    (joinWith ',' ((a :: actions).map actionText)).isEmpty = false := by
  obtain ⟨c, cs, hc⟩ : ∃ c cs, actionText a = c :: cs := by cases a <;> exact ⟨_, _, rfl⟩
  cases actions with
  | nil => simp [joinWith, hc]
  | cons b actions =>
    rw [List.map_cons, List.map_cons, joinWith_cons_cons, hc]
    rfl

theorem parseActionList_joinWith (actions : ArrayVec GameAction 32) :
    parseActionList (joinWith ',' (actions.toList.map actionText)) = .ok actions := by
  unfold parseActionList
  cases ha : actions.toList with
  | nil =>
    have he : actions = .empty := ArrayVec.ext_toList ha
    rw [he]
    rfl
  | cons a rest =>
    have hcomma : ∀ f ∈ (a :: rest).map actionText, ',' ∉ f := by
      intro f hf hm
      obtain ⟨b, -, rfl⟩ := List.mem_map.mp hf
      exact (actionText_chars b ',' hm).1 rfl
    have hsplit := splitOn_joinWith hcomma (by simp)
    rw [joinActions_isEmpty, hsplit]
    exact parseActions_texts (a :: rest) .empty actions ha

theorem decodeCommand_remote (locals : ArrayVec GameAction maxLocalActionsPerStep)
    (command : GameCommand) (xs ys : ArrayVec GameCommand maxCommandsPerStep)
    (h : ys.toList = xs.toList ++ [command]) :
    decodeCommand ⟨xs, locals⟩ (commandFields command) = .ok ⟨ys, locals⟩ := by
  have hpush := (ArrayVec.tryPush_eq_some xs ys command).mpr h
  cases command with
  | Actions actions restartSeed =>
    simp only [commandFields, decodeCommand, parseRestartSeed_seedText, parseActionList_joinWith,
      ok_bind, pushRemote, hpush, orFail]
    rfl
  | Place x rotation useHold =>
    simp only [commandFields, decodeCommand, parseI8_decimalInt, parseRotation_rotationText,
      parseBool_boolText, ok_bind, pushRemote, hpush, orFail]
    rfl

theorem decodeCommand_local (remote : ArrayVec GameCommand maxCommandsPerStep)
    (action : GameAction) (xs ys : ArrayVec GameAction maxLocalActionsPerStep)
    (h : ys.toList = xs.toList ++ [action]) :
    decodeCommand ⟨remote, xs⟩ (localFields action) = .ok ⟨remote, ys⟩ := by
  have hpush := (ArrayVec.tryPush_eq_some xs ys action).mpr h
  simp only [localFields, decodeCommand, parseAction_actionText, orFail, ok_bind, hpush]
  rfl

theorem joinWith_ne_end (f g : Text) (fields : List Text) :
    joinWith '\t' (f :: g :: fields) ≠ ['E'] := by
  intro h
  have hm : '\t' ∈ joinWith '\t' (f :: g :: fields) := by
    rw [joinWith_cons_cons]
    exact List.mem_append_right _ List.mem_cons_self
  rw [h] at hm
  exact absurd hm (by decide)

theorem decodeLines_command {r : StepRecord} {next : StepInput} {f g : Text} {fields : List Text}
    (records : List StepRecord) (rest : List Text) (hp : ∀ x ∈ f :: g :: fields, Plain x)
    (h : decodeCommand r.input (f :: g :: fields) = .ok next) :
    decodeLines (some r) records (joinWith '\t' (f :: g :: fields) :: rest) =
      decodeLines (some { r with input := next }) records rest := by
  simp only [decodeLines, if_neg (joinWith_ne_end f g fields),
    splitOn_fields hp (List.cons_ne_nil f (g :: fields)), h, ok_bind]

theorem commandFields_cons (command : GameCommand) :
    ∃ f g fields, commandFields command = f :: g :: fields := by
  cases command <;> exact ⟨_, _, _, rfl⟩

/-- Lines that push items onto one list of the input push all of them. -/
theorem decodeLines_pushes {α : Type} {cap : ℕ} (put : ArrayVec α cap → StepInput)
    (itemFields : α → List Text) (hfields : ∀ a, ∃ f g fields, itemFields a = f :: g :: fields)
    (hplain : ∀ a, ∀ x ∈ itemFields a, Plain x)
    (hdec : ∀ a (xs ys : ArrayVec α cap), ys.toList = xs.toList ++ [a] →
      decodeCommand (put xs) (itemFields a) = .ok (put ys))
    (step hash : UInt64) (records : List StepRecord) (rest : List Text)
    (items : List α) (xs ys : ArrayVec α cap) (h : ys.toList = xs.toList ++ items) :
    decodeLines (some ⟨step, put xs, hash⟩) records
        (items.map (joinWith '\t' ∘ itemFields) ++ rest) =
      decodeLines (some ⟨step, put ys, hash⟩) records rest := by
  induction items generalizing xs with
  | nil =>
    rw [List.append_nil] at h
    rw [ArrayVec.ext_toList h]
    rfl
  | cons a items ih =>
    have hcap := ys.length_le
    rw [h, List.length_append, List.length_cons] at hcap
    let next : ArrayVec α cap := ⟨xs.toList ++ [a], by
      rw [List.length_append, List.length_singleton]
      omega⟩
    have hnext := hdec a xs next rfl
    have hp := hplain a
    have hrest := ih next (by
      rw [h, List.append_assoc]
      rfl)
    obtain ⟨f, g, fields, hf⟩ := hfields a
    rw [List.map_cons, List.cons_append, Function.comp_apply]
    rw [hf] at hnext hp ⊢
    exact (decodeLines_command (r := ⟨step, put xs, hash⟩) records _ hp hnext).trans hrest

/-- The lines of one record, read from between two records, add that record. -/
theorem decodeLines_record (r : StepRecord) (records : List StepRecord) (rest : List Text) :
    decodeLines none records ((recordFields r).map (joinWith '\t') ++ rest) =
      decodeLines none (records ++ [r]) rest := by
  have hp : ∀ x ∈ [['S'], decimal r.step.toNat, decimal r.stateHash.toNat], Plain x := by
    simp only [List.forall_mem_cons]
    exact ⟨plain_tag (by decide), plain_decimal _, plain_decimal _,
      fun _ h => absurd h List.not_mem_nil⟩
  have hremote := decodeLines_pushes (fun remote => ⟨remote, .empty⟩) commandFields
    commandFields_cons plain_commandFields (decodeCommand_remote .empty) r.step r.stateHash records
    (r.input.locals.toList.map (joinWith '\t' ∘ localFields) ++ (['E'] :: rest))
    r.input.remote.toList .empty r.input.remote rfl
  have hlocal := decodeLines_pushes (fun locals => ⟨r.input.remote, locals⟩) localFields
    (fun action => ⟨_, _, _, rfl⟩) plain_localFields (decodeCommand_local r.input.remote) r.step
    r.stateHash records (['E'] :: rest) r.input.locals.toList .empty r.input.locals rfl
  have hend : decodeLines (some ⟨r.step, r.input, r.stateHash⟩) records (['E'] :: rest) =
      decodeLines none (records ++ [r]) rest := by
    rw [decodeLines]
    exact if_pos rfl
  have hmap : (recordFields r).map (joinWith '\t') ++ rest =
      joinWith '\t' [['S'], decimal r.step.toNat, decimal r.stateHash.toNat] ::
        (r.input.remote.toList.map (joinWith '\t' ∘ commandFields) ++
          (r.input.locals.toList.map (joinWith '\t' ∘ localFields) ++ (['E'] :: rest))) := by
    simp only [recordFields, List.map_append, List.map_map, List.append_assoc]
    rfl
  rw [hmap, decodeLines, splitOn_fields hp (List.cons_ne_nil _ _), decodeStep_fields]
  exact hremote.trans (hlocal.trans hend)

theorem decodeLines_records (rs records : List StepRecord) :
    decodeLines none records ((rs.flatMap recordFields).map (joinWith '\t')) = .ok (records ++ rs) := by
  induction rs generalizing records with
  | nil =>
    rw [List.append_nil]
    rfl
  | cons r rs ih =>
    rw [List.flatMap_cons, List.map_append, decodeLines_record, ih, List.append_assoc]
    rfl

theorem decodeHeader_fields (seed : UInt32) :
    decodeHeader [formatText, rulesetVersion, decimal seed.toNat] = .ok seed := by
  simp only [decodeHeader, ne_eq, not_true_eq_false, if_false, parseU32_decimal, ok_bind,
    List.isEmpty_nil, if_true]

theorem decodeText_tape (t : ReplayTape) :
    decodeText (unlines ((tapeFields t).map (joinWith '\t'))) = .ok (.rebuild t.seed t.records) := by
  have hp : ∀ x ∈ [formatText, rulesetVersion, decimal t.seed.toNat], Plain x :=
    plain_tapeFields t _ List.mem_cons_self
  unfold decodeText
  rw [lines_tape, tapeFields, List.map_cons]
  simp only [splitOn_fields hp (List.cons_ne_nil _ _), decodeHeader_fields, decodeLines_records,
    ok_bind, List.nil_append]
  rfl

theorem decode_encode (t : ReplayTape) : decode (encode t) = .ok (.rebuild t.seed t.records) := by
  have hutf : String.fromUTF8? (encode t) =
      some (String.ofList (unlines ((tapeFields t).map (joinWith '\t')))) := by
    have hv : (encode t).IsValidUTF8 := String.isValidUTF8 _
    unfold String.fromUTF8?
    rw [dif_pos hv]
    rfl
  unfold decode
  rw [hutf]
  simp only [String.toList_ofList]
  exact decodeText_tape t

/-- The final snapshot is the one that recording the inputs ends with. -/
def Consistent (t : ReplayTape) : Prop := .rebuild t.seed t.records = t

theorem recordFrom_inputs (session : SessionRuntime) (step : ℕ) (inputs : List StepInput) :
    (recordFrom session step inputs).1.map StepRecord.input = inputs := by
  induction inputs generalizing session step with
  | nil => rfl
  | cons input inputs ih => exact congrArg (input :: ·) (ih _ _)

theorem consistent_rebuild (seed : UInt32) (records : List StepRecord) :
    Consistent (.rebuild seed records) := rfl

theorem consistent_record (seed : UInt32) (inputs : List StepInput) :
    Consistent (.record seed inputs) := by
  unfold Consistent ReplayTape.rebuild
  have h := recordFrom_inputs (.new seed) 0 inputs
  change { ReplayTape.record seed ((recordFrom (.new seed) 0 inputs).1.map StepRecord.input) with
    records := (recordFrom (.new seed) 0 inputs).1 } = _
  rw [h]
  rfl

/-- The tapes that recording, decoding and cutting to a failing prefix produce. -/
inductive Obtainable : ReplayTape → Prop where
  | record (seed : UInt32) (inputs : List StepInput) : Obtainable (.record seed inputs)
  | decode {bytes : ByteArray} {t : ReplayTape} (h : decode bytes = .ok t) : Obtainable t
  | cut {t u : ReplayTape} {mismatch : ReplayMismatch} (ht : Obtainable t)
      (h : t.minimalFailurePrefix mismatch = some u) : Obtainable u

theorem consistent_decode {bytes : ByteArray} {t : ReplayTape} (h : decode bytes = .ok t) :
    Consistent t := by
  unfold decode at h
  split at h
  · cases h
  · unfold decodeText at h
    split at h
    · cases h
    · next header rest _ =>
      cases hh : decodeHeader (header.splitOn '\t') with
      | error e =>
        rw [hh] at h
        cases h
      | ok seed =>
        rw [hh] at h
        cases hr : decodeLines none [] rest with
        | error e =>
          rw [hr] at h
          cases h
        | ok records =>
          rw [hr] at h
          cases h
          exact consistent_rebuild seed records

theorem Obtainable.consistent {t : ReplayTape} (h : Obtainable t) : Consistent t := by
  cases h with
  | record seed inputs => exact consistent_record seed inputs
  | decode h => exact consistent_decode h
  | cut ht h =>
    unfold ReplayTape.minimalFailurePrefix at h
    split at h
    · cases h
      exact consistent_rebuild _ _
    · cases h

/-- Recorded steps verify, whatever records come after them. -/
theorem verifyFrom_append (session : SessionRuntime) (step index : ℕ) (inputs : List StepInput)
    (rest : List StepRecord) :
    verifyFrom session index ((recordFrom session step inputs).1 ++ rest) =
      verifyFrom (recordFrom session step inputs).2 (index + inputs.length) rest := by
  induction inputs generalizing session step index with
  | nil => rfl
  | cons input inputs ih =>
    have hlen : index + (input :: inputs).length = index + 1 + inputs.length := by
      rw [List.length_cons]
      omega
    rw [hlen]
    exact (if_neg (not_not_intro rfl)).trans (ih _ _ _)

theorem verifyFrom_recordFrom (session : SessionRuntime) (step index : ℕ) (inputs : List StepInput) :
    verifyFrom session index (recordFrom session step inputs).1 =
      .ok (recordFrom session step inputs).2 := by
  have h := verifyFrom_append session step index inputs []
  rwa [List.append_nil] at h

/-- Obtainable tapes come back from their text whole; recorded ones hold the given inputs, one
record for each, then verify and end in a session with the recorded final snapshot. -/
theorem replay_round_trip :
    (∀ t, Obtainable t → decode (encode t) = .ok t) ∧
    ∀ (seed : UInt32) (inputs : List StepInput), ∃ t session,
      decode (encode (.record seed inputs)) = .ok t ∧ replayAndVerify t = .ok session ∧
        session.snapshot = t.finalSnapshot ∧ t = .record seed inputs ∧ t.seed = seed ∧
        t.records.map StepRecord.input = inputs := by
  refine ⟨fun t h => (decode_encode t).trans (congrArg Except.ok h.consistent), fun seed inputs => ?_⟩
  have hc := consistent_record seed inputs
  refine ⟨.record seed inputs, (recordFrom (.new seed) 0 inputs).2,
    (decode_encode _).trans (congrArg Except.ok hc), ?_, rfl, rfl, rfl, recordFrom_inputs _ _ _⟩
  exact verifyFrom_recordFrom (.new seed) 0 0 inputs

end TuiTetris.SessionReplayRoundTrip
