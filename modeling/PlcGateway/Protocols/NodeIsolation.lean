/-
  Isolation of the nodes of a batch read.

  The results of all nodes are gathered, so that a node whose result cannot be made
  fails the batch.  This is so for an integer that no double holds, for a source timestamp
  outside the years of UTC, and for a value whose status is neither good nor uncertain nor bad.
-/
import PlcGateway.Protocols.OpcUaDriver

namespace PlcGateway

open Calendar

namespace OpcUa

/-- The Python type of the payload is that of the request. -/
def HasType : ValueType → PyValue → Prop
  | .numeric, .int _ | .numeric, .float _ | .integer, .int _ | .boolean, .bool _ | .text, .str _
  | .binary, .bytes _ | .binary, .bytearray _ => True
  | _, _ => False

section
variable (ua : StatusCodes)

/-- The status is good or uncertain. -/
def Usable (code : BitVec 32) : Prop := ua.isGood code = true ∨ ua.isUncertain code = true

/-- The node gives a good or uncertain value of the requested type. -/
def Succeeds (tag : TagRequest) (answer : Except ClientError DataValue) : Prop :=
  ∃ dataValue v, answer = .ok dataValue ∧ Usable ua (status dataValue) ∧
    dataValue.value = some v ∧ HasType tag.valueType v

/-- The result of a node is the one of its own answer. -/
structure NodeResult (tag : TagRequest) (answer : Except ClientError DataValue) (r : TagResult) :
    Prop where
  tag_id : r.tagId = tag.tagId
  success : r.isSuccess = true ↔ Succeeds ua tag answer
  quality : ∀ dataValue, answer = .ok dataValue → r.isSuccess = true →
    r.quality = if ua.isGood (status dataValue) then .good else .uncertain
  bad : r.isSuccess = false → r.quality = .bad

/-- The driver cannot make a result of the answer: its timestamp is out of range, or its status
    is not bad and the payload cannot be converted, or has the type and no quality. -/
def Faulty (tag : TagRequest) (answer : Except ClientError DataValue) : Prop :=
  ∃ dataValue, answer = .ok dataValue ∧
    ((∃ t, dataValue.sourceTimestamp = some t ∧ ¬ t.InRange) ∨
      ua.isBad (status dataValue) = false ∧ ∃ v, dataValue.value = some v ∧
        (¬ Usable ua (status dataValue) ∧ HasType tag.valueType v ∨
          tag.valueType = .numeric ∧ ∃ n, v = .int n ∧ ¬ (PyFloat.ofInt n).isOk))

end

variable {tag : TagRequest} {now : DateTime}

/-! ## Results and failures -/

theorem timeoutS_ok {defaultTimeoutMs : ℕ} (h : 0 < defaultTimeoutMs) (tag : TagRequest) :
    ∃ q, timeoutS tag.timeoutMs defaultTimeoutMs = .ok q := by
  refine ⟨_, if_neg ?_⟩
  cases ht : tag.timeoutMs with
  | none => exact h.ne'
  | some t => exact (tag.timeout_pos t ht).ne'

/-- A failure with error details can be made. -/
theorem failure_ok (tag : TagRequest) (now : DateTime) {errorCode errorMessage : String}
    (hcode : strip errorCode ≠ "") (hmessage : strip errorMessage ≠ "") (source : Option DateTime) :
    ∃ r, failure tag.tagId.text errorCode errorMessage now source = .ok r ∧ r.tagId = tag.tagId ∧
      r.isSuccess = false := by
  obtain ⟨code, hc⟩ := Option.ne_none_iff_exists'.1 (mt Stripped.ofText_eq_none_iff.1 hcode)
  obtain ⟨message, hm⟩ := Option.ne_none_iff_exists'.1 (mt Stripped.ofText_eq_none_iff.1 hmessage)
  refine ⟨⟨tag.tagId, now, source, .failure code message⟩, ?_, rfl, rfl⟩
  rw [failure, TagResult.init, setStripped_text, ok_bind]
  simp only [setOptionalStripped, Option.bind_some, hc, hm]
  rfl

/-- A success of good or uncertain quality can be made. -/
theorem success_ok (tag : TagRequest) (now : DateTime) (v : TagValue) (source : DateTime)
    {quality : Quality} (hq : quality ≠ .bad) :
    ∃ r, success tag.tagId.text v source now quality = .ok r ∧ r.tagId = tag.tagId ∧
      r.isSuccess = true ∧ r.quality = quality := by
  refine ⟨⟨tag.tagId, now, some source, .success v quality hq⟩, ?_, rfl, rfl, rfl⟩
  rw [success, TagResult.init, setStripped_text, ok_bind]
  exact dif_neg hq

theorem success_bad (v : TagValue) (source : DateTime) :
    ∃ e, success tag.tagId.text v source now .bad = .error e := by
  rw [success, TagResult.init, setStripped_text, ok_bind]
  exact ⟨_, dif_pos rfl⟩

theorem eq_of_ite_error {α : Type} {p : Prop} [Decidable p] {e e' : PyError} {a : α}
    (h : (if p then throw e else return a : Except PyError α) = .error e') : e' = e := by
  split_ifs at h <;> cases h
  rfl

theorem ofInt_error {n : ℤ} {e : PyError} (h : PyFloat.ofInt n = .error e) :
    e = .overflowError "int too large to convert to float" := eq_of_ite_error h

/-- What the payload is converted to. -/
theorem tagValueFromVariant_cases (valueType : ValueType) (v : PyValue) :
    (∃ value, tagValueFromVariant valueType v = .ok value ∧ HasType valueType v) ∨
      (∃ m, tagValueFromVariant valueType v = .error (typeMismatch m) ∧ ¬ HasType valueType v ∧
        strip m ≠ "") ∨
      ∃ n e, valueType = .numeric ∧ v = .int n ∧ PyFloat.ofInt n = .error e ∧
        tagValueFromVariant valueType v = .error e ∧ e.kind = .other := by
  have htext : ∀ m : String, 'v' ∈ m.toList → strip m ≠ "" := fun m hm => strip_ne_empty hm (by decide)
  cases valueType with
  | numeric =>
    cases v with
    | int n =>
      cases hn : PyFloat.ofInt n with
      | ok x => exact Or.inl ⟨.numeric x, by rw [tagValueFromVariant, hn]; rfl, trivial⟩
      | error e =>
        refine Or.inr (Or.inr ⟨n, e, rfl, rfl, hn, by rw [tagValueFromVariant, hn]; rfl, ?_⟩)
        rw [ofInt_error hn]
        rfl
    | float x => exact Or.inl ⟨_, rfl, trivial⟩
    | bool | str | bytes | bytearray | other => exact Or.inr (Or.inl ⟨_, rfl, id, htext _ (by decide)⟩)
  | integer =>
    cases v with
    | int n => exact Or.inl ⟨_, rfl, trivial⟩
    | bool | float | str | bytes | bytearray | other =>
      exact Or.inr (Or.inl ⟨_, rfl, id, htext _ (by decide)⟩)
  | boolean =>
    cases v with
    | bool b => exact Or.inl ⟨_, rfl, trivial⟩
    | int | float | str | bytes | bytearray | other =>
      exact Or.inr (Or.inl ⟨_, rfl, id, htext _ (by decide)⟩)
  | text =>
    cases v with
    | str s => exact Or.inl ⟨_, rfl, trivial⟩
    | bool | int | float | bytes | bytearray | other =>
      exact Or.inr (Or.inl ⟨_, rfl, id, htext _ (by decide)⟩)
  | binary =>
    cases v with
    | bytes b => exact Or.inl ⟨_, rfl, trivial⟩
    | bytearray b => exact Or.inl ⟨_, rfl, trivial⟩
    | bool | int | float | str | other =>
      exact Or.inr (Or.inl ⟨_, rfl, id, htext _ (by decide)⟩)

/-! ## One node -/

variable {ua : StatusCodes} {dataValue : DataValue}

/-- The timestamp of a data value, unless its instant is out of range. -/
theorem sourceTimestamp_cases (dataValue : DataValue) :
    (∃ d, sourceTimestamp dataValue = .ok d ∧
      ¬ ∃ t, dataValue.sourceTimestamp = some t ∧ ¬ t.InRange) ∨
    ((∃ e, sourceTimestamp dataValue = .error e) ∧
      ∃ t, dataValue.sourceTimestamp = some t ∧ ¬ t.InRange) := by
  rw [sourceTimestamp]
  cases ht : dataValue.sourceTimestamp with
  | none =>
    refine Or.inl ⟨none, rfl, ?_⟩
    rintro ⟨t, h, -⟩
    cases h
  | some t =>
    obtain ⟨d, hd, -⟩ | ⟨hd, hout⟩ := t.astimezone_spec
    · refine Or.inl ⟨some d, by simp only [hd], ?_⟩
      rintro ⟨t', h, hout⟩
      cases h
      have hmap := t.map_astimezone
      rw [if_neg hout, hd] at hmap
      cases hmap
    · exact Or.inr ⟨⟨_, by simp only [hd]; rfl⟩, t, rfl, hout⟩

/-- A status that is good or uncertain is not bad. -/
theorem not_isBad (hua : ua.Documented) {c : BitVec 32} (h : Usable ua c) : ua.isBad c = false := by
  refine Bool.eq_false_iff.2 fun hbad => ?_
  rw [Usable, hua.isGood, hua.isUncertain] at h
  rcases hua.bad_severity c hbad with hs | hs <;> rw [hs] at h <;> revert h <;> decide

theorem qualityFromStatus_eq {c : BitVec 32} (h : Usable ua c) :
    qualityFromStatus ua c = if ua.isGood c then .good else .uncertain := by
  rw [qualityFromStatus]
  by_cases hgood : ua.isGood c = true
  · rw [if_pos hgood, if_pos hgood]
  · rw [if_neg hgood, if_neg hgood, if_pos (h.resolve_left hgood)]

theorem qualityFromStatus_unusable {c : BitVec 32} (h : ¬ Usable ua c) :
    qualityFromStatus ua c = .bad :=
  (if_neg fun hgood => h (.inl hgood)).trans (if_neg fun huncertain => h (.inr huncertain))

theorem mismatchCode_typeMismatch (m : String) :
    mismatchCode (typeMismatch m) = "opcua_value_type_mismatch" := rfl

theorem nodeResult_of_failure {answer : Except ClientError DataValue} {r : TagResult}
    (htag : r.tagId = tag.tagId) (hr : r.isSuccess = false) (hno : ¬ Succeeds ua tag answer) :
    NodeResult ua tag answer r where
  tag_id := htag
  success := iff_of_false (by rw [hr]; exact Bool.false_ne_true) hno
  quality _ _ h := by rw [hr] at h; cases h
  bad _ := by
    obtain ⟨_, _, _, v | _⟩ := r
    · cases hr
    · rfl

/-- A failure is made of a data value when its timestamp can be. -/
theorem failure_of_dataValue {errorCode errorMessage : String} {d : Option DateTime}
    (hcode : strip errorCode ≠ "") (hmessage : strip errorMessage ≠ "")
    (hd : sourceTimestamp dataValue = .ok d) (hno : ¬ Succeeds ua tag (.ok dataValue)) :
    ∃ r, (do failure tag.tagId.text errorCode errorMessage now (← sourceTimestamp dataValue)) = .ok r ∧
      NodeResult ua tag (.ok dataValue) r := by
  obtain ⟨r, hr, htag, hfail⟩ := failure_ok tag now hcode hmessage d
  refine ⟨r, ?_, nodeResult_of_failure htag hfail hno⟩
  rw [hd, ok_bind, hr]

/-- Every branch reads the timestamp, or has failed before. -/
theorem tagResult_timestamp {e : PyError} (he : sourceTimestamp dataValue = .error e) :
    ∃ e', tagResultFromDataValue ua tag dataValue now = .error e' := by
  have hfail : ∀ errorCode errorMessage, (do
      failure tag.tagId.text errorCode errorMessage now (← sourceTimestamp dataValue)) = .error e := by
    intro errorCode errorMessage
    rw [he, error_bind]
  rw [tagResultFromDataValue]
  split_ifs
  · exact ⟨e, hfail _ _⟩
  · cases dataValue.value with
    | none => exact ⟨e, hfail _ _⟩
    | some v =>
      simp only
      cases tagValueFromVariant tag.valueType v with
      | error e' =>
        simp only
        split_ifs
        · exact ⟨e, hfail _ _⟩
        · exact ⟨e', rfl⟩
      | ok value => exact ⟨e, by simp only [he, error_bind]⟩

/-- A data value with a timestamp in range gives its result, unless it is faulty. -/
theorem tagResult_inRange (hua : ua.Documented) {d : Option DateTime}
    (hd : sourceTimestamp dataValue = .ok d)
    (hrange : ¬ ∃ t, dataValue.sourceTimestamp = some t ∧ ¬ t.InRange) :
    (¬ Faulty ua tag (.ok dataValue) ∧
      ∃ r, tagResultFromDataValue ua tag dataValue now = .ok r ∧ NodeResult ua tag (.ok dataValue) r) ∨
    (Faulty ua tag (.ok dataValue) ∧ ∃ e, tagResultFromDataValue ua tag dataValue now = .error e) := by
  have hfaulty : Faulty ua tag (.ok dataValue) ↔ ua.isBad (status dataValue) = false ∧
      ∃ v, dataValue.value = some v ∧ (¬ Usable ua (status dataValue) ∧ HasType tag.valueType v ∨
        tag.valueType = .numeric ∧ ∃ n, v = .int n ∧ ¬ (PyFloat.ofInt n).isOk) := by
    constructor
    · rintro ⟨_, ⟨⟩, ht | hv⟩
      · exact absurd ht hrange
      · exact hv
    · exact fun hv => ⟨dataValue, rfl, Or.inr hv⟩
  have hsucceeds : Succeeds ua tag (.ok dataValue) ↔
      ∃ v, Usable ua (status dataValue) ∧ dataValue.value = some v ∧ HasType tag.valueType v := by
    constructor
    · rintro ⟨_, v, ⟨⟩, h⟩
      exact ⟨v, h⟩
    · rintro ⟨v, h⟩
      exact ⟨dataValue, v, rfl, h⟩
  rw [tagResultFromDataValue]
  cases hbad : ua.isBad (status dataValue) with
  | true =>
    -- a bad status
    refine Or.inl ⟨?_, ?_⟩
    · rw [hfaulty, hbad]
      rintro ⟨h, -⟩
      cases h
    · rw [if_pos rfl]
      refine failure_of_dataValue (by decide) (strip_ne_empty (c := 'O') ?_ (by decide)) hd ?_
      · simp only [String.toList_append, List.mem_append]
        exact Or.inl (Or.inl (by decide))
      · rw [hsucceeds]
        rintro ⟨v, h, -⟩
        rw [not_isBad hua h] at hbad
        cases hbad
  | false =>
    rw [if_neg Bool.false_ne_true]
    rw [hbad, and_iff_right rfl] at hfaulty
    cases hv : dataValue.value with
    | none =>
      -- no payload
      refine Or.inl ⟨?_, failure_of_dataValue (by decide) (strip_ne_empty (c := 'O') ?_ (by decide)) hd ?_⟩
      · rw [hfaulty, hv]
        rintro ⟨v, h, -⟩
        cases h
      · decide
      · rw [hsucceeds, hv]
        rintro ⟨v, -, h, -⟩
        cases h
    | some v =>
      rw [hv] at hfaulty hsucceeds
      simp only
      obtain ⟨value, hvalue, htype⟩ | ⟨m, hvalue, htype, hm⟩ | ⟨n, e, hnum, rfl, hn, hvalue, hkind⟩ :=
        tagValueFromVariant_cases tag.valueType v
      · -- a payload of the requested type
        have hfits : ¬ ∃ n, v = .int n ∧ tag.valueType = .numeric ∧ ¬ (PyFloat.ofInt n).isOk := by
          rintro ⟨n, rfl, hnum, hn⟩
          rw [hnum, tagValueFromVariant] at hvalue
          cases hx : PyFloat.ofInt n with
          | ok x => exact hn (by rw [hx]; rfl)
          | error e => rw [hx] at hvalue; cases hvalue
        have hunusable : Faulty ua tag (.ok dataValue) ↔ ¬ Usable ua (status dataValue) := by
          rw [hfaulty]
          constructor
          · rintro ⟨_, ⟨⟩, ⟨h, -⟩ | ⟨hnum, n, rfl, hn⟩⟩
            · exact h
            · exact absurd ⟨n, rfl, hnum, hn⟩ hfits
          · exact fun h => ⟨v, rfl, Or.inl ⟨h, htype⟩⟩
        simp only [hvalue, hd, ok_bind]
        by_cases husable : Usable ua (status dataValue)
        · have hq : (if ua.isGood (status dataValue) then Quality.good else .uncertain) ≠ .bad := by
            split_ifs <;> exact nofun
          obtain ⟨r, hr, htag, hok, hquality⟩ := success_ok tag now value (d.getD now) hq
          rw [qualityFromStatus_eq husable]
          refine Or.inl ⟨fun h => hunusable.1 h husable, r, hr, htag, ?_, ?_, ?_⟩
          · exact iff_of_true hok (hsucceeds.2 ⟨v, husable, rfl, htype⟩)
          · rintro _ ⟨⟩ -
            exact hquality
          · intro hfail
            rw [hok] at hfail
            cases hfail
        · rw [qualityFromStatus_unusable husable]
          exact Or.inr ⟨hunusable.2 husable, success_bad _ _⟩
      · -- a payload of another type
        refine Or.inl ⟨?_, ?_⟩
        · rw [hfaulty]
          rintro ⟨_, ⟨⟩, ⟨-, h⟩ | ⟨hnum, n, rfl, -⟩⟩
          · exact htype h
          · rw [hnum] at htype
            exact htype trivial
        · simp only [hvalue]
          refine failure_of_dataValue (by rw [mismatchCode_typeMismatch]; decide) hm hd ?_
          rw [hsucceeds]
          rintro ⟨_, -, ⟨⟩, h⟩
          exact htype h
      · -- an integer that is too large
        refine Or.inr ⟨?_, e, ?_⟩
        · rw [hfaulty]
          exact ⟨_, rfl, Or.inr ⟨hnum, n, rfl, by rw [hn]; exact Bool.false_ne_true⟩⟩
        · simp only [hvalue, hkind]
          rfl

/-- A data value gives its result, unless it is faulty. -/
theorem tagResultFromDataValue_cases (hua : ua.Documented) (tag : TagRequest) (dataValue : DataValue)
    (now : DateTime) :
    (¬ Faulty ua tag (.ok dataValue) ∧
      ∃ r, tagResultFromDataValue ua tag dataValue now = .ok r ∧ NodeResult ua tag (.ok dataValue) r) ∨
    (Faulty ua tag (.ok dataValue) ∧ ∃ e, tagResultFromDataValue ua tag dataValue now = .error e) := by
  obtain ⟨d, hd, hrange⟩ | ⟨⟨e, he⟩, hrange⟩ := sourceTimestamp_cases dataValue
  · exact tagResult_inRange hua hd hrange
  · exact Or.inr ⟨⟨dataValue, rfl, Or.inl hrange⟩, tagResult_timestamp he⟩

/-- The exceptions that the driver expects of a node. -/
def Expected (answer : Except ClientError DataValue) : Prop := ∀ e, answer = .error e → e.kind ≠ .other

theorem failureResult_ok {errorCode message : String} {e : ClientError} (hcode : strip errorCode ≠ "")
    (hmessage : 'O' ∈ message.toList) :
    ∃ r, failureResult tag errorCode message now e = .ok r ∧ NodeResult ua tag (.error e) r := by
  have htext : strip (message ++ " " ++ e.className) ≠ "" := by
    refine strip_ne_empty (c := 'O') ?_ (by decide)
    simp only [String.toList_append, List.mem_append]
    exact Or.inl (Or.inl hmessage)
  obtain ⟨r, hr, htag, hfail⟩ := failure_ok tag now hcode htext none
  refine ⟨r, hr, nodeResult_of_failure htag hfail ?_⟩
  rintro ⟨_, _, h, -⟩
  cases h

/-- A node gives its result, unless it is faulty. -/
theorem readTag_cases (hua : ua.Documented) {connectionTimeoutMs : ℕ} (hpos : 0 < connectionTimeoutMs)
    (tag : TagRequest) {answer : Except ClientError DataValue} (hexpected : Expected answer)
    (now : DateTime) :
    (¬ Faulty ua tag answer ∧
      ∃ r, readTag ua connectionTimeoutMs tag answer now = .ok r ∧ NodeResult ua tag answer r) ∨
    (Faulty ua tag answer ∧ ∃ e, readTag ua connectionTimeoutMs tag answer now = .error e) := by
  obtain ⟨q, hq⟩ := timeoutS_ok hpos tag
  unfold readTag
  rw [hq, ok_bind]
  cases answer with
  | ok dataValue => exact tagResultFromDataValue_cases hua tag dataValue now
  | error e =>
    refine Or.inl ⟨?_, ?_⟩
    · rintro ⟨_, h, -⟩
      cases h
    · cases hk : e.kind with
      | timeoutError => simpa only [hk] using failureResult_ok (by decide) (by decide)
      | uaError => simpa only [hk] using failureResult_ok (by decide) (by decide)
      | osError => simpa only [hk] using failureResult_ok (by decide) (by decide)
      | other => exact absurd hk (hexpected e rfl)

end OpcUa

/-! ## The batch -/

theorem exists_map_ok {α : Type} {rs : List (Except PyError α)} (h : ∀ x ∈ rs, ∃ a, x = .ok a) :
    ∃ l : List α, rs = l.map .ok := by
  induction rs with
  | nil => exact ⟨[], rfl⟩
  | cons x rs ih =>
    obtain ⟨hx, hrs⟩ := List.forall_mem_cons.1 h
    obtain ⟨a, rfl⟩ := hx
    obtain ⟨l, rfl⟩ := ih hrs
    exact ⟨a :: l, rfl⟩

namespace OpcUaDriver
variable {ua : StatusCodes} {d : OpcUaDriver} {tags : List TagRequest}
  {answers : ℕ → Except ClientError DataValue} {clock : ℕ → DateTime}

/-- The read returns one result for each request, the one of its own node. -/
def Isolates (ua : StatusCodes) (d : OpcUaDriver) (tags : List TagRequest)
    (answers : ℕ → Except ClientError DataValue) (clock : ℕ → DateTime)
    (out : Except PyError (List TagResult)) : Prop :=
  ∃ results, out = .ok results ∧ results.length = tags.length ∧
    ∀ (i : ℕ) (tag : TagRequest) (r : TagResult), tags[i]? = some tag → results[i]? = some r →
      OpcUa.NodeResult ua tag (answers i) r ∧
        OpcUa.readTag ua d.connection.timeoutMs tag (answers i) (clock i) = .ok r

/-- **A batch isolates its nodes just when none of them is faulty.** -/
theorem read_isolates_iff (hua : ua.Documented) (hconnected : d.requireClient.isOk = true)
    (hexpected : ∀ i, OpcUa.Expected (answers i)) (tags : List TagRequest) (clock : ℕ → DateTime) :
    ((∃ out, d.Reads ua tags answers clock out) ∧
      ∀ out, d.Reads ua tags answers clock out → d.Isolates ua tags answers clock out) ↔
    ∀ i tag, tags[i]? = some tag → ¬ OpcUa.Faulty ua tag (answers i) := by
  obtain ⟨client, hclient⟩ : ∃ client, d.requireClient = .ok client := by
    cases h : d.requireClient with
    | ok client => exact ⟨client, rfl⟩
    | error e => rw [h] at hconnected; cases hconnected
  have hreads : ∀ out, d.Reads ua tags answers clock out ↔ Gather (tags.mapIdx fun i tag =>
      OpcUa.readTag ua d.connection.timeoutMs tag (answers i) (clock i)) out := by
    intro out
    rw [Reads, hclient]
  have hcases := fun i tag =>
    OpcUa.readTag_cases hua d.connection.timeout_pos tag (hexpected i) (clock i)
  simp only [hreads]
  constructor
  · rintro ⟨-, hall⟩ i tag htag hfaulty
    obtain ⟨hno, -⟩ | ⟨-, e, he⟩ := hcases i tag
    · exact hno hfaulty
    · have hmem : .error e ∈ tags.mapIdx fun i tag =>
          OpcUa.readTag ua d.connection.timeoutMs tag (answers i) (clock i) := by
        refine List.mem_of_getElem? (i := i) ?_
        rw [List.getElem?_mapIdx, htag, Option.map_some, he]
      obtain ⟨results, h, -⟩ := hall _ (.first hmem)
      cases h
  · intro hnone
    have hnode : ∀ i tag, tags[i]? = some tag → ∃ r, OpcUa.readTag ua d.connection.timeoutMs tag
        (answers i) (clock i) = .ok r ∧ OpcUa.NodeResult ua tag (answers i) r := by
      intro i tag htag
      obtain ⟨-, hr⟩ | ⟨hfaulty, -⟩ := hcases i tag
      · exact hr
      · exact absurd hfaulty (hnone i tag htag)
    have hok : ∀ x ∈ tags.mapIdx fun i tag =>
        OpcUa.readTag ua d.connection.timeoutMs tag (answers i) (clock i), ∃ r, x = .ok r := by
      intro x hx
      obtain ⟨i, hi⟩ := List.getElem?_of_mem hx
      rw [List.getElem?_mapIdx, Option.map_eq_some_iff] at hi
      obtain ⟨tag, htag, rfl⟩ := hi
      obtain ⟨r, hr, -⟩ := hnode i tag htag
      exact ⟨r, hr⟩
    obtain ⟨l, hl⟩ := exists_map_ok hok
    refine ⟨⟨.ok l, .all hl⟩, ?_⟩
    rintro _ (hall | herr)
    · rename_i results
      refine ⟨results, rfl, ?_, fun i tag r htag hr => ?_⟩
      · have hlength := congrArg List.length hall
        rw [List.length_mapIdx, List.length_map] at hlength
        exact hlength.symm
      · have hi := congrArg (fun rs => rs[i]?) hall
        simp only [List.getElem?_mapIdx, htag, Option.map_some, List.getElem?_map, hr,
          Option.some.injEq] at hi
        obtain ⟨r', hr', hresult⟩ := hnode i tag htag
        rw [hr', Except.ok.injEq] at hi
        rw [← hi]
        exact ⟨hresult, hr'⟩
    · obtain ⟨r, hr⟩ := hok _ herr
      cases hr

/-! ## Batches of several nodes -/

/-- The status codes of the library, without their names: the reserved severity is bad. -/
def statusCodes : StatusCodes where
  isGood code := severity code == 0
  isUncertain code := severity code == 1
  isBad code := severity code == 2 || severity code == 3
  name _ := "Status"

theorem statusCodes_documented : statusCodes.Documented := by
  have hbad : ∀ code, statusCodes.isBad code = true ↔ severity code = 2 ∨ severity code = 3 := by
    intro code
    simp only [statusCodes, Bool.or_eq_true, beq_iff_eq]
  exact ⟨fun _ => beq_iff_eq, fun _ => beq_iff_eq, fun code h => (hbad code).2 (.inl h),
    fun code => (hbad code).1⟩

def connectedDriver : OpcUaDriver := ((init plcConnection).connect .connected).2

def requestOf (valueType : ValueType) : TagRequest :=
  ⟨temperatureTag, ⟨"ns=2;s=temperature", by decide, by decide⟩, valueType, none, nofun⟩

/-- A node that gives the value with the status `code`, and no timestamp. -/
def valueWith (code : BitVec 32) (v : PyValue) : Except ClientError DataValue :=
  .ok ⟨some code, some v, none⟩

theorem expected_valueWith (code : BitVec 32) (v : PyValue) : OpcUa.Expected (valueWith code v) := nofun

/-- A node that is bad, or gives something else than an integer, is not faulty. -/
theorem not_faulty_valueWith {tag : TagRequest} {code : BitVec 32} {v : PyValue}
    (hbad : statusCodes.isBad code = true ∨ OpcUa.Usable statusCodes code ∧
      ∀ n, v = .int n → (PyFloat.ofInt n).isOk) :
    ¬ OpcUa.Faulty statusCodes tag (valueWith code v) := by
  rintro ⟨dataValue, hanswer, ⟨t, ht, -⟩ | ⟨hgood, v', hv, hcase⟩⟩ <;> cases hanswer
  · cases ht
  · cases hv
    rcases hbad with hbad | ⟨husable, hfits⟩
    · exact Bool.false_ne_true (hgood.symm.trans hbad)
    · rcases hcase with ⟨hno, -⟩ | ⟨-, n, rfl, hn⟩
      · exact hno husable
      · exact hn (hfits n rfl)

/-- A value with the reserved status, an uncertain integer, a timeout, and a good text. -/
def mixedAnswers : ℕ → Except ClientError DataValue
  | 0 => valueWith 0xC0000000 (.bool true)
  | 1 => valueWith 0x40000000 (.int (2 ^ 1023))
  | 2 => .error ⟨.timeoutError, "TimeoutError", ""⟩
  | _ => valueWith 0 (.str "ready")

theorem read_isolates_iff_mixed :
    let tags := [requestOf .boolean, requestOf .numeric, requestOf .text, requestOf .text]
    (∃ out, connectedDriver.Reads statusCodes tags mixedAnswers (fun _ => timestamp) out) ∧
      ∀ out, connectedDriver.Reads statusCodes tags mixedAnswers (fun _ => timestamp) out →
        connectedDriver.Isolates statusCodes tags mixedAnswers (fun _ => timestamp) out := by
  intro tags
  have hexpected : ∀ i, OpcUa.Expected (mixedAnswers i) := by
    rintro (_ | _ | _ | i)
    · exact expected_valueWith _ _
    · exact expected_valueWith _ _
    · rintro e ⟨⟩
      exact nofun
    · exact expected_valueWith _ _
  refine (read_isolates_iff statusCodes_documented rfl hexpected tags fun _ => timestamp).2 ?_
  rintro (_ | _ | _ | i) tag -
  · exact not_faulty_valueWith (.inl (by decide))
  · refine not_faulty_valueWith (.inr ⟨.inr (by decide), ?_⟩)
    rintro n ⟨⟩
    decide +kernel
  · rintro ⟨dataValue, hanswer, -⟩
    cases hanswer
  · refine not_faulty_valueWith (.inr ⟨.inl (by decide), ?_⟩)
    rintro n ⟨⟩

/-- The first node gives an integer that no double holds, the second a small one: the read of
    both raises. -/
theorem oversized_integer_fails_batch :
    let tags := [requestOf .numeric, requestOf .numeric]
    let answers := fun i => valueWith 0 (.int (if i = 0 then 2 ^ 1024 else 21))
    let error := PyError.overflowError "int too large to convert to float"
    connectedDriver.Reads statusCodes tags answers (fun _ => timestamp) (.error error) ∧
      ¬ connectedDriver.Isolates statusCodes tags answers (fun _ => timestamp) (.error error) := by
  intro tags answers error
  refine ⟨.first ?_, ?_⟩
  · have hfirst : OpcUa.readTag statusCodes connectedDriver.connection.timeoutMs (requestOf .numeric)
        (valueWith 0 (.int (2 ^ 1024))) timestamp = .error error := by
      decide +kernel
    exact List.mem_of_getElem? (i := 0) (congrArg some hfirst)
  · rintro ⟨results, h, -⟩
    cases h

end OpcUaDriver

end PlcGateway
