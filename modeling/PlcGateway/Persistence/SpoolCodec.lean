/-
  The payload of a spool entry (`persistence/spool.py`).

  `json.dumps` and `json.loads` invert each other on JSON trees, so the payload
  column is modelled as the tree; `pollResultFromJson_toJson` is the round trip.
-/
import PlcGateway.Domain.Json
import PlcGateway.Library.Base64
import Mathlib.Data.List.Sort
import Mathlib.Data.String.Basic

namespace PlcGateway

open Calendar

def invalidField (fieldName : String) : PyError :=
  .storage s!"Invalid spooled payload field '{fieldName}'." .none

/-- `_require_dict` -/
def requireDict (value : Json) (fieldName : String) : Except PyError JsonDict :=
  match value with
  | .dict fields => .ok fields
  | _ => .error (invalidField fieldName)

/-- `_require_list` -/
def requireList (value : Json) (fieldName : String) : Except PyError (List Json) :=
  match value with
  | .list items => .ok items
  | _ => .error (invalidField fieldName)

/-- `_require_str` -/
def requireStr (value : Json) (fieldName : String) : Except PyError String :=
  match value with
  | .str s => .ok s
  | _ => .error (invalidField fieldName)

/-- `_optional_str` -/
def optionalStr (value : Json) (fieldName : String) : Except PyError (Option String) :=
  match value with
  | .null => .ok none
  | _ => some <$> requireStr value fieldName

/-- `_require_int` -/
def requireInt (value : Json) (fieldName : String) : Except PyError ℤ :=
  match value with
  | .int n => .ok n
  | _ => .error (invalidField fieldName)

/-- `_datetime_to_json` -/
def datetimeToJson (value : DateTime) : String := isoformat value

/-- `_datetime_from_json` -/
def datetimeFromJson (value : String) : Except PyError DateTime :=
  match fromisoformat value with
  | some d => .ok d
  | none => .error (.valueError s!"Invalid isoformat string: '{value}'")

/-- `_optional_datetime_from_json` -/
def optionalDatetimeFromJson (value : Json) : Except PyError (Option DateTime) :=
  match value with
  | .null => .ok none
  | _ => do some <$> datetimeFromJson (← requireStr value "datetime")

/-- `base64.b64decode(encoded.encode("ascii"))` -/
def b64decode (encoded : String) : Except PyError Bytes :=
  if encoded.toList.all (·.toNat < 128) then
    match Base64.decode encoded with
    | .ok b => .ok b
    | .error .oneMoreThanMultipleOfFour => .error (.binasciiError ("Invalid base64-encoded string: " ++
        "number of data characters cannot be 1 more than a multiple of 4"))
    | .error .incorrectPadding => .error (.binasciiError "Incorrect padding")
  else .error ⟨.other, "UnicodeEncodeError", "ordinal not in range(128)", .none⟩

/-- `_tag_value_to_json` -/
def tagValueToJson (value : TagValue) : JsonDict :=
  [("value_type", .str value.valueType.value),
   ("numeric_value", .ofOption .float value.numericValue),
   ("integer_value", .ofOption .int value.integerValue),
   ("boolean_value", .ofOption .bool value.booleanValue),
   ("text_value", .ofOption .str value.textValue),
   ("binary_value", .ofOption (fun b => .str (Base64.encode b)) value.binaryValue)]

/-- `_tag_value_from_json` -/
def tagValueFromJson (payload : JsonDict) : Except PyError TagValue := do
  let valueType ← ValueType.ofValue (← requireStr (← payload.item "value_type") "value_type")
  match valueType with
  | .numeric => match payload.get "numeric_value" with
    | .float x => return .numeric x
    | .int n => return .numeric (← PyFloat.ofInt n)
    | _ => throw (.storage "Invalid spooled numeric value." .none)
  | .integer => match payload.get "integer_value" with
    | .int n => return .integer n
    | _ => throw (.storage "Invalid spooled integer value." .none)
  | .boolean => match payload.get "boolean_value" with
    | .bool b => return .boolean b
    | _ => throw (.storage "Invalid spooled boolean value." .none)
  | .text => return .text (← requireStr (payload.get "text_value") "text_value")
  | .binary =>
    return .binary (← b64decode (← requireStr (payload.get "binary_value") "binary_value"))

/-- The value of a result: `None` is no value. -/
def optionalTagValueFromJson (value : Json) : Except PyError (Option TagValue) :=
  match value with
  | .null => .ok none
  | _ => do some <$> tagValueFromJson (← requireDict value "value")

/-- `_tag_result_to_json` -/
def tagResultToJson (result : TagResult) : JsonDict :=
  [("tag_id", .str result.tagId.text),
   ("quality", .str result.quality.value),
   ("received_at", .str (datetimeToJson result.receivedAt)),
   ("source_timestamp", .ofOption (fun d => .str (datetimeToJson d)) result.sourceTimestamp),
   ("value", .ofOption (fun v => .dict (tagValueToJson v)) result.value),
   ("error_code", .ofOption (fun c => .str c.text) result.errorCode),
   ("error_message", .ofOption (fun m => .str m.text) result.errorMessage)]

/-- `_tag_result_from_json` -/
def tagResultFromJson (payload : JsonDict) : Except PyError TagResult := do
  let tagId ← requireStr (← payload.item "tag_id") "tag_id"
  let quality ← Quality.ofValue (← requireStr (← payload.item "quality") "quality")
  let receivedAt ← datetimeFromJson
    (← requireStr (← payload.item "received_at") "received_at")
  let sourceTimestamp ← optionalDatetimeFromJson (payload.get "source_timestamp")
  let value ← optionalTagValueFromJson (payload.get "value")
  let errorCode ← optionalStr (payload.get "error_code") "error_code"
  let errorMessage ← optionalStr (payload.get "error_message") "error_message"
  TagResult.init tagId quality receivedAt sourceTimestamp value errorCode errorMessage

def executionToJson (execution : PollExecution) : JsonDict :=
  [("execution_id", .str execution.executionId.text),
   ("connection_id", .str execution.connectionId.text),
   ("tag_group_id", .str execution.tagGroupId.text),
   ("status", .str execution.status.value),
   ("started_at", .str (datetimeToJson execution.startedAt)),
   ("finished_at", .ofOption (fun d => .str (datetimeToJson d)) execution.finishedAt),
   ("requested_tags", .int execution.requestedTags),
   ("successful_tags", .int execution.successfulTags),
   ("failed_tags", .int execution.failedTags),
   ("error_message", .ofOption (fun m => .str m.text) execution.errorMessage)]

/-- `_poll_result_to_json` -/
def pollResultToJson (pollResult : WorkerPollResult) : JsonDict :=
  [("execution", .dict (executionToJson pollResult.execution)),
   ("results", .list (pollResult.results.map fun result => .dict (tagResultToJson result)))]

def executionFromJson (payload : JsonDict) : Except PyError PollExecution := do
  let executionId ← requireStr (← payload.item "execution_id") "execution_id"
  let connectionId ← requireStr (← payload.item "connection_id") "connection_id"
  let tagGroupId ← requireStr (← payload.item "tag_group_id") "tag_group_id"
  let status ← PollStatus.ofValue (← requireStr (← payload.item "status") "status")
  let startedAt ← datetimeFromJson (← requireStr (← payload.item "started_at") "started_at")
  let finishedAt ← optionalDatetimeFromJson (payload.get "finished_at")
  let requestedTags ← requireInt (← payload.item "requested_tags") "requested_tags"
  let successfulTags ← requireInt (← payload.item "successful_tags") "successful_tags"
  let failedTags ← requireInt (← payload.item "failed_tags") "failed_tags"
  let errorMessage ← optionalStr (payload.get "error_message") "error_message"
  PollExecution.init executionId connectionId tagGroupId status startedAt finishedAt requestedTags
    successfulTags failedTags errorMessage

/-- `_poll_result_from_json` -/
def pollResultFromJson (payload : JsonDict) : Except PyError WorkerPollResult := do
  let executionPayload ← requireDict (← payload.item "execution") "execution"
  let resultsPayload ← requireList (← payload.item "results") "results"
  let execution ← executionFromJson executionPayload
  let results ← resultsPayload.mapM fun item => do tagResultFromJson (← requireDict item "result")
  return { execution, results }

/-! ## The round trip -/

theorem datetimeFromJson_toJson (d : DateTime) : datetimeFromJson (datetimeToJson d) = .ok d := by
  rw [datetimeFromJson, datetimeToJson, fromisoformat_isoformat]

theorem optionalDatetimeFromJson_ofOption (d : Option DateTime) :
    optionalDatetimeFromJson (.ofOption (fun d => .str (datetimeToJson d)) d) = .ok d := by
  cases d with
  | none => rfl
  | some d =>
    show some <$> datetimeFromJson (datetimeToJson d) = _
    rw [datetimeFromJson_toJson]; rfl

theorem optionalStr_ofOption (m : Option Stripped) (f : String) :
    optionalStr (.ofOption (fun m => .str m.text) m) f = .ok (m.map Stripped.text) := by
  cases m <;> rfl

theorem b64decode_encode (b : Bytes) : b64decode (Base64.encode b) = .ok b := by
  rw [b64decode, if_pos (Base64.encode_ascii b), Base64.decode_encode]

theorem tagValueFromJson_toJson (v : TagValue) : tagValueFromJson (tagValueToJson v) = .ok v := by
  cases v with
  | binary b =>
    show TagValue.binary <$> b64decode (Base64.encode b) = _
    rw [b64decode_encode]; rfl
  | _ => rfl

theorem optionalTagValueFromJson_ofOption (v : Option TagValue) :
    optionalTagValueFromJson (.ofOption (fun v => .dict (tagValueToJson v)) v) = .ok v := by
  cases v with
  | none => rfl
  | some v =>
    show some <$> tagValueFromJson (tagValueToJson v) = _
    rw [tagValueFromJson_toJson]; rfl

@[simp] theorem requireStr_str (t f : String) : requireStr (.str t) f = .ok t := rfl

@[simp] theorem requireInt_int (n : ℤ) (f : String) : requireInt (.int n) f = .ok n := rfl

@[simp] theorem requireDict_dict (d : JsonDict) (f : String) : requireDict (.dict d) f = .ok d := rfl

@[simp] theorem requireList_list (l : List Json) (f : String) : requireList (.list l) f = .ok l := rfl

theorem tagResultFromJson_toJson (r : TagResult) :
    tagResultFromJson (tagResultToJson r) = .ok r := by
  have ht : (tagResultToJson r).item "tag_id" = .ok (.str r.tagId.text) := rfl
  have hq : (tagResultToJson r).item "quality" = .ok (.str r.quality.value) := rfl
  have hr : (tagResultToJson r).item "received_at" = .ok (.str (datetimeToJson r.receivedAt)) := rfl
  have hs : (tagResultToJson r).get "source_timestamp" =
      .ofOption (fun d => .str (datetimeToJson d)) r.sourceTimestamp := rfl
  have hv : (tagResultToJson r).get "value" =
      .ofOption (fun v => .dict (tagValueToJson v)) r.value := rfl
  have hc : (tagResultToJson r).get "error_code" = .ofOption (fun c => .str c.text) r.errorCode := rfl
  have hm : (tagResultToJson r).get "error_message" =
      .ofOption (fun m => .str m.text) r.errorMessage := rfl
  simp only [tagResultFromJson, ht, hq, hr, hs, hv, hc, hm, ok_bind, requireStr_str,
    Quality.ofValue_value, datetimeFromJson_toJson, optionalDatetimeFromJson_ofOption,
    optionalTagValueFromJson_ofOption, optionalStr_ofOption]
  exact r.init_self

theorem executionFromJson_toJson (e : PollExecution) :
    executionFromJson (executionToJson e) = .ok e := by
  have hi : (executionToJson e).item "execution_id" = .ok (.str e.executionId.text) := rfl
  have hc : (executionToJson e).item "connection_id" = .ok (.str e.connectionId.text) := rfl
  have hg : (executionToJson e).item "tag_group_id" = .ok (.str e.tagGroupId.text) := rfl
  have hs : (executionToJson e).item "status" = .ok (.str e.status.value) := rfl
  have ha : (executionToJson e).item "started_at" = .ok (.str (datetimeToJson e.startedAt)) := rfl
  have hf : (executionToJson e).get "finished_at" =
      .ofOption (fun d => .str (datetimeToJson d)) e.finishedAt := rfl
  have hn : (executionToJson e).item "requested_tags" = .ok (.int e.requestedTags) := rfl
  have hn' : (executionToJson e).item "successful_tags" = .ok (.int e.successfulTags) := rfl
  have hn'' : (executionToJson e).item "failed_tags" = .ok (.int e.failedTags) := rfl
  have hm : (executionToJson e).get "error_message" =
      .ofOption (fun m => .str m.text) e.errorMessage := rfl
  simp only [executionFromJson, hi, hc, hg, hs, ha, hf, hn, hn', hn'', hm, ok_bind, requireStr_str,
    requireInt_int, PollStatus.ofValue_value, datetimeFromJson_toJson,
    optionalDatetimeFromJson_ofOption, optionalStr_ofOption]
  exact e.init_self

theorem tagResultsFromJson_toJson (rs : List TagResult) :
    ((rs.map fun result => Json.dict (tagResultToJson result)).mapM fun item => do
      tagResultFromJson (← requireDict item "result")) = .ok rs := by
  induction rs with
  | nil => rfl
  | cons r rs ih =>
    rw [List.map_cons, List.mapM_cons, ih, requireDict_dict, ok_bind, tagResultFromJson_toJson]
    rfl

/-- **A spooled poll result is read back as it was.** -/
theorem pollResultFromJson_toJson (r : WorkerPollResult) :
    pollResultFromJson (pollResultToJson r) = .ok r := by
  have he : (pollResultToJson r).item "execution" = .ok (.dict (executionToJson r.execution)) := rfl
  have hr : (pollResultToJson r).item "results" =
      .ok (.list (r.results.map fun result => .dict (tagResultToJson result))) := rfl
  simp only [pollResultFromJson, he, hr, ok_bind, requireDict_dict, requireList_list,
    executionFromJson_toJson]
  rw [tagResultsFromJson_toJson]
  rfl

/-! ## The order of the keys -/

mutual

/-- `json.loads(json.dumps(·, sort_keys=True))`: the tree with its keys in order. -/
def Json.sortKeys : Json → Json
  | .list items => .list (sortKeysList items)
  | .dict fields => .dict (sortKeysDict fields)
  | .null => .null
  | .bool b => .bool b
  | .int n => .int n
  | .float x => .float x
  | .str s => .str s

def sortKeysList : List Json → List Json
  | [] => []
  | item :: items => item.sortKeys :: sortKeysList items

def sortKeysDict : List (String × Json) → JsonDict
  | [] => []
  | (key, value) :: fields =>
    (sortKeysDict fields).orderedInsert (fun a b => a.1 ≤ b.1) (key, value.sortKeys)

end

theorem lookup_orderedInsert (key : String) (field : String × Json) (fields : JsonDict) :
    (fields.orderedInsert (fun a b => a.1 ≤ b.1) field).lookup key =
      (field :: fields).lookup key := by
  induction fields with
  | nil => rfl
  | cons f fields ih =>
    rw [List.orderedInsert]
    split_ifs with hle
    · rfl
    · have hne : f.1 ≠ field.1 := fun h => hle h.ge
      rw [List.lookup_cons, ih, List.lookup_cons, List.lookup_cons, List.lookup_cons]
      by_cases hf : key = f.1
      · have hfield : (key == field.1) = false := beq_false_of_ne fun h => hne (hf.symm.trans h)
        rw [beq_iff_eq.2 hf, hfield]
      · rw [beq_false_of_ne hf]

theorem lookup_sortKeysDict (payload : JsonDict) (key : String) :
    (sortKeysDict payload).lookup key = (payload.lookup key).map Json.sortKeys := by
  induction payload with
  | nil => rfl
  | cons field payload ih =>
    obtain ⟨k, v⟩ := field
    rw [sortKeysDict, lookup_orderedInsert]
    simp only [List.lookup_cons]
    cases key == k with
    | true => rfl
    | false => exact ih

theorem get_sortKeysDict (payload : JsonDict) (key : String) :
    JsonDict.get (sortKeysDict payload) key = (JsonDict.get payload key).sortKeys := by
  rw [JsonDict.get, JsonDict.get, lookup_sortKeysDict]
  cases payload.lookup key with
  | none => rw [Option.map_none, Option.getD_none, Json.sortKeys]
  | some v => rfl

theorem item_sortKeysDict (payload : JsonDict) (key : String) :
    JsonDict.item (sortKeysDict payload) key = Json.sortKeys <$> JsonDict.item payload key := by
  rw [JsonDict.item, JsonDict.item, lookup_sortKeysDict]
  cases payload.lookup key <;> rfl

@[simp] theorem requireStr_sortKeys (j : Json) (f : String) :
    requireStr j.sortKeys f = requireStr j f := by
  cases j <;> rw [Json.sortKeys] <;> rfl

@[simp] theorem requireInt_sortKeys (j : Json) (f : String) :
    requireInt j.sortKeys f = requireInt j f := by
  cases j <;> rw [Json.sortKeys] <;> rfl

@[simp] theorem requireDict_sortKeys (j : Json) (f : String) :
    requireDict j.sortKeys f = sortKeysDict <$> requireDict j f := by
  cases j <;> rw [Json.sortKeys] <;> rfl

@[simp] theorem requireList_sortKeys (j : Json) (f : String) :
    requireList j.sortKeys f = sortKeysList <$> requireList j f := by
  cases j <;> rw [Json.sortKeys] <;> rfl

@[simp] theorem optionalStr_sortKeys (j : Json) (f : String) :
    optionalStr j.sortKeys f = optionalStr j f := by
  cases j <;> rw [Json.sortKeys] <;> rfl

@[simp] theorem optionalDatetimeFromJson_sortKeys (j : Json) :
    optionalDatetimeFromJson j.sortKeys = optionalDatetimeFromJson j := by
  cases j <;> rw [Json.sortKeys] <;> rfl

/-- A monadic step on a reordered field. -/
theorem item_sortKeysDict_bind {α : Type} (payload : JsonDict) (key : String)
    (f : Json → Except PyError α) :
    (JsonDict.item (sortKeysDict payload) key >>= f) =
      JsonDict.item payload key >>= fun j => f j.sortKeys := by
  rw [item_sortKeysDict]
  cases JsonDict.item payload key <;> rfl

theorem tagValueFromJson_sortKeys (payload : JsonDict) :
    tagValueFromJson (sortKeysDict payload) = tagValueFromJson payload := by
  simp only [tagValueFromJson, item_sortKeysDict_bind, requireStr_sortKeys, get_sortKeysDict]
  refine bind_congr fun _ => bind_congr fun _ => bind_congr fun valueType => ?_
  cases valueType with
  | numeric => cases JsonDict.get payload "numeric_value" <;> rw [Json.sortKeys]
  | integer => cases JsonDict.get payload "integer_value" <;> rw [Json.sortKeys]
  | boolean => cases JsonDict.get payload "boolean_value" <;> rw [Json.sortKeys]
  | text => rfl
  | binary => rfl

theorem optionalTagValueFromJson_sortKeys (j : Json) :
    optionalTagValueFromJson j.sortKeys = optionalTagValueFromJson j := by
  cases j with
  | dict fields =>
    rw [Json.sortKeys]
    show some <$> tagValueFromJson (sortKeysDict fields) = some <$> tagValueFromJson fields
    rw [tagValueFromJson_sortKeys]
  | list items => rw [Json.sortKeys]; rfl
  | _ => rw [Json.sortKeys]

theorem tagResultFromJson_sortKeys (payload : JsonDict) :
    tagResultFromJson (sortKeysDict payload) = tagResultFromJson payload := by
  simp only [tagResultFromJson, item_sortKeysDict_bind, requireStr_sortKeys, get_sortKeysDict,
    optionalDatetimeFromJson_sortKeys, optionalTagValueFromJson_sortKeys, optionalStr_sortKeys]

theorem executionFromJson_sortKeys (payload : JsonDict) :
    executionFromJson (sortKeysDict payload) = executionFromJson payload := by
  simp only [executionFromJson, item_sortKeysDict_bind, requireStr_sortKeys, get_sortKeysDict,
    requireInt_sortKeys, optionalDatetimeFromJson_sortKeys, optionalStr_sortKeys]

theorem tagResultsFromJson_sortKeys (items : List Json) :
    ((sortKeysList items).mapM fun item => do tagResultFromJson (← requireDict item "result")) =
      (items.mapM fun item => do tagResultFromJson (← requireDict item "result")) := by
  induction items with
  | nil => rfl
  | cons item items ih =>
    rw [sortKeysList, List.mapM_cons, List.mapM_cons, ih]
    simp only [requireDict_sortKeys, bind_map_left, tagResultFromJson_sortKeys]

/-- The decoder does not depend on the order of the keys. -/
theorem pollResultFromJson_sortKeys (payload : JsonDict) :
    pollResultFromJson (sortKeysDict payload) = pollResultFromJson payload := by
  simp only [pollResultFromJson, item_sortKeysDict_bind, requireDict_sortKeys,
    requireList_sortKeys, bind_map_left, executionFromJson_sortKeys, tagResultsFromJson_sortKeys]

end PlcGateway
