/-
  The OPC UA driver (`protocols/opcua.py`).

  The driver makes a client for each connect, keeps the one whose session it uses,
  and reads all tags of a request at once.  The client belongs to the protocol
  library: its answers are arguments, and so are its status codes.
-/
import PlcGateway.Domain.Configuration
import PlcGateway.Library.Coroutine
import PlcGateway.Library.Instants
import Mathlib.Data.Rat.Defs

namespace PlcGateway

open Calendar Coroutine

/-! ## What the client gives -/

/-- The classes that the driver tests an exception of the client for. -/
inductive ClientErrorKind where
  | timeoutError
  | uaError
  | osError
  | other
  deriving DecidableEq, Repr

structure ClientError where
  kind : ClientErrorKind
  className : String
  message : String
  deriving DecidableEq, Repr

/-- The exception, when the driver does not handle it. -/
def ClientError.toPyError (e : ClientError) : PyError :=
  ⟨if e.kind = .timeoutError then .timeoutError else .other, e.className, e.message, .none⟩

/-- The payload of a variant, by its Python type. -/
inductive PyValue where
  | bool (b : Bool)
  | int (n : ℤ)
  | float (x : PyFloat)
  | str (s : String)
  | bytes (b : Bytes)
  | bytearray (b : Bytes)
  | other
  deriving DecidableEq

/-- `ua.DataValue` -/
structure DataValue where
  statusCode : Option (BitVec 32)
  value : Option PyValue
  sourceTimestamp : Option AwareDateTime

/-- `ua.StatusCode` -/
structure StatusCodes where
  isGood : BitVec 32 → Bool
  isUncertain : BitVec 32 → Bool
  isBad : BitVec 32 → Bool
  name : BitVec 32 → String

/-- The top two bits of a status code. -/
def severity (code : BitVec 32) : BitVec 2 := code.extractLsb' 30 2

/-- The predicates test the severity.  The severity 2 is bad; the reserved severity 3 may be
    bad, and is neither good nor uncertain. -/
structure StatusCodes.Documented (ua : StatusCodes) : Prop where
  isGood : ∀ code, ua.isGood code = true ↔ severity code = 0
  isUncertain : ∀ code, ua.isUncertain code = true ↔ severity code = 1
  isBad : ∀ code, severity code = 2 → ua.isBad code = true
  bad_severity : ∀ code, ua.isBad code = true → severity code = 2 ∨ severity code = 3

/-! ## Reading a tag -/

namespace OpcUa

/-- `_timeout_s` -/
def timeoutS (timeoutMs : Option ℕ) (defaultTimeoutMs : ℕ) : Except PyError ℚ :=
  let effectiveTimeoutMs := timeoutMs.getD defaultTimeoutMs
  if effectiveTimeoutMs = 0 then
    .error ⟨.configurationError, "ConfigurationError", "OPC UA timeout must be positive.",
      .text "opcua_invalid_timeout"⟩
  else .ok (effectiveTimeoutMs / 1000)

/-- `TagResult.failure` -/
def failure (tagId errorCode errorMessage : String) (receivedAt : DateTime)
    (sourceTimestamp : Option DateTime) : Except PyError TagResult :=
  TagResult.init tagId .bad receivedAt sourceTimestamp none (some errorCode) (some errorMessage)

/-- `TagResult.success` -/
def success (tagId : String) (value : TagValue) (sourceTimestamp receivedAt : DateTime)
    (quality : Quality) : Except PyError TagResult :=
  TagResult.init tagId quality receivedAt (some sourceTimestamp) (some value) none none

/-- `_failure_result` -/
def failureResult (tag : TagRequest) (errorCode message : String) (receivedAt : DateTime)
    (error : ClientError) : Except PyError TagResult :=
  failure tag.tagId.text errorCode (message ++ " " ++ error.className) receivedAt none

def typeMismatch (message : String) : PyError :=
  ⟨.configurationError, "ConfigurationError", message, .text "opcua_value_type_mismatch"⟩

/-- `_tag_value_from_variant` -/
def tagValueFromVariant (valueType : ValueType) (rawValue : PyValue) : Except PyError TagValue :=
  match valueType, rawValue with
  | .numeric, .int n => .numeric <$> PyFloat.ofInt n
  | .numeric, .float x => .ok (.numeric x)
  | .numeric, _ => .error (typeMismatch "OPC UA numeric value must be int or float.")
  | .integer, .int n => .ok (.integer n)
  | .integer, _ => .error (typeMismatch "OPC UA integer value must be int.")
  | .boolean, .bool b => .ok (.boolean b)
  | .boolean, _ => .error (typeMismatch "OPC UA boolean value must be bool.")
  | .text, .str s => .ok (.text s)
  | .text, _ => .error (typeMismatch "OPC UA text value must be str.")
  | .binary, .bytes b => .ok (.binary b)
  | .binary, .bytearray b => .ok (.binary b)
  | .binary, _ => .error (typeMismatch "OPC UA binary value must be bytes.")

/-- `error.code or "opcua_value_type_mismatch"` -/
def mismatchCode (e : PyError) : String :=
  match e.code with
  | .text s => if s = "" then "opcua_value_type_mismatch" else s
  | _ => "opcua_value_type_mismatch"

/-- `_source_timestamp` -/
def sourceTimestamp (dataValue : DataValue) : Except PyError (Option DateTime) :=
  match dataValue.sourceTimestamp with
  | none => .ok none
  | some t => match t.astimezone with
    | some d => .ok (some d)
    | none => .error (.overflowError "date value out of range")

/-- `data_value.StatusCode or ua.StatusCode()` -/
def status (dataValue : DataValue) : BitVec 32 := dataValue.statusCode.getD 0

variable (ua : StatusCodes)

/-- `_quality_from_status` -/
def qualityFromStatus (statusCode : BitVec 32) : Quality :=
  if ua.isGood statusCode then .good
  else if ua.isUncertain statusCode then .uncertain
  else .bad

/-- `_tag_result_from_data_value` -/
def tagResultFromDataValue (tag : TagRequest) (dataValue : DataValue) (receivedAt : DateTime) :
    Except PyError TagResult :=
  let statusCode := status dataValue
  let quality := qualityFromStatus ua statusCode
  if ua.isBad statusCode then do
    failure tag.tagId.text "opcua_bad_status" s!"OPC UA status {ua.name statusCode}." receivedAt
      (← sourceTimestamp dataValue)
  else match dataValue.value with
  | none => do
    failure tag.tagId.text "opcua_empty_value" "OPC UA data value has no variant payload." receivedAt
      (← sourceTimestamp dataValue)
  | some rawValue =>
    match tagValueFromVariant tag.valueType rawValue with
    | .error e =>
      if e.kind = .configurationError then do
        failure tag.tagId.text (mismatchCode e) e.message receivedAt (← sourceTimestamp dataValue)
      else .error e
    | .ok tagValue => do
      success tag.tagId.text tagValue ((← sourceTimestamp dataValue).getD receivedAt) receivedAt quality

/-- `_read_tag`, of a node that gives `answer`. -/
def readTag (connectionTimeoutMs : ℕ) (tag : TagRequest) (answer : Except ClientError DataValue)
    (now : DateTime) : Except PyError TagResult := do
  let _ ← timeoutS tag.timeoutMs connectionTimeoutMs
  match answer with
  | .ok dataValue => tagResultFromDataValue ua tag dataValue now
  | .error e => match e.kind with
    | .timeoutError => failureResult tag "opcua_read_timeout" "OPC UA read timed out." now e
    | .uaError => failureResult tag "opcua_read_failed" "OPC UA read failed." now e
    | .osError => failureResult tag "opcua_socket_read_failed" "OPC UA socket read failed." now e
    | .other => .error e.toPyError

end OpcUa

/-- What `asyncio.gather` may come to: the results in order, or an exception of one
    of the tasks. -/
inductive Gather {α : Type} (rs : List (Except PyError α)) : Except PyError (List α) → Prop
  | all {l : List α} : rs = l.map .ok → Gather rs (.ok l)
  | first {e : PyError} : .error e ∈ rs → Gather rs (.error e)

/-! ## The driver -/

/-- The connection of the tests. -/
def plcConnection : ConnectionConfig :=
  ⟨mockConnection, ⟨"opcua", by decide, by decide⟩, ⟨"opc.tcp://localhost:4840", by decide, by decide⟩,
    true, 3000, [], by decide⟩

/-- A client that the factory has made, with what has come of it: whether it opened
    its session, and whether `disconnect` was called on it. -/
structure OpcUaClient where
  opened : Bool
  disconnected : Bool
  deriving DecidableEq, Repr

/-- What may come of `client.connect`, with its timeout: an attempt that does not
    succeed may have opened the session before. -/
inductive ConnectAnswer where
  | connected
  | failed (e : ClientError) (opened : Bool)
  | cancelled (opened : Bool)
  deriving DecidableEq, Repr

/-- The driver of a connection; `client` is the number of a client. -/
structure OpcUaDriver where
  connection : ConnectionConfig
  client : Option ℕ
  connected : Bool
  clients : List OpcUaClient

namespace OpcUaDriver

/-- `OpcUaDriver.__init__` -/
def init (connection : ConnectionConfig) : OpcUaDriver := ⟨connection, none, false, []⟩

def transientError (message code : String) : PyError :=
  ⟨.transientCommunicationError, "TransientCommunicationError", message, .text code⟩

/-- What `connect` raises for an exception of the client. -/
def connectError (e : ClientError) : PyError :=
  match e.kind with
  | .timeoutError => transientError "OPC UA connect timed out." "opcua_connect_timeout"
  | .uaError => transientError "OPC UA connect failed." "opcua_connect_failed"
  | .osError => transientError "OPC UA socket connect failed." "opcua_socket_connect_failed"
  | .other => e.toPyError

/-- What `disconnect` raises for an exception of the client. -/
def disconnectError (e : ClientError) : PyError :=
  match e.kind with
  | .timeoutError => transientError "OPC UA disconnect timed out." "opcua_disconnect_timeout"
  | .uaError => transientError "OPC UA disconnect failed." "opcua_disconnect_failed"
  | .osError | .other => e.toPyError

def connect (answer : ConnectAnswer) (d : OpcUaDriver) : Outcome PyError Unit × OpcUaDriver :=
  let client := d.clients.length
  match answer with
  | .connected =>
    (.ok (), { d with
      client := some client, connected := true, clients := d.clients ++ [⟨true, false⟩] })
  | .failed e opened =>
    (.error (.error (connectError e)), { d with clients := d.clients ++ [⟨opened, false⟩] })
  | .cancelled opened =>
    (.error .cancelled, { d with clients := d.clients ++ [⟨opened, false⟩] })

def disconnect (answer : Outcome ClientError Unit) (d : OpcUaDriver) :
    Outcome PyError Unit × OpcUaDriver :=
  match d.client with
  | none => (.ok (), { d with client := none, connected := false })
  | some client =>
    let d := { d with
      client := none
      connected := false
      clients := d.clients.modify client fun c => { c with disconnected := true } }
    match answer with
    | .ok () => (.ok (), d)
    | .error (.error e) => (.error (.error (disconnectError e)), d)
    | .error .cancelled => (.error .cancelled, d)

def healthCheck (answer : Outcome ClientError Unit) (d : OpcUaDriver) :
    Outcome PyError Bool × OpcUaDriver :=
  if d.client.isNone || !d.connected then (.ok false, d)
  else match answer with
    | .ok () => (.ok true, d)
    | .error (.error e) => match e.kind with
      | .timeoutError | .uaError => (.ok false, { d with connected := false })
      | .osError | .other => (.error (.error e.toPyError), d)
    | .error .cancelled => (.error .cancelled, d)

/-- `_require_client` -/
def requireClient (d : OpcUaDriver) : Except PyError ℕ :=
  match d.client, d.connected with
  | some client, true => .ok client
  | _, _ => .error (transientError "OPC UA client is not connected." "opcua_not_connected")

/-- What `read` may come to, when the nodes give `answers` at the times `clock`. -/
def Reads (ua : StatusCodes) (d : OpcUaDriver) (tags : List TagRequest)
    (answers : ℕ → Except ClientError DataValue) (clock : ℕ → DateTime)
    (out : Except PyError (List TagResult)) : Prop :=
  match d.requireClient with
  | .error e => out = .error e
  | .ok _ => Gather (tags.mapIdx fun i tag =>
      OpcUa.readTag ua d.connection.timeoutMs tag (answers i) (clock i)) out

end OpcUaDriver

end PlcGateway
