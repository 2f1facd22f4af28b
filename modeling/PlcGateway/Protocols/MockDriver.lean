/-
  The mock driver (`protocols/mock.py`).

  Its methods are coroutines that await the sleeper only.  The driver counts the answers of
  each configured sequence; the reference `resultsFrom` needs no such state: what a tag
  answers depends on how often it was requested before.  `mock_driver_deterministic` says
  that in every interleaving the reads are answered one after the other, each as the reference
  says after those before it, and that the first connections fail as configured.
-/
import PlcGateway.Library.Interleaving
import PlcGateway.Protocols.MockConfig
import PlcGateway.Runtime.ConnectionWorker

namespace PlcGateway

open Calendar Coroutine Tables

/-! ## The driver -/

/-- The fields that change, and the history of the connection attempts and of the tags that
    were answered. -/
structure MockDriver where
  connected : Bool
  remainingConnectFailures : ℕ
  sequenceOffsets : Table String ℕ
  connects : List Bool
  served : List String

/-- What a method awaits: the sleeper, with a duration in seconds. -/
abbrev MockCalls : Calls := ⟨ℚ, fun _ => Unit⟩

abbrev MockProg := Prog MockCalls MockDriver PyError

def mockError (message code : String) : PyError :=
  ⟨.transientCommunicationError, "TransientCommunicationError", message, .text code⟩

/-- What a forced or a too long delay raises. -/
def mockTimeout (operation : String) : PyError := mockError s!"Mock {operation} timed out." "mock_timeout"

def mockConnectionFailed : PyError := mockError "Mock connection failed." "mock_connection_failed"

def mockNotConnected : PyError := mockError "Mock driver is not connected." "mock_not_connected"

/-! ## Values -/

/-- `_tag_value_from_raw` -/
def mockTagValueFromRaw : ValueType → RawValue → Except PyError TagValue
  | .numeric, .json (.float x) => .ok (.numeric x)
  | .numeric, .json (.int n) => .numeric <$> PyFloat.ofInt n
  | .numeric, _ => .error (.configuration "Mock numeric value must be int or float.")
  | .integer, .json (.int n) => .ok (.integer n)
  | .integer, _ => .error (.configuration "Mock integer value must be int.")
  | .boolean, .json (.bool b) => .ok (.boolean b)
  | .boolean, _ => .error (.configuration "Mock boolean value must be bool.")
  | .text, .json (.str s) => .ok (.text s)
  | .text, _ => .error (.configuration "Mock text value must be str.")
  | .binary, .json (.str s) => .ok (.binary s.toUTF8.toList)
  | .binary, .bytes b => .ok (.binary b)
  | .binary, _ => .error (.configuration "Mock binary value must be bytes or str.")

/-- `_default_raw_value` -/
def defaultRawValue : ValueType → RawValue
  | .numeric => .json (.float (PyFloat.ofBits 0))
  | .integer => .json (.int 0)
  | .boolean => .json (.bool false)
  | .text => .json (.str "")
  | .binary => .bytes []

/-- `_batch_timeout_ms` -/
def batchTimeoutMs (tags : List TagRequest) (defaultTimeoutMs : ℕ) : ℕ :=
  (tags.filterMap TagRequest.timeoutMs).min?.getD defaultTimeoutMs

namespace MockDriver

/-- `MockDriver.__init__` -/
def init (config : MockDriverConfig) : MockDriver where
  connected := false
  remainingConnectFailures := config.connectFailuresBeforeSuccess
  sequenceOffsets := ∅
  connects := []
  served := []

def offset (d : MockDriver) (tagId : String) : ℕ := (d.sequenceOffsets.lookup tagId).getD 0

/-- `_next_raw_value` -/
def nextRawValue (tag : TagRequest) (behavior : Option MockTagBehavior) (d : MockDriver) :
    RawValue × MockDriver :=
  match behavior with
  | none => (defaultRawValue tag.valueType, d)
  | some behavior =>
    if behavior.sequence.isEmpty then
      match behavior.value with
      | some value => (.json value, d)
      | none => (defaultRawValue tag.valueType, d)
    else
      let index := d.offset tag.tagId.text
      (.json (behavior.sequence.getD (index % behavior.sequence.length) .null),
        { d with sequenceOffsets := d.sequenceOffsets.insert tag.tagId.text (index + 1) })

/-- The error details of a behaviour in error mode. -/
def errorDetails (behavior : MockTagBehavior) : Option (String × String) :=
  behavior.errorCode.map fun code =>
    (code.text, (behavior.errorMessage.map Stripped.text).getD "Mock tag failure.")

/-- The failure of a tag in error mode. -/
def mockFailure (tag : TagRequest) (receivedAt : DateTime) (details : String × String) :
    Except PyError TagResult :=
  TagResult.init tag.tagId.text .bad receivedAt none none (some details.1) (some details.2)

/-- The success of a tag with a raw value. -/
def mockSuccess (tag : TagRequest) (receivedAt : DateTime) (raw : RawValue) :
    Except PyError TagResult := do
  let value ← mockTagValueFromRaw tag.valueType raw
  TagResult.init tag.tagId.text .good receivedAt (some receivedAt) (some value) none none

/-- `_read_tag` -/
def readTag (config : MockDriverConfig) (receivedAt : DateTime) (tag : TagRequest) (d : MockDriver) :
    Except PyError TagResult × MockDriver :=
  let d := { d with served := d.served ++ [tag.tagId.text] }
  let behavior := config.tagBehaviors.lookup tag.tagId.text
  match behavior.bind errorDetails with
  | some details => (mockFailure tag receivedAt details, d)
  | none =>
    let (raw, d) := nextRawValue tag behavior d
    (mockSuccess tag receivedAt raw, d)

/-- The results of `read`, in the order of the requests. -/
def readTags (config : MockDriverConfig) (receivedAt : DateTime) :
    List TagRequest → MockDriver → Except PyError (List TagResult) × MockDriver
  | [], d => (.ok [], d)
  | tag :: tags, d =>
    match readTag config receivedAt tag d with
    | (.error e, d) => (.error e, d)
    | (.ok result, d) =>
      let (results, d) := readTags config receivedAt tags d
      (results.map (result :: ·), d)

/-! ## Methods -/

section
variable (connection : ConnectionConfig) (config : MockDriverConfig)

/-- `_apply_delay` -/
def applyDelay (timeoutMs : ℕ) (forceTimeout : Bool) (operation : String) : MockProg Unit :=
  if forceTimeout ∨ timeoutMs < config.delayMs then .raise (.error (mockTimeout operation))
  else if 0 < config.delayMs then Prog.await (C := MockCalls) (config.delayMs / 1000)
  else return ()

/-- `_require_connected` -/
def requireConnected : MockProg Unit := do
  let d ← .get
  if d.connected then return () else .raise (.error mockNotConnected)

/-- End with what `f` makes of the driver. -/
def finish {α : Type} (f : MockDriver → Outcome PyError α × MockDriver) : MockProg α := fun d =>
  .done (f d).2 (f d).1

/-- The end of `connect`, after its delay. -/
def finishConnect (d : MockDriver) : Outcome PyError Unit × MockDriver :=
  if 0 < d.remainingConnectFailures then
    (.error (.error mockConnectionFailed), { d with
      remainingConnectFailures := d.remainingConnectFailures - 1
      connected := false
      connects := d.connects ++ [false] })
  else (.ok (), { d with connected := true, connects := d.connects ++ [true] })

def connect : MockProg Unit := do
  applyDelay config connection.timeoutMs config.timeoutOnConnect "connect"
  finish finishConnect

def disconnect : MockProg Unit :=
  .modify fun d => { d with connected := false }

/-- `read`, with the reading of the clock after its delay. -/
def read (tags : List TagRequest) (receivedAt : DateTime) : MockProg (List TagResult) := do
  requireConnected
  applyDelay config (batchTimeoutMs tags connection.timeoutMs) config.timeoutOnRead "read"
  finish fun d => (ofExcept (readTags config receivedAt tags d).1, (readTags config receivedAt tags d).2)

def healthCheck : MockProg Bool := do
  let d ← .get
  return d.connected

end

/-! ## The reference -/

/-- The raw value of the answer number `n` to a tag. -/
def rawValueAt (config : MockDriverConfig) (tag : TagRequest) (n : ℕ) : RawValue :=
  match config.tagBehaviors.lookup tag.tagId.text with
  | none => defaultRawValue tag.valueType
  | some behavior =>
    if behavior.sequence.isEmpty then
      match behavior.value with
      | some value => .json value
      | none => defaultRawValue tag.valueType
    else .json (behavior.sequence.getD (n % behavior.sequence.length) .null)

/-- The answer number `n` to a tag. -/
def resultAt (config : MockDriverConfig) (receivedAt : DateTime) (tag : TagRequest) (n : ℕ) :
    Except PyError TagResult :=
  match (config.tagBehaviors.lookup tag.tagId.text).bind errorDetails with
  | some details => mockFailure tag receivedAt details
  | none => mockSuccess tag receivedAt (rawValueAt config tag n)

/-- The answers to a read, after the requests in the history. -/
def resultsFrom (config : MockDriverConfig) (receivedAt : DateTime) :
    List String → List TagRequest → Except PyError (List TagResult)
  | _, [] => .ok []
  | history, tag :: tags => do
    let result ← resultAt config receivedAt tag (history.count tag.tagId.text)
    let results ← resultsFrom config receivedAt (history ++ [tag.tagId.text]) tags
    return result :: results

/-! ## The offsets -/

/-- Each configured sequence has answered as often as its tag was requested. -/
def Tracks (config : MockDriverConfig) (d : MockDriver) : Prop :=
  ∀ id behavior, config.tagBehaviors.lookup id = some behavior → errorDetails behavior = none →
    behavior.sequence.isEmpty = false → d.offset id = d.served.count id

/-- The connections number 0, 1, … have failed just as configured. -/
structure FailsFirst (config : MockDriverConfig) (d : MockDriver) : Prop where
  remaining : d.remainingConnectFailures = config.connectFailuresBeforeSuccess - d.connects.length
  outcomes : ∀ i b, d.connects[i]? = some b →
    b = decide (config.connectFailuresBeforeSuccess ≤ i)

structure Sound (config : MockDriverConfig) (d : MockDriver) : Prop where
  tracks : Tracks config d
  failsFirst : FailsFirst config d

/-- The history grows. -/
structure Later (d d' : MockDriver) : Prop where
  connects : d.connects <+: d'.connects
  served : d.served <+: d'.served

variable {config : MockDriverConfig} {d d' : MockDriver}

theorem sound_init (config : MockDriverConfig) : (init config).Sound config := by
  refine ⟨fun id behavior _ _ _ => ?_, ⟨rfl, fun i b h => ?_⟩⟩
  · rw [offset, init, Finmap.lookup_empty]
    rfl
  · cases h

/-- A request counts for the sequence of its own tag. -/
theorem tracks_served (h : Tracks config d) {id : String} {offsets : Table String ℕ}
    (hother : ∀ id', id' ≠ id → offsets.lookup id' = d.sequenceOffsets.lookup id')
    (hself : ∀ behavior, config.tagBehaviors.lookup id = some behavior →
      errorDetails behavior = none → behavior.sequence.isEmpty = false →
      (offsets.lookup id).getD 0 = d.offset id + 1) :
    Tracks config { d with served := d.served ++ [id], sequenceOffsets := offsets } := by
  intro id' behavior hlookup herror hsequence
  have hcount := h id' behavior hlookup herror hsequence
  show (offsets.lookup id').getD 0 = (d.served ++ [id]).count id'
  rw [List.count_append]
  by_cases hid : id' = id
  · subst hid
    rw [hself behavior hlookup herror hsequence, hcount, List.count_singleton_self]
  · rw [hother id' hid, List.count_singleton, beq_false_of_ne (Ne.symm hid)]
    exact hcount

/-- **One tag is answered as the reference says.** -/
theorem readTag_spec (h : Tracks config d) (receivedAt : DateTime) (tag : TagRequest) :
    (readTag config receivedAt tag d).1 =
        resultAt config receivedAt tag (d.served.count tag.tagId.text) ∧
      Tracks config (readTag config receivedAt tag d).2 ∧
      ∃ offsets, (readTag config receivedAt tag d).2 =
        { d with served := d.served ++ [tag.tagId.text], sequenceOffsets := offsets } := by
  rw [readTag, resultAt, rawValueAt]
  cases hlookup : config.tagBehaviors.lookup tag.tagId.text with
  | none =>
    refine ⟨rfl, tracks_served h (fun _ _ => rfl) fun behavior hbehavior => ?_, _, rfl⟩
    rw [hlookup] at hbehavior
    cases hbehavior
  | some behavior =>
    simp only [Option.bind_some]
    cases herror : errorDetails behavior with
    | some details =>
      refine ⟨rfl, tracks_served h (fun _ _ => rfl) fun behavior' hbehavior hnone => ?_, _, rfl⟩
      rw [hlookup] at hbehavior
      cases hbehavior
      rw [herror] at hnone
      cases hnone
    | none =>
      simp only [nextRawValue]
      cases hsequence : behavior.sequence.isEmpty with
      | true =>
        simp only [if_true]
        have htracks : Tracks config { d with served := d.served ++ [tag.tagId.text] } := by
          refine tracks_served h (fun _ _ => rfl) fun behavior' hbehavior _ hne => ?_
          rw [hlookup] at hbehavior
          cases hbehavior
          rw [hsequence] at hne
          cases hne
        cases behavior.value with
        | none => exact ⟨rfl, htracks, _, rfl⟩
        | some value => exact ⟨rfl, htracks, _, rfl⟩
      | false =>
        have hcount := h _ behavior hlookup herror hsequence
        simp only [Bool.false_eq_true, if_false]
        refine ⟨?_, tracks_served h (fun id' hid => ?_) (fun _ _ _ _ => ?_), _, rfl⟩
        · rw [← hcount]
          rfl
        · exact Finmap.lookup_insert_of_ne _ hid
        · rw [Finmap.lookup_insert]
          rfl

/-- **A read is answered as the reference says**, whether or not a value is refused. -/
theorem readTags_spec (h : Tracks config d) (receivedAt : DateTime) (tags : List TagRequest) :
    (readTags config receivedAt tags d).1 = resultsFrom config receivedAt d.served tags ∧
      Tracks config (readTags config receivedAt tags d).2 ∧
      ∃ answered offsets, (readTags config receivedAt tags d).2 =
          { d with served := d.served ++ answered, sequenceOffsets := offsets } ∧
        answered <+: tags.map (·.tagId.text) ∧
        ((readTags config receivedAt tags d).1.isOk = true → answered = tags.map (·.tagId.text)) := by
  induction tags generalizing d with
  | nil =>
    refine ⟨rfl, h, [], d.sequenceOffsets, ?_, List.nil_prefix, fun _ => rfl⟩
    rw [readTags, List.append_nil]
  | cons tag tags ih =>
    obtain ⟨hresult, htracks, offsets, hd⟩ := readTag_spec h receivedAt tag
    rcases hread : readTag config receivedAt tag d with ⟨e | result, d₁⟩
    · rw [hread] at hresult htracks hd
      rw [readTags, hread, resultsFrom, ← hresult]
      refine ⟨rfl, htracks, [tag.tagId.text], offsets, hd, ?_, by rintro ⟨⟩⟩
      exact List.cons_prefix_cons.2 ⟨rfl, List.nil_prefix⟩
    · rw [hread] at hresult htracks hd
      have hd₁ : d₁ = { d with
          served := d.served ++ [tag.tagId.text], sequenceOffsets := offsets } := hd
      subst hd₁
      obtain ⟨hresults, htracks', answered, offsets', hd', hprefix, hall⟩ := ih htracks
      rw [readTags, hread, resultsFrom, ← hresult]
      simp only
      rw [hresults, ok_bind]
      refine ⟨?_, htracks', tag.tagId.text :: answered, offsets', ?_, ?_, ?_⟩
      · cases resultsFrom config receivedAt (d.served ++ [tag.tagId.text]) tags <;> rfl
      · rw [hd', List.append_assoc]
        rfl
      · exact List.cons_prefix_cons.2 ⟨rfl, hprefix⟩
      · intro hok
        rw [List.map_cons, hall]
        rw [hresults]
        cases hrest : resultsFrom config receivedAt (d.served ++ [tag.tagId.text]) tags with
        | error e =>
          rw [hrest] at hok
          cases hok
        | ok results => rfl

/-! ## Interleavings -/

/-- What an operation returns. -/
inductive MockReply where
  | done
  | results (results : List TagResult)
  | healthy (healthy : Bool)

/-- The operations of a driver, a read with its reading of the clock. -/
inductive MockOperation where
  | connect
  | disconnect
  | read (tags : List TagRequest) (receivedAt : DateTime)
  | healthCheck

def MockOperation.run (connection : ConnectionConfig) (config : MockDriverConfig) :
    MockOperation → MockProg MockReply
  | connect => .mapResult (fun _ => .done) (MockDriver.connect connection config)
  | disconnect => .mapResult (fun _ => .done) MockDriver.disconnect
  | read tags receivedAt => .mapResult .results (MockDriver.read connection config tags receivedAt)
  | healthCheck => .mapResult .healthy MockDriver.healthCheck

theorem later_refl (d : MockDriver) : d.Later d := ⟨List.prefix_rfl, List.prefix_rfl⟩

theorem later_trans (a b c : MockDriver) (h : a.Later b) (h' : b.Later c) : a.Later c :=
  ⟨h.1.trans h'.1, h.2.trans h'.2⟩

/-- What holds when an operation has returned. -/
def Returned : MockOperation → Outcome PyError MockReply → MockDriver → Prop
  | .connect, .ok _, d => true ∈ d.connects
  | _, _, _ => True

theorem Returned.later {op : MockOperation} {r : Outcome PyError MockReply}
    (h : Returned op r d) (hlater : d.Later d') : Returned op r d' := by
  cases op with
  | connect =>
    rcases r with e | reply
    · trivial
    · exact hlater.connects.subset h
  | _ => trivial

/-- Every operation keeps the driver sound and its history. -/
def discipline (config : MockDriverConfig) : Discipline MockDriver PyError MockReply MockOperation where
  inv := Sound config
  rely _ := Later
  move _ := Later
  fresh _ _ := True
  post _ := Returned
  rely_refl _ := later_refl
  rely_trans _ := later_trans
  rely_move _ _ _ _ _ h := h
  fresh_move _ _ _ _ _ _ h := h
  post_rely _ _ _ _ _ hlater h := h.later hlater

section
variable {connection : ConnectionConfig}

/-- Stretches that keep the driver sound and its history. -/
abbrev Behaves (config : MockDriverConfig) {α : Type} (Q : Outcome PyError α → MockDriver → Prop)
    (t : Coro MockCalls MockDriver PyError α) (d : MockDriver) : Prop :=
  t.Stretches (Sound config) Later Later Q d

theorem behaves_bind {α β : Type} {m : MockProg α} {f : α → MockProg β}
    {Q : Outcome PyError β → MockDriver → Prop} (herror : ∀ e s, Q (.error e) s)
    (hm : Behaves config (fun r s => ∀ a, r = .ok a → Behaves config Q (f a s) s) (m d) d) :
    Behaves config Q ((m >>= f) d) d := by
  refine stretches_bind (fun _ _ h => h) later_trans later_refl (stretches_mono ?_ hm)
  rintro (e | a) s _ hrest
  · exact herror e s
  · exact hrest a rfl

theorem behaves_applyDelay (h : d.Sound config) (timeoutMs : ℕ) (forceTimeout : Bool)
    (operation : String) :
    Behaves config (fun _ _ => True) (applyDelay config timeoutMs forceTimeout operation d) d := by
  rw [applyDelay]
  split_ifs
  · exact ⟨⟨later_refl d, h⟩, trivial⟩
  · exact stretches_await later_refl _ h fun _ _ _ _ => trivial
  · exact ⟨⟨later_refl d, h⟩, trivial⟩

/-- A connection attempt fails as long as failures remain. -/
theorem sound_finishConnect (h : d.Sound config) : (finishConnect d).2.Sound config ∧
    d.Later (finishConnect d).2 ∧ ((finishConnect d).1.isOk = true → true ∈ (finishConnect d).2.connects) := by
  obtain ⟨htracks, hremaining, houtcomes⟩ := h
  have hlater : ∀ b, d.connects <+: d.connects ++ [b] := fun b => List.prefix_append _ _
  have hconcat : ∀ b, b = decide (config.connectFailuresBeforeSuccess ≤ d.connects.length) →
      ∀ i b', (d.connects ++ [b])[i]? = some b' →
        b' = decide (config.connectFailuresBeforeSuccess ≤ i) := by
    rintro b rfl i b' hb
    rcases Nat.lt_trichotomy i d.connects.length with hi | rfl | hi
    · exact houtcomes i b' (by rwa [List.getElem?_append_left hi] at hb)
    · rw [List.getElem?_concat_length, Option.some.injEq] at hb
      exact hb.symm
    · rw [List.getElem?_eq_none (by rw [List.length_append, List.length_singleton]; omega)] at hb
      cases hb
  rw [finishConnect]
  split_ifs with hpos
  · refine ⟨⟨htracks, ?_, hconcat false ?_⟩, ⟨hlater false, List.prefix_rfl⟩, by rintro ⟨⟩⟩
    · show d.remainingConnectFailures - 1 = _ - (d.connects ++ [false]).length
      rw [List.length_append, List.length_singleton]
      omega
    · exact (decide_eq_false (by omega)).symm
  · refine ⟨⟨htracks, ?_, hconcat true ?_⟩, ⟨hlater true, List.prefix_rfl⟩, fun _ => ?_⟩
    · show d.remainingConnectFailures = _ - (d.connects ++ [true]).length
      rw [List.length_append, List.length_singleton]
      omega
    · exact (decide_eq_true (by omega)).symm
    · exact List.mem_append_right _ (List.mem_singleton_self true)

theorem behaves_connect (h : d.Sound config) :
    Behaves config (fun r s => r.isOk = true → true ∈ s.connects) (connect connection config d) d := by
  refine behaves_bind (by rintro e s ⟨⟩) (stretches_mono ?_ (behaves_applyDelay h _ _ _))
  intro _ s hs _ _ _
  obtain ⟨hsound, hlater, hconnects⟩ := sound_finishConnect hs
  exact ⟨⟨hlater, hsound⟩, hconnects⟩

theorem behaves_read (h : d.Sound config) (tags : List TagRequest) (receivedAt : DateTime) :
    Behaves config (fun _ _ => True) (read connection config tags receivedAt d) d := by
  have hrequire : Behaves config (fun _ _ => True) (requireConnected d) d := by
    cases hconnected : d.connected with
    | true =>
      have hdone : requireConnected d = .done d (.ok ()) := by
        show (if d.connected then _ else _ : MockProg Unit) d = _
        rw [hconnected]
        rfl
      rw [hdone]
      exact ⟨⟨later_refl d, h⟩, trivial⟩
    | false =>
      have hdone : requireConnected d = .done d (.error (.error mockNotConnected)) := by
        show (if d.connected then _ else _ : MockProg Unit) d = _
        rw [hconnected]
        rfl
      rw [hdone]
      exact ⟨⟨later_refl d, h⟩, trivial⟩
  refine behaves_bind (fun _ _ => trivial) (stretches_mono ?_ hrequire)
  intro _ s hs _ _ _
  refine behaves_bind (fun _ _ => trivial) (stretches_mono ?_ (behaves_applyDelay hs _ _ _))
  intro _ s hs _ _ _
  obtain ⟨-, htracks, answered, offsets, hd, -⟩ := readTags_spec hs.tracks receivedAt tags
  refine ⟨⟨?_, htracks, ?_⟩, trivial⟩
  · rw [hd]
    exact ⟨List.prefix_rfl, List.prefix_append _ _⟩
  · rw [hd]
    exact ⟨hs.failsFirst.remaining, hs.failsFirst.outcomes⟩

theorem keeps_run (connection : ConnectionConfig) (config : MockDriverConfig) :
    Tasks.Keeps (discipline config) fun _ op => MockOperation.run connection config op := by
  intro i op d hsound _
  cases op with
  | connect =>
    refine stretches_mapResult (stretches_mono ?_ (behaves_connect hsound))
    rintro (e | _) s _ hconnects
    · trivial
    · exact hconnects rfl
  | disconnect =>
    exact ⟨⟨⟨List.prefix_rfl, List.prefix_rfl⟩, hsound.tracks, hsound.failsFirst.remaining,
      hsound.failsFirst.outcomes⟩, trivial⟩
  | read tags receivedAt =>
    exact stretches_mapResult (stretches_mono (fun _ _ _ _ => trivial)
      (behaves_read hsound tags receivedAt))
  | healthCheck => exact ⟨⟨later_refl d, hsound⟩, trivial⟩

end

/-! ## The order of the reads -/

/-- What the turn that ends an operation answers. -/
def Answered (config : MockDriverConfig) :
    MockOperation → MockDriver → Outcome PyError MockReply → MockDriver → Prop
  | .read tags receivedAt, d, r, d' => ∃ answered, d'.served = d.served ++ answered ∧
      answered <+: tags.map (·.tagId.text) ∧ ∀ results, r = .ok (.results results) →
        answered = tags.map (·.tagId.text) ∧
          resultsFrom config receivedAt d.served tags = .ok results
  | _, d, _, d' => d'.served = d.served

section
variable {connection : ConnectionConfig}

/-- The end of a read, which answers all its tags at once. -/
def answerRead (config : MockDriverConfig) (tags : List TagRequest) (receivedAt : DateTime)
    (d : MockDriver) : Coro MockCalls MockDriver PyError MockReply :=
  .done (readTags config receivedAt tags d).2
    ((ofExcept (readTags config receivedAt tags d).1).map .results)

theorem turns_answerRead (h : d.Sound config) (tags : List TagRequest) (receivedAt : DateTime)
    (I : MockDriver → Prop) (M : MockDriver → MockDriver → Prop) :
    (answerRead config tags receivedAt d).Turns I M (Answered config (.read tags receivedAt)) d := by
  obtain ⟨hresults, -, answered, offsets, hd, hprefix, hall⟩ :=
    readTags_spec h.tracks receivedAt tags
  refine ⟨answered, by rw [hd], hprefix, fun results hok => ?_⟩
  cases hread : (readTags config receivedAt tags d).1 with
  | error e =>
    rw [hread] at hok
    cases hok
  | ok results' =>
    rw [hread] at hok hresults hall
    cases hok
    exact ⟨hall rfl, hresults.symm⟩

/-- A read ends without an answer, or is answered after its delay. -/
theorem run_read (connection : ConnectionConfig) (config : MockDriverConfig)
    (tags : List TagRequest) (receivedAt : DateTime) (d : MockDriver) :
    (∃ e, (MockOperation.read tags receivedAt).run connection config d = .done d (.error e)) ∨
    (MockOperation.read tags receivedAt).run connection config d =
      answerRead config tags receivedAt d ∨
    ∃ c k, (MockOperation.read tags receivedAt).run connection config d = .await d c k ∧
      ∀ r s, (∃ e, k r s = .done s (.error e)) ∨ k r s = answerRead config tags receivedAt s := by
  obtain ⟨connected, failures, offsets, connects, served⟩ := d
  cases connected with
  | false => exact .inl ⟨_, rfl⟩
  | true =>
    simp only [MockOperation.run, MockDriver.read, applyDelay]
    split_ifs
    · exact .inl ⟨_, rfl⟩
    · refine .inr (.inr ⟨_, _, rfl, fun r s => ?_⟩)
      cases r with
      | error e => exact .inl ⟨e, rfl⟩
      | ok a => exact .inr rfl
    · exact .inr (.inl rfl)

/-- An operation answers in the turn that ends it, if at all. -/
theorem turns_run (op : MockOperation) (h : d.Sound config) :
    (op.run connection config d).Turns (Sound config) (fun d d' => d'.served = d.served)
      (Answered config op) d := by
  cases op with
  | connect =>
    have hfinish : ∀ d : MockDriver, (finishConnect d).2.served = d.served := by
      intro d
      rw [finishConnect]
      split_ifs <;> rfl
    show (Prog.mapResult (fun _ => MockReply.done) (MockDriver.connect connection config) d).Turns _ _ _ d
    rw [MockDriver.connect, applyDelay]
    split_ifs
    · exact rfl
    · refine ⟨rfl, fun r s _ => ?_⟩
      cases r with
      | error e => exact rfl
      | ok a => exact hfinish s
    · exact hfinish d
  | disconnect => exact rfl
  | read tags receivedAt =>
    have hfails : ∀ (d : MockDriver) e, Answered config (.read tags receivedAt) d (.error e) d :=
      fun d e => ⟨[], (List.append_nil _).symm, List.nil_prefix, fun results hok => by cases hok⟩
    obtain ⟨e, he⟩ | he | ⟨c, k, he, hk⟩ :=
      run_read connection config tags receivedAt d
    · rw [he]
      exact hfails d e
    · rw [he]
      exact turns_answerRead h tags receivedAt _ _
    · rw [he]
      refine ⟨rfl, fun r s hs => ?_⟩
      obtain ⟨e, hr⟩ | hr := hk r s
      · rw [hr]
        exact hfails s e
      · rw [hr]
        exact turns_answerRead hs tags receivedAt _ _
  | healthCheck => exact rfl

end

/-- The reads have been answered one after the other: `log` lists their tasks, with the tags
    that each has answered. -/
structure AnsweredInTurn (config : MockDriverConfig)
    (t : Tasks MockCalls MockDriver PyError MockReply MockOperation)
    (log : List (ℕ × List String)) : Prop where
  nodup : (log.map Prod.fst).Nodup
  served : t.state.served = (log.map Prod.snd).flatten
  reads : ∀ i answered, (i, answered) ∈ log → ∃ tags receivedAt d r,
    t.tasks[i]? = some (.read tags receivedAt, .done d r) ∧ answered <+: tags.map (·.tagId.text)
  returned : ∀ (i : ℕ) tags receivedAt d results,
    t.tasks[i]? = some (.read tags receivedAt, .done d (.ok (.results results))) →
      ∃ before after, log = before ++ (i, tags.map (·.tagId.text)) :: after ∧
        d.served = (before.map Prod.snd).flatten ++ tags.map (·.tagId.text) ∧
        resultsFrom config receivedAt (before.map Prod.snd).flatten tags = .ok results

section
variable {connection : ConnectionConfig}
  {t t' : Tasks MockCalls MockDriver PyError MockReply MockOperation} {log : List (ℕ × List String)}

/-- A turn that answers nothing leaves the log as it is. -/
theorem AnsweredInTurn.same (h : AnsweredInTurn config t log) {i : ℕ}
    (hothers : ∀ j, j ≠ i → t'.tasks[j]? = t.tasks[j]?)
    (hnew : ∀ op d r, t.tasks[i]? ≠ some (op, .done d r))
    (hnone : ∀ tags receivedAt d results,
      t'.tasks[i]? ≠ some (.read tags receivedAt, .done d (.ok (.results results))))
    (hserved : t'.state.served = t.state.served) : AnsweredInTurn config t' log := by
  refine ⟨h.nodup, hserved.trans h.served, fun j answered hj => ?_,
    fun j tags receivedAt d results hj => ?_⟩
  · obtain ⟨tags, receivedAt, d, r, htask, hprefix⟩ := h.reads j answered hj
    refine ⟨tags, receivedAt, d, r, ?_, hprefix⟩
    rw [hothers j (by rintro rfl; exact hnew _ _ _ htask)]
    exact htask
  · by_cases hji : j = i
    · subst hji
      exact absurd hj (hnone _ _ _ _)
    · exact h.returned j tags receivedAt d results (hothers j hji ▸ hj)

/-- A turn that ends a read adds it to the log. -/
theorem AnsweredInTurn.answer (h : AnsweredInTurn config t log) {i : ℕ} {tags : List TagRequest}
    {receivedAt : DateTime} {r : Outcome PyError MockReply}
    (hothers : ∀ j, j ≠ i → t'.tasks[j]? = t.tasks[j]?)
    (hnew : ∀ op d r, t.tasks[i]? ≠ some (op, .done d r))
    (htask : t'.tasks[i]? = some (.read tags receivedAt, .done t'.state r))
    (hanswered : Answered config (.read tags receivedAt) t.state r t'.state) :
    ∃ log', AnsweredInTurn config t' log' := by
  obtain ⟨answered, hserved, hprefix, hresults⟩ := hanswered
  refine ⟨log ++ [(i, answered)], ?_, ?_, fun j answered' hj => ?_,
    fun j tags' receivedAt' d results hj => ?_⟩
  · rw [List.map_append, List.nodup_append]
    refine ⟨h.nodup, List.nodup_singleton _, ?_⟩
    rintro j hj _ hi rfl
    rw [List.mem_singleton.1 hi] at hj
    obtain ⟨⟨_, answered'⟩, hmem, rfl⟩ := List.mem_map.1 hj
    obtain ⟨_, _, d, r', hdone, -⟩ := h.reads _ _ hmem
    exact hnew _ _ _ hdone
  · rw [hserved, h.served, List.map_append, List.flatten_append]
    simp only [List.map_cons, List.map_nil, List.flatten_cons, List.flatten_nil, List.append_nil]
  · rcases List.mem_append.1 hj with hold | hlast
    · obtain ⟨tags', receivedAt', d, r', hdone, hprefix'⟩ := h.reads j answered' hold
      refine ⟨tags', receivedAt', d, r', ?_, hprefix'⟩
      rw [hothers j (by rintro rfl; exact hnew _ _ _ hdone)]
      exact hdone
    · cases List.mem_singleton.1 hlast
      exact ⟨tags, receivedAt, _, r, htask, hprefix⟩
  · by_cases hji : j = i
    · subst hji
      rw [htask] at hj
      cases hj
      obtain ⟨rfl, hreference⟩ := hresults results rfl
      refine ⟨log, [], rfl, ?_, ?_⟩
      · rw [hserved, h.served]
      · rw [← h.served]
        exact hreference
    · obtain ⟨before, after, hlog, hd, hreference⟩ :=
        h.returned j tags' receivedAt' d results (hothers j hji ▸ hj)
      refine ⟨before, after ++ [(i, answered)], ?_, hd, hreference⟩
      rw [hlog, List.append_assoc]
      rfl

/-- **The reads are answered in turn**, whatever their turns. -/
theorem answeredInTurn_play {es : List (Turn MockCalls PyError MockOperation)}
    (htame : t.Tame (discipline config))
    (hprepared : t.Prepared (Sound config) (fun d d' => d'.served = d.served) (Answered config))
    (hlog : AnsweredInTurn config t log)
    (h : t.play (fun _ op => MockOperation.run connection config op) es = some t') :
    ∃ log', AnsweredInTurn config t' log' := by
  induction es generalizing t log with
  | nil =>
    cases h
    exact ⟨log, hlog⟩
  | cons e es ih =>
    obtain ⟨t₁, hstep, h⟩ := Option.bind_eq_some_iff.1 h
    have htame₁ := (Tasks.tame_step (keeps_run connection config) htame hstep).1
    obtain ⟨hprepared₁, i, op, hothers, hnew, hturn⟩ := Tasks.step_turn
      (fun _ op d hd => turns_run op hd) htame.inv hprepared hstep
    have hlog₁ : ∃ log₁, AnsweredInTurn config t₁ log₁ := by
      rcases hturn with ⟨s₀, c, k, htask, hserved⟩ | ⟨r, htask, hanswered⟩
      · refine ⟨log, hlog.same hothers hnew (fun tags receivedAt d results hdone => ?_) hserved⟩
        rw [htask] at hdone
        cases hdone
      · cases op with
        | read tags receivedAt => exact hlog.answer hothers hnew htask hanswered
        | _ =>
          refine ⟨log, hlog.same hothers hnew (fun tags receivedAt d results hdone => ?_) hanswered⟩
          rw [htask] at hdone
          cases hdone
    obtain ⟨log₁, hlog₁⟩ := hlog₁
    exact ih htame₁ hprepared₁ hlog₁ h

end

/-- A driver whose operations have not been started. -/
def noOperations (config : MockDriverConfig) : Tasks MockCalls MockDriver PyError MockReply MockOperation :=
  ⟨init config, []⟩

/-- **The mock driver is deterministic.**  However its operations take turns, and whatever
    their sleeps end with, its connection attempts fail exactly as often as configured before
    the first one succeeds, a `connect` returns only after them, and the reads are answered one
    after the other, each as the reference says after those before it. -/
theorem mock_driver_deterministic {connection : ConnectionConfig} {config : MockDriverConfig}
    {es : List (Turn MockCalls PyError MockOperation)}
    {t : Tasks MockCalls MockDriver PyError MockReply MockOperation}
    (h : (noOperations config).play (fun _ op => MockOperation.run connection config op) es = some t) :
    (∀ i b, t.state.connects[i]? = some b → b = decide (config.connectFailuresBeforeSuccess ≤ i)) ∧
    (∀ (i : ℕ) d reply, t.tasks[i]? = some (.connect, .done d (.ok reply)) →
      config.connectFailuresBeforeSuccess < t.state.connects.length) ∧
    ∃ log, AnsweredInTurn config t log := by
  have hstart : (noOperations config).Tame (discipline config) := by
    refine ⟨sound_init config, fun _ _ => trivial, fun i op t ht => ?_⟩
    cases ht
  have hempty : AnsweredInTurn config (noOperations config) [] := by
    refine ⟨List.nodup_nil, rfl, fun i answered hi => ?_, fun i tags receivedAt d results hi => ?_⟩
    · cases hi
    · cases hi
  have htame := Tasks.tame_play (keeps_run connection config) hstart h
  refine ⟨htame.inv.failsFirst.outcomes, fun i d reply htask => ?_,
    answeredInTurn_play hstart (fun i op s₀ c k ht => by cases ht) hempty h⟩
  have hmem : true ∈ t.state.connects := htame.ready i _ _ htask
  obtain ⟨j, hj⟩ := List.mem_iff_getElem?.1 hmem
  have hle := of_decide_eq_true (htame.inv.failsFirst.outcomes j true hj).symm
  exact Nat.lt_of_le_of_lt hle (List.getElem?_eq_some_iff.1 hj).1

/-- A sequence of two values, and one failing connection attempt. -/
def countingConfig : MockDriverConfig where
  delayMs := 10
  connectFailuresBeforeSuccess := 1
  timeoutOnRead := false
  timeoutOnConnect := false
  tagBehaviors := Finmap.singleton temperatureTag.text
    ⟨none, [.bool true, .bool false], none, none, by decide, rfl⟩

/-- The request of the tests. -/
def temperatureRequest : TagRequest := tagRequestFromConfig fastGroupConfig temperatureConfig

/-- Two connections and then two reads, of which the second is the first to be answered. -/
def overlappingReads : List (Turn MockCalls PyError MockOperation) := [
  .start .connect, .resume 0 fun _ => .ok (), .start .connect, .resume 1 fun _ => .ok (),
  .start (.read [temperatureRequest, temperatureRequest] timestamp),
  .start (.read [temperatureRequest] timestamp),
  .resume 3 fun _ => .ok (), .resume 2 fun _ => .ok ()]

/-- The second read is answered from nothing, and the first one after it. -/
theorem mock_driver_deterministic_overlapping : ∃ t d d' first second,
    (noOperations countingConfig).play
        (fun _ op => MockOperation.run fakeConfig.connection countingConfig op) overlappingReads =
      some t ∧
    t.state.connects = [false, true] ∧
    (∀ i b, t.state.connects[i]? = some b → b = decide (1 ≤ i)) ∧
    t.tasks[3]? = some (.read [temperatureRequest] timestamp, .done d (.ok (.results first))) ∧
    resultsFrom countingConfig timestamp [] [temperatureRequest] = .ok first ∧
    first.map TagResult.value = [some (.boolean true)] ∧
    t.tasks[2]? = some (.read [temperatureRequest, temperatureRequest] timestamp,
      .done d' (.ok (.results second))) ∧
    resultsFrom countingConfig timestamp ["temperature"] [temperatureRequest, temperatureRequest] =
      .ok second ∧
    second.map TagResult.value = [some (.boolean false), some (.boolean true)] := by
  obtain ⟨t, d, d', first, second, ht, hconnects, hfirst, hsecond, hd, hd', hvalues, hvalues'⟩ :
      ∃ t d d' first second, (noOperations countingConfig).play
          (fun _ op => MockOperation.run fakeConfig.connection countingConfig op) overlappingReads =
        some t ∧
      t.state.connects = [false, true] ∧
      t.tasks[3]? = some (.read [temperatureRequest] timestamp, .done d (.ok (.results first))) ∧
      t.tasks[2]? = some (.read [temperatureRequest, temperatureRequest] timestamp,
        .done d' (.ok (.results second))) ∧
      d.served = ["temperature"] ∧ d'.served = ["temperature", "temperature", "temperature"] ∧
      first.map TagResult.value = [some (.boolean true)] ∧
      second.map TagResult.value = [some (.boolean false), some (.boolean true)] :=
    ⟨_, _, _, _, _, rfl, rfl, rfl, rfl, rfl, rfl, rfl, rfl⟩
  obtain ⟨hfails, -, log, hlog⟩ := mock_driver_deterministic ht
  obtain ⟨before, -, -, hserved, hreference⟩ := hlog.returned 3 _ _ _ _ hfirst
  obtain ⟨before', -, -, hserved', hreference'⟩ := hlog.returned 2 _ _ _ _ hsecond
  rw [hd] at hserved
  rw [hd'] at hserved'
  have hnothing : (before.map Prod.snd).flatten = [] :=
    List.append_cancel_right hserved.symm
  have hone : (before'.map Prod.snd).flatten = ["temperature"] :=
    List.append_cancel_right hserved'.symm
  rw [hnothing] at hreference
  rw [hone] at hreference'
  exact ⟨t, d, d', first, second, ht, hconnects, hfails, hfirst, hreference, hvalues, hsecond,
    hreference', hvalues'⟩

end MockDriver

end PlcGateway
