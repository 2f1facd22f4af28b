/-
  The polls of a stored configuration.

  `polls_accepted` goes from the configuration to the tables: what a worker polls of a stored
  configuration is accepted, whatever else is saved in between.
-/
import PlcGateway.Persistence.InterruptedSaves
import PlcGateway.Persistence.Readback
import PlcGateway.Persistence.StoredConfiguration
import PlcGateway.Runtime.PollOutcome

namespace PlcGateway

open Calendar Coroutine Tables Fallible

/-! ## What a worker polls -/

/-- What the driver reads is of the tags, with integers that fit. -/
def Readable (tags : List TagConfig) (results : List TagResult) : Prop :=
  ∀ result ∈ results, result.tagId ∈ tags.map TagConfig.id ∧
    ∀ n, result.value = some (.integer n) → FitsInt64 n

/-- The poll result of a configured group, polled with configured tags by a worker of a
    configured connection. -/
inductive Polled (config : GatewayConfig) : WorkerPollResult → Prop
  | poll {worker : WorkerConfig} {clock : ℕ → DateTime} {jitter : ℕ → ℚ} {group : TagGroupConfig}
      {tags : List TagConfig} {executionId : Stripped} {inputs : PollInputs}
      {w w' : ConnectionWorker} {x : ℕ} {r : WorkerPollResult} :
      worker.connection ∈ config.connections → group ∈ config.tagGroups →
      (∀ t ∈ tags, t ∈ config.tags) → FitsInt64 tags.length →
      (∀ k results, inputs.reads k = .ok results → Readable tags results) →
      (ConnectionWorker.pollGroup worker clock jitter group tags executionId w).exec inputs.answer 0 =
        (.ok r, w', x) →
      Polled config r

section
variable {worker : WorkerConfig} {clock : ℕ → DateTime} {jitter : ℕ → ℚ} {group : TagGroupConfig}
  {tags : List TagConfig} {executionId : Stripped} {inputs : PollInputs} {w w' : ConnectionWorker}
  {x : ℕ} {r : WorkerPollResult}

/-- A poll that returns has its outcome. -/
theorem pollOutcome_of_exec
    (h : (ConnectionWorker.pollGroup worker clock jitter group tags executionId w).exec
      inputs.answer 0 = (.ok r, w', x)) :
    pollOutcome worker clock group tags executionId (inputs.retried worker jitter).1 = .ok r := by
  cases hvalid : validatePollInputs worker.connection group tags with
  | error e =>
    have herror : ((Prog.conclude (ofExcept (validatePollInputs worker.connection group tags)) :
        WorkerProg Unit) w).exec inputs.answer 0 = (.error (.error e), w, 0) := by
      rw [hvalid]
      rfl
    rw [ConnectionWorker.pollGroup, exec_bind, herror] at h
    cases h
  | ok _ =>
    have hpoll : ∃ w₁ x₁, (ConnectionWorker.pollGroup worker clock jitter group tags executionId
        w).exec inputs.answer 0 = (pollOutcome worker clock group tags executionId
          (inputs.retried worker jitter).1, w₁, x₁) := by
      obtain ⟨w₁, x₁, hexec, -⟩ := ConnectionWorker.exec_pollGroup hvalid w
      exact ⟨w₁, x₁, hexec⟩
    obtain ⟨w₁, x₁, hexec⟩ := hpoll
    rw [hexec] at h
    exact congrArg Prod.fst h

theorem workerFailureResult_ok {tag : TagConfig} {e : PyError} {receivedAt : DateTime}
    {result : TagResult} (h : workerFailureResult tag e receivedAt = .ok result) :
    result.tagId = tag.id ∧ result.value = none := by
  rw [workerFailureResult_eq] at h
  cases hc : Stripped.ofText e.errorCode with
  | none =>
    rw [hc] at h
    cases h
  | some c =>
    cases hm : Stripped.ofText e.describe with
    | none =>
      rw [hc, hm] at h
      cases h
    | some m =>
      rw [hc, hm] at h
      cases h
      exact ⟨rfl, rfl⟩

theorem failureResults_tags {e : PyError} {results : List TagResult} {k : ℕ}
    (h : failureResults e clock tags k = .ok results) :
    ∀ result ∈ results, result.tagId ∈ tags.map TagConfig.id ∧ result.value = none := by
  induction tags generalizing k results with
  | nil =>
    cases h
    intro result hr
    cases hr
  | cons tag tags ih =>
    simp only [failureResults, bind_eq_ok_iff, pure_eq_ok_iff] at h
    obtain ⟨result, hresult, results, hresults, rfl⟩ := h
    obtain ⟨hid, hvalue⟩ := workerFailureResult_ok hresult
    refine List.forall_mem_cons.2 ⟨⟨?_, hvalue⟩, fun r hr => ?_⟩
    · rw [hid]
      exact List.mem_cons_self
    · obtain ⟨hmem, hnone⟩ := ih hresults r hr
      exact ⟨List.mem_cons_of_mem _ hmem, hnone⟩

/-- The results of a poll are read, or report an error for each tag. -/
theorem readable_of_resultsOf {last : Outcome PyError (List TagResult)} {results : List TagResult}
    {k : ℕ} (hlast : ∀ results, last = .ok results → Readable tags results)
    (h : resultsOf clock tags last = .ok (results, k)) : Readable tags results := by
  rcases last with (e | _) | read
  · rw [resultsOf] at h
    cases hfailures : failureResults e clock tags 2 with
    | error e' =>
      rw [hfailures] at h
      cases h
    | ok failures =>
      rw [hfailures] at h
      cases h
      intro result hr
      obtain ⟨hmem, hnone⟩ := failureResults_tags hfailures result hr
      refine ⟨hmem, fun n hn => ?_⟩
      rw [hnone] at hn
      cases hn
  · cases h
  · cases h
    exact hlast _ rfl

theorem pollExecution_ids {startedAt finishedAt : DateTime} {results : List TagResult}
    {execution : PollExecution}
    (h : pollExecution worker group tags executionId startedAt finishedAt results = .ok execution) :
    execution.connectionId = worker.connection.id ∧ execution.tagGroupId = group.id ∧
      execution.requestedTags = tags.length := by
  by_cases hok : startedAt ≤ finishedAt ∧
      results.countP (·.isSuccess) + results.countP (!·.isSuccess) ≤ tags.length
  · rw [pollExecution_eq hok.1 hok.2] at h
    cases h
    exact ⟨rfl, rfl, rfl⟩
  · obtain ⟨e, he⟩ := pollExecution_error hok
    rw [he] at h
    cases h

end

/-- What a poll of a configuration refers to is in the configuration, and its integers fit. -/
structure Acceptable (config : GatewayConfig) (r : WorkerPollResult) : Prop where
  connection : ∃ c ∈ config.connections, c.id = r.execution.connectionId
  tagGroup : ∃ g ∈ config.tagGroups, g.id = r.execution.tagGroupId
  tags : ∀ result ∈ r.results, ∃ t ∈ config.tags, t.id = result.tagId
  requested : FitsInt64 r.execution.requestedTags
  values : ∀ result ∈ r.results, ∀ n, result.value = some (.integer n) → FitsInt64 n

theorem Polled.acceptable {config : GatewayConfig} {r : WorkerPollResult} (h : Polled config r) :
    Acceptable config r := by
  cases h with
  | @poll worker clock jitter group tags executionId inputs w w' x _ hconnection hgroup htags hlength
      hreads hexec =>
    have hout := pollOutcome_of_exec hexec
    have hread : ∀ results, (inputs.retried worker jitter).1 = .ok results → Readable tags results := by
      intro results hresults
      have hlast := inputs.lastRead_of_retried worker jitter
      rw [hresults] at hlast
      exact hreads _ results hlast
    rcases hresults : resultsOf clock tags (inputs.retried worker jitter).1 with e | ⟨results, k⟩
    · rw [pollOutcome, hresults] at hout
      cases hout
    · obtain ⟨execution, rfl, hexecution⟩ := pollOutcome_eq_ok hresults hout
      obtain ⟨hconnectionId, hgroupId, hrequested⟩ := pollExecution_ids hexecution
      have hreadable := readable_of_resultsOf hread hresults
      refine ⟨⟨_, hconnection, hconnectionId.symm⟩, ⟨_, hgroup, hgroupId.symm⟩, fun result hr => ?_, ?_,
        fun result hr => (hreadable result hr).2⟩
      · obtain ⟨tag, htag, hid⟩ := List.mem_map.1 (hreadable result hr).1
        exact ⟨tag, htags tag htag, hid⟩
      · rw [hrequested]
        exact hlength

/-! ## Acceptance -/

/-- The database knows the configuration, and the value type of every tag. -/
structure GatewayConfig.KnownTo (config : GatewayConfig) (db : GatewayDatabase) : Prop where
  connections : ∀ c ∈ config.connections, c.id.text ∈ db.connections.keys
  tagGroups : ∀ g ∈ config.tagGroups, g.id.text ∈ db.tagGroups.keys
  tags : ∀ t ∈ config.tags, ∃ row, db.tags.lookup t.id.text = some row ∧ row.Typed

theorem GatewayConfig.StoredIn.knownTo {config : GatewayConfig} {db db' : GatewayDatabase}
    (h : config.StoredIn db db') : config.KnownTo db' := by
  refine ⟨fun c hc => ?_, fun g hg => ?_, fun t ht => ?_⟩
  · obtain ⟨row, hrow, -⟩ := h.connections c hc
    exact Finmap.mem_keys.2 (Finmap.mem_of_lookup_eq_some hrow)
  · obtain ⟨row, hrow, -⟩ := h.tagGroups g hg
    exact Finmap.mem_keys.2 (Finmap.mem_of_lookup_eq_some hrow)
  · obtain ⟨row, hrow, hrepresents⟩ := h.tags t ht
    exact ⟨row, hrow, t.valueType, hrepresents.valueType⟩

/-- What the database knows it keeps. -/
theorem GatewayConfig.KnownTo.evolves {config : GatewayConfig} {db db' : GatewayDatabase}
    (h : config.KnownTo db) (hevolves : db.Evolves db') : config.KnownTo db' := by
  refine ⟨fun c hc => hevolves.connections (h.connections c hc),
    fun g hg => hevolves.tagGroups (h.tagGroups g hg), fun t ht => ?_⟩
  obtain ⟨row, hrow, htyped⟩ := h.tags t ht
  obtain ⟨row', hrow', hkeeps⟩ := hevolves.tags _ row hrow
  exact ⟨row', hrow', hkeeps htyped⟩

theorem ValueType.value_ne_empty (t : ValueType) : t.value ≠ "" := by cases t <;> decide

/-- A reading of a typed tag can be bound, if its integer fits. -/
theorem exists_readingValues {config : ConfigurationTables} {rec : TagReadingRecord}
    (htyped : ∃ t : ValueType, config.tags.lookup rec.result.tagId.text = some (some t.value))
    (hfits : ∀ n, rec.result.value = some (.integer n) → FitsInt64 n) :
    ∃ row, readingValues config rec = .ok row := by
  have htype : ∃ t, readingValueType config rec = .ok t := by
    rw [readingValueType]
    cases rec.result.value with
    | some v => exact ⟨_, rfl⟩
    | none =>
      obtain ⟨t, ht⟩ := htyped
      rw [ht]
      exact ⟨t.value, if_pos t.value_ne_empty⟩
  have hinteger : ∃ n, bindOptionalInteger (rec.result.value.bind TagValue.integerValue) = .ok n := by
    cases hvalue : rec.result.value with
    | none => exact ⟨none, rfl⟩
    | some v =>
      cases v with
      | integer m =>
        have hbind : bindInteger m = .ok ⟨m, hfits m hvalue⟩ := bindInteger_eq_ok_iff.2 rfl
        refine ⟨some ⟨m, hfits m hvalue⟩, ?_⟩
        rw [Option.bind_some, TagValue.integerValue, bindOptionalInteger, hbind]
        rfl
      | numeric x | boolean b | text s | binary b => exact ⟨none, rfl⟩
  obtain ⟨t, ht⟩ := htype
  obtain ⟨n, hn⟩ := hinteger
  exact ⟨_, bind_eq_ok_iff.2 ⟨t, ht, bind_eq_ok_iff.2 ⟨n, hn, rfl⟩⟩⟩

theorem Acceptable.putsOf {config : GatewayConfig} {r : WorkerPollResult} {db : GatewayDatabase}
    (h : Acceptable config r) (hknown : config.KnownTo db) :
    (∃ ps, putsOf db.readingTables.config r = .ok ps) ∧ ForeignKeys db.readingTables.config r := by
  have htag : ∀ result ∈ r.results, ∃ t : ValueType,
      db.readingTables.config.tags.lookup result.tagId.text = some (some t.value) := by
    intro result hr
    obtain ⟨tag, htag, hid⟩ := h.tags result hr
    obtain ⟨row, hrow, t, ht⟩ := hknown.tags tag htag
    rw [← hid]
    refine ⟨t, ?_⟩
    show (mapRows TagRow.valueType db.tags).lookup tag.id.text = some (some t.value)
    rw [lookup_mapRows, hrow, Option.map_some, ht]
  constructor
  · obtain ⟨row, hrow⟩ := executionValues_total h.requested
    obtain ⟨ps, hps⟩ := readingPuts_total 0 fun result hr i =>
      (exists_readingValues (htag result hr) (h.values result hr) :
        ∃ row, readingValues db.readingTables.config (readingRecord r.execution i result) = .ok row)
    exact ⟨_, bind_eq_ok_iff.2 ⟨row, hrow, bind_eq_ok_iff.2 ⟨ps, hps, rfl⟩⟩⟩
  · obtain ⟨c, hc, hconnection⟩ := h.connection
    obtain ⟨g, hg, hgroup⟩ := h.tagGroup
    refine ⟨?_, ?_, fun result hr => ?_⟩
    · rw [← hconnection]
      exact hknown.connections c hc
    · rw [← hgroup]
      exact hknown.tagGroups g hg
    · obtain ⟨t, ht⟩ := htag result hr
      exact Finmap.mem_of_lookup_eq_some ht

/-- **What is polled of a stored configuration is accepted.**  After any further repository
    calls, `save_poll_results` stores every list of polls of its groups by its workers,
    whatever the driver has answered or raised. -/
theorem polls_accepted {config : GatewayConfig} (hsound : config.ReferentiallySound)
    {db db' : GatewayDatabase} (hseed : seedConfiguration config db = .ok db')
    (calls : List RepositoryCall) {rs : List WorkerPollResult} (h : ∀ r ∈ rs, Polled config r) :
    ∃ n db'', (RepositoryCall.savePollResults rs).execute (RepositoryCall.commitAll calls db').2 =
      .ok (n, db'') := by
  have hknown := (storedIn_of_seed hsound hseed).knownTo.evolves
    (RepositoryCall.transacts_commitAll calls db').evolves
  obtain ⟨n, hsave⟩ := savePollResults_total fun r hr => (h r hr).acceptable.putsOf hknown
  have hcall := RepositoryCall.execute_savePollResults rs (RepositoryCall.commitAll calls db').2
  rw [hsave] at hcall
  exact ⟨n, _, hcall⟩

/-! ## Two polls of the release -/

/-- The database with the configuration of the release. -/
def releaseDatabase : GatewayDatabase :=
  ((seedConfiguration releaseConfiguration .empty).toOption).getD .empty

theorem seed_releaseDatabase : seedConfiguration releaseConfiguration .empty = .ok releaseDatabase := by
  obtain ⟨db, hdb⟩ := exists_seed_of_fits releaseConfiguration_sound releaseConfiguration_fits .empty
  rw [releaseDatabase, hdb]
  rfl

/-- A poll of the release. -/
def releasePoll (inputs : PollInputs) (executionId : Stripped) :
    Outcome PyError WorkerPollResult × ConnectionWorker × ℕ :=
  (ConnectionWorker.pollGroup fakeConfig fixedClock (fun _ => 0) fastGroupConfig [temperatureConfig]
    executionId .init).exec inputs.answer 0

/-- A driver that raises at every read. -/
def disconnectedReads : PollInputs := .always (.error (.error (.valueError "not connected")))

/-- A driver that reads an integer after a timeout. -/
def recoveringReads : PollInputs := .recovering (makePollResult pollTwo (.integer 21)).results

theorem disconnectedPoll_returns :
    (releasePoll disconnectedReads pollOne).1.toOption.isSome = true := by
  decide +kernel

theorem recoveredPoll_returns : (releasePoll recoveringReads pollTwo).1.toOption.isSome = true := by
  decide +kernel

def disconnectedResult : WorkerPollResult :=
  (releasePoll disconnectedReads pollOne).1.toOption.get disconnectedPoll_returns

def recoveredResult : WorkerPollResult :=
  (releasePoll recoveringReads pollTwo).1.toOption.get recoveredPoll_returns

/-- A poll of the release that returns. -/
theorem polled_releasePoll {inputs : PollInputs} {executionId : Stripped}
    (hreads : ∀ k results, inputs.reads k = .ok results → Readable [temperatureConfig] results)
    (hreturns : (releasePoll inputs executionId).1.toOption.isSome = true) :
    Polled releaseConfiguration ((releasePoll inputs executionId).1.toOption.get hreturns) := by
  have hok : (releasePoll inputs executionId).1 =
      .ok ((releasePoll inputs executionId).1.toOption.get hreturns) := by
    generalize (releasePoll inputs executionId).1 = outcome at hreturns ⊢
    cases outcome with
    | error e => cases hreturns
    | ok r => rfl
  exact .poll (List.mem_singleton_self _) (List.mem_singleton_self _) (fun t ht => ht) (by decide)
    hreads (Prod.ext hok rfl)

/-- Both polls are of the configuration of the release. -/
theorem polled_release : ∀ r ∈ [disconnectedResult, recoveredResult], Polled releaseConfiguration r := by
  rw [List.forall_mem_cons, List.forall_mem_singleton]
  constructor
  · refine polled_releasePoll (fun k results hread => ?_) disconnectedPoll_returns
    cases hread
  · refine polled_releasePoll (fun k results hread => ?_) recoveredPoll_returns
    rw [PollInputs.reads_recovering hread]
    intro result hr
    rw [List.mem_singleton.1 hr]
    refine ⟨List.mem_singleton_self _, fun n hn => ?_⟩
    cases hn
    decide

/-- A poll of a value and a poll of errors are stored, the latter twice. -/
theorem polls_accepted_release : ∃ n db, (RepositoryCall.savePollResults
    [disconnectedResult, recoveredResult, disconnectedResult]).execute
      (RepositoryCall.commitAll RepositoryCall.releaseCalls releaseDatabase).2 = .ok (n, db) := by
  refine polls_accepted releaseConfiguration_sound seed_releaseDatabase _ fun r hr => polled_release r ?_
  simp only [List.mem_cons, List.not_mem_nil, or_false] at hr ⊢
  tauto

end PlcGateway
