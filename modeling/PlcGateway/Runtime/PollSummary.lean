/-
  The summary of a poll.

  The status is made from the results alone: no result is no failure.  So a poll of
  no tags succeeds also when its last read has raised.
-/
import PlcGateway.Runtime.PollOutcome

namespace PlcGateway

open Calendar Coroutine

/-- What the summary of a poll says, and the state that the poll leaves, are true of
    its last read and its results. -/
structure Truthful (tags : List TagConfig) (lastRead : Outcome PyError (List TagResult))
    (result : WorkerPollResult) (state : WorkerState) : Prop where
  length : result.results.length = tags.length
  ids : result.results.map TagResult.tagId = tags.map TagConfig.id
  requested : result.execution.requestedTags = tags.length
  counted : result.execution.successfulTags + result.execution.failedTags = tags.length
  success : result.execution.status = .success ↔
    (∃ results, lastRead = .ok results) ∧ ∀ r ∈ result.results, r.isSuccess = true
  failed : result.execution.status = .failed ↔
    (∃ e, lastRead = .error (.error e)) ∨ tags ≠ [] ∧ ∀ r ∈ result.results, r.isSuccess = false
  otherwise : result.execution.status ≠ .success → result.execution.status ≠ .failed →
    result.execution.status = .partialFailure
  running : state = .running ↔ result.execution.status = .success

/-! ## The status -/

section
variable {results : List TagResult}

theorem pollStatus_success_iff : pollStatus results = .success ↔ ∀ r ∈ results, r.isSuccess = true := by
  have hcount : results.countP (!·.isSuccess) = 0 ↔ ∀ r ∈ results, r.isSuccess = true := by
    simp only [List.countP_eq_zero, Bool.not_eq_true', Bool.not_eq_false]
  rw [pollStatus, ← hcount]
  cases results with
  | nil => exact iff_of_true rfl rfl
  | cons r results =>
    simp only [List.isEmpty_cons, Bool.false_eq_true, if_false]
    split_ifs with hzero hall
    · exact iff_of_true rfl hzero
    · exact iff_of_false nofun hzero
    · exact iff_of_false nofun hzero

theorem pollStatus_failed_iff :
    pollStatus results = .failed ↔ results ≠ [] ∧ ∀ r ∈ results, r.isSuccess = false := by
  have hcount : results.countP (!·.isSuccess) = results.length ↔ ∀ r ∈ results, r.isSuccess = false := by
    simp only [List.countP_eq_length, Bool.not_eq_true']
  rw [pollStatus, ← hcount]
  cases results with
  | nil => exact iff_of_false nofun fun h => h.1 rfl
  | cons r results =>
    simp only [List.isEmpty_cons, Bool.false_eq_true, if_false]
    split_ifs with hzero hall
    · refine iff_of_false nofun fun h => ?_
      rw [hzero, List.length_cons] at h
      exact absurd h.2 (Nat.succ_ne_zero _).symm
    · exact iff_of_true rfl ⟨List.cons_ne_nil r results, hall⟩
    · exact iff_of_false nofun fun h => hall h.2

theorem pollStatus_cases (results : List TagResult) :
    pollStatus results = .success ∨ pollStatus results = .failed ∨
      pollStatus results = .partialFailure := by
  unfold pollStatus
  by_cases hempty : results.isEmpty
  · exact Or.inl (if_pos hempty)
  · rw [if_neg hempty]
    by_cases hzero : results.countP (!·.isSuccess) = 0
    · exact Or.inl (if_pos hzero)
    · by_cases hall : results.countP (!·.isSuccess) = results.length
      · exact Or.inr (Or.inl ((if_neg hzero).trans (if_pos hall)))
      · exact Or.inr (Or.inr ((if_neg hzero).trans (if_neg hall)))

end

namespace ConnectionWorker

variable {config : WorkerConfig} {clock : ℕ → DateTime} {jitter : ℕ → ℚ} {group : TagGroupConfig}
  {tags : List TagConfig} {executionId : Stripped} {inputs : PollInputs}

/-- A summary is true when the last read returned, or raised and all results failed. -/
theorem truthful_of_results {lastRead : Outcome PyError (List TagResult)} {results : List TagResult}
    {startedAt finishedAt : DateTime} {execution : PollExecution} {state : WorkerState}
    (hexecution : pollExecution config group tags executionId startedAt finishedAt results = .ok execution)
    (hids : results.map TagResult.tagId = tags.map TagConfig.id)
    (hlast : (∃ results, lastRead = .ok results) ∨ (∃ e, lastRead = .error (.error e)) ∧ tags ≠ [] ∧
      ∀ r ∈ results, r.isSuccess = false)
    (hstate : state = .running ↔ execution.status = .success) :
    Truthful tags lastRead ⟨execution, results⟩ state := by
  obtain ⟨-, hstatus, hrequested, hsuccessful, hfailed⟩ := pollExecution_eq_ok hexecution
  have hlength : results.length = tags.length := by
    have := congrArg List.length hids
    rwa [List.length_map, List.length_map] at this
  have hempty : results ≠ [] ↔ tags ≠ [] := by
    rw [← List.length_pos_iff, hlength, List.length_pos_iff]
  refine ⟨hlength, hids, hrequested, ?_, ?_, ?_, ?_, hstate⟩
  · rw [hsuccessful, hfailed, countP_isSuccess_add, hlength]
  · simp only [hstatus, pollStatus_success_iff]
    refine (and_iff_right_of_imp fun hall => ?_).symm
    rcases hlast with hok | ⟨-, hne, hfails⟩
    · exact hok
    · obtain ⟨r, hr⟩ := List.exists_mem_of_ne_nil results (hempty.2 hne)
      have hfail := hfails r hr
      rw [hall r hr] at hfail
      cases hfail
  · simp only [hstatus, pollStatus_failed_iff, hempty]
    refine (or_iff_right_of_imp ?_).symm
    rintro ⟨e, he⟩
    rcases hlast with ⟨rs, hok⟩ | ⟨-, hne, hfails⟩
    · rw [hok] at he
      cases he
    · exact ⟨hne, hfails⟩
  · intro hsuccess hfailed
    simp only [hstatus] at hsuccess hfailed ⊢
    exact ((pollStatus_cases results).resolve_left hsuccess).resolve_left hfailed

/-- **The summary of a poll is true** just when it does not return after its last read
    raised with no tags to poll. -/
theorem poll_truthful_iff (hvalid : validatePollInputs config.connection group tags = .ok ())
    (hreads : ∀ k results, inputs.reads k = .ok results →
      results.map TagResult.tagId = tags.map TagConfig.id) (w : ConnectionWorker) :
    (∀ result w' x', (pollGroup config clock jitter group tags executionId w).exec inputs.answer 0 =
        (.ok result, w', x') → Truthful tags (inputs.lastRead config jitter) result w'.state) ↔
      (tags = [] → (∃ e, (inputs.retried config jitter).1 = .error (.error e)) →
        ¬ clock 0 ≤ clock 2) := by
  obtain ⟨w₁, x₁, hexec, hrunning⟩ := exec_pollGroup hvalid w
  have hlast := inputs.lastRead_of_retried config jitter
  rw [hexec]
  constructor
  · rintro h rfl ⟨e, he⟩ hclock
    rw [he] at h hlast
    have hnil : resultsOf clock [] (.error (.error e)) = .ok ([], 2) := rfl
    rcases pollOutcome_of_results config group executionId hnil (Nat.zero_le _) with
      ⟨-, execution, hout, hexecution⟩ | ⟨hnot, -⟩
    · have htrue := h _ w₁ x₁ (by rw [hout])
      have hstatus : execution.status = .success := (pollExecution_eq_ok hexecution).2.1
      have hfailed := htrue.failed.2 (Or.inl hlast)
      rw [hstatus] at hfailed
      cases hfailed
    · exact hnot hclock
  · intro h result w' x' hresult
    obtain ⟨hout, rfl, rfl⟩ : pollOutcome config clock group tags executionId
        (inputs.retried config jitter).1 = .ok result ∧ w₁ = w' ∧ x₁ = x' := by
      simpa only [Prod.mk.injEq] using hresult
    have hstate := hrunning result hout
    rcases hretried : (inputs.retried config jitter).1 with (e | _) | results <;>
      rw [hretried] at hout hlast h
    · by_cases hne : tags = []
      · subst hne
        have hnil : resultsOf clock [] (.error (.error e)) = .ok ([], 2) := rfl
        rcases pollOutcome_of_results config group executionId hnil (Nat.zero_le _) with
          ⟨hclock, -⟩ | ⟨-, e', herror⟩
        · exact absurd hclock (h rfl ⟨e, rfl⟩)
        · rw [herror] at hout
          cases hout
      · rcases hc : Stripped.ofText e.errorCode with _ | c
        · rw [pollOutcome, resultsOf_blank (Or.inl hc) hne] at hout
          cases hout
        · rcases hm : Stripped.ofText e.describe with _ | m
          · rw [pollOutcome, resultsOf_blank (Or.inr hm) hne] at hout
            cases hout
          · obtain ⟨execution, rfl, hexecution⟩ := pollOutcome_eq_ok (resultsOf_error hc hm) hout
            refine truthful_of_results hexecution (failedResults_tagId c m clock tags 2) ?_ hstate
            exact Or.inr ⟨hlast, hne, fun r hr => isSuccess_failedResults hr⟩
    · cases hout
    · have hresults : resultsOf clock tags (.ok results) = .ok (results, 1) := rfl
      obtain ⟨execution, rfl, hexecution⟩ := pollOutcome_eq_ok hresults hout
      exact truthful_of_results hexecution (hreads _ _ hlast) (Or.inl ⟨_, hlast⟩) hstate

/-! ## Polls of no tag and of one -/

def refusedRead : PyError := ⟨.other, "RuntimeError", "read failed", .none⟩

/-- A poll whose reads all raise. -/
def refusedPoll (tags : List TagConfig) : Outcome PyError WorkerPollResult × ConnectionWorker × ℕ :=
  (pollGroup fakeConfig fixedClock (fun _ => defaultRandom) fastGroupConfig tags pollOne init).exec
    (PollInputs.always (.error (.error refusedRead))).answer 0

/-- A poll of no tag succeeds although its read has raised. -/
theorem refused_poll_succeeds :
    ∃ result w x, refusedPoll [] = (.ok result, w, x) ∧ result.execution.status = .success ∧
      ¬ Truthful [] (.error (.error refusedRead)) result w.state := by
  have hstatus : (refusedPoll []).1.toOption.any (·.execution.status = .success) = true := by
    decide +kernel
  rcases hrun : refusedPoll [] with ⟨e | result, w, x⟩ <;> rw [hrun] at hstatus
  · cases hstatus
  · have hsuccess : result.execution.status = .success := of_decide_eq_true hstatus
    refine ⟨result, w, x, rfl, hsuccess, fun htrue => ?_⟩
    have hfailed := htrue.failed.2 (Or.inl ⟨_, rfl⟩)
    rw [hsuccess] at hfailed
    cases hfailed

/-- A poll of two tags whose first read times out, and whose second gives a value and a failure. -/
def recoveredPoll : Outcome PyError WorkerPollResult × ConnectionWorker × ℕ :=
  (pollGroup fakeConfig fixedClock (fun _ => defaultRandom) fastGroupConfig
    [temperatureConfig, pressureConfig] pollOne init).exec (PollInputs.recovering mixedResults).answer 0

theorem recovered_poll_truthful :
    ∃ result w x, recoveredPoll = (.ok result, w, x) ∧
      result.execution.status = .partialFailure ∧
      Truthful [temperatureConfig, pressureConfig] (.ok mixedResults) result w.state := by
  have hstatus : recoveredPoll.1.toOption.any (·.execution.status = .partialFailure) = true := by
    decide +kernel
  have hreads : ∀ k results, (PollInputs.recovering mixedResults).reads k = .ok results →
      results.map TagResult.tagId = [temperatureConfig, pressureConfig].map TagConfig.id := by
    intro k results h
    rw [PollInputs.reads_recovering h]
    rfl
  have hlast : (PollInputs.recovering mixedResults).lastRead fakeConfig (fun _ => defaultRandom) =
      .ok mixedResults := by
    decide +kernel
  rcases hrun : recoveredPoll with ⟨e | result, w, x⟩ <;> rw [hrun] at hstatus
  · cases hstatus
  · have htruthful := (poll_truthful_iff rfl hreads init).2 (fun hnil => absurd hnil (List.cons_ne_nil _ _))
      result w x hrun
    rw [hlast] at htruthful
    exact ⟨result, w, x, rfl, of_decide_eq_true hstatus, htruthful⟩

end ConnectionWorker

end PlcGateway
