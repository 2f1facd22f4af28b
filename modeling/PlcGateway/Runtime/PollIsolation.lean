/-
  The isolation of poll failures.

  A poll should give results whatever its reads raise.  It raises itself when the
  clock steps back between its start and its end, and when the code or the text of
  the error is blank, because a failed result must have both.
-/
import PlcGateway.Runtime.PollOutcome

namespace PlcGateway

open Calendar Coroutine

/-- A failed result for each tag, with the error code and the message. -/
def Carries (tags : List TagConfig) (errorCode errorMessage : String) (results : List TagResult) :
    Prop :=
  List.Forall₂ (fun tag r => r.tagId = tag.id ∧ r.isSuccess = false ∧
    r.errorCode.map Stripped.text = some (strip errorCode) ∧
    r.errorMessage.map Stripped.text = some (strip errorMessage)) tags results

/-- The poll returns, unless it is cancelled, and reports the error of the last read. -/
def Isolated (lastRead : Outcome PyError (List TagResult)) (tags : List TagConfig) :
    Outcome PyError WorkerPollResult → Prop
  | .ok result => ∀ e, lastRead = .error (.error e) →
    Carries tags e.errorCode e.describe result.results
  | .error .cancelled => True
  | .error (.error _) => False

/-- The clock has not stepped back when the poll ends.  If the retries end with an
    exception and there are tags, then its code and its text are not blank, and they
    are those of the exception that the last read raised. -/
def PollInputs.Isolable (inputs : PollInputs) (config : WorkerConfig) (clock : ℕ → DateTime)
    (jitter : ℕ → ℚ) (tags : List TagConfig) : Prop :=
  match (inputs.retried config jitter).1 with
  | .ok _ => clock 0 ≤ clock 1
  | .error .cancelled => True
  | .error (.error e) => clock 0 ≤ clock (tags.length + 2) ∧ (tags = [] ∨
    (strip e.errorCode ≠ "" ∧ strip e.describe ≠ "") ∧
      ∀ e', inputs.lastRead config jitter = .error (.error e') →
        strip e'.errorCode = strip e.errorCode ∧ strip e'.describe = strip e.describe)

namespace ConnectionWorker

variable {config : WorkerConfig} {clock : ℕ → DateTime} {jitter : ℕ → ℚ} {group : TagGroupConfig}
  {tags : List TagConfig} {executionId : Stripped} {inputs : PollInputs}

theorem carries_failedResults_iff {c m : Stripped} (errorCode errorMessage : String) (k : ℕ) :
    Carries tags errorCode errorMessage (failedResults c m clock tags k) ↔
      tags = [] ∨ strip errorCode = c.text ∧ strip errorMessage = m.text := by
  induction tags generalizing k with
  | nil => exact iff_of_true .nil (Or.inl rfl)
  | cons tag tags ih =>
    rw [Carries, failedResults, List.forall₂_cons, or_iff_right (List.cons_ne_nil tag tags)]
    constructor
    · rintro ⟨⟨-, -, hc, hm⟩, -⟩
      exact ⟨(Option.some.inj hc).symm, (Option.some.inj hm).symm⟩
    · rintro ⟨hc, hm⟩
      exact ⟨⟨rfl, rfl, congrArg some hc.symm, congrArg some hm.symm⟩,
        (ih (k + 1)).2 (Or.inr ⟨hc, hm⟩)⟩

/-- A poll whose retries end with `last`, after a last read that gave `lastRead`. -/
theorem isolated_results_iff {last lastRead : Outcome PyError (List TagResult)} {results : List TagResult}
    {k : ℕ} (h : resultsOf clock tags last = .ok (results, k)) (hlength : results.length ≤ tags.length) :
    Isolated lastRead tags (pollOutcome config clock group tags executionId last) ↔
      clock 0 ≤ clock k ∧
        ∀ e, lastRead = .error (.error e) → Carries tags e.errorCode e.describe results := by
  rcases pollOutcome_of_results config group executionId h hlength with
    ⟨hclock, execution, hout, -⟩ | ⟨hclock, e, hout⟩
  · rw [hout]
    exact (and_iff_right hclock).symm
  · rw [hout]
    exact iff_of_false id fun hand => hclock hand.1

/-- **A poll isolates its failures** just when it is isolable. -/
theorem poll_isolated_iff (hvalid : validatePollInputs config.connection group tags = .ok ())
    (hreads : ∀ k results, inputs.reads k = .ok results → results.length ≤ tags.length)
    (w : ConnectionWorker) :
    Isolated (inputs.lastRead config jitter) tags
      ((pollGroup config clock jitter group tags executionId w).exec inputs.answer 0).1 ↔
      inputs.Isolable config clock jitter tags := by
  obtain ⟨w', x', hexec, -⟩ := exec_pollGroup hvalid w
  have hlast := inputs.lastRead_of_retried config jitter
  rw [hexec, PollInputs.Isolable]
  rcases hretried : (inputs.retried config jitter).1 with (e | _) | results <;>
    rw [hretried] at hlast
  · simp only
    by_cases hne : tags = []
    · subst hne
      have hnil : resultsOf clock [] (.error (.error e)) = .ok ([], 2) := rfl
      rw [isolated_results_iff hnil (Nat.zero_le _)]
      refine and_congr_right fun _ => iff_of_true ?_ (Or.inl rfl)
      exact fun _ _ => List.Forall₂.nil
    · rw [or_iff_right hne]
      rcases hc : Stripped.ofText e.errorCode with _ | c
      · rw [pollOutcome, resultsOf_blank (Or.inl hc) hne]
        refine iff_of_false id fun h => h.2.1.1 ?_
        exact Stripped.ofText_eq_none_iff.1 hc
      · rcases hm : Stripped.ofText e.describe with _ | m
        · rw [pollOutcome, resultsOf_blank (Or.inr hm) hne]
          refine iff_of_false id fun h => h.2.1.2 ?_
          exact Stripped.ofText_eq_none_iff.1 hm
        · rw [isolated_results_iff (resultsOf_error hc hm) (failedResults_length c m clock tags 2).le]
          refine and_congr_right fun _ => ?_
          rw [← Stripped.ofText_eq_some_iff.1 hc, ← Stripped.ofText_eq_some_iff.1 hm,
            and_iff_right ⟨c.ne, m.ne⟩]
          simp only [carries_failedResults_iff, or_iff_right hne]
  · exact Iff.rfl
  · have hresults : resultsOf clock tags (.ok results) = .ok (results, 1) := rfl
    rw [isolated_results_iff hresults (hreads _ results hlast), hlast]
    exact and_iff_left (by rintro e h; cases h)

/-! ## Polls of one tag -/

/-- A poll whose reads are all answered with `read`. -/
def pollTag (clock : ℕ → DateTime) (read : Outcome PyError (List TagResult)) :
    Outcome PyError WorkerPollResult :=
  ((pollGroup fakeConfig clock (fun _ => defaultRandom) fastGroupConfig [temperatureConfig] pollOne
    init).exec (PollInputs.always read).answer 0).1

def readError (message : String) : PyError := ⟨.other, "RuntimeError", message, .none⟩

/-- A clock that is set back by a second after its first reading. -/
def clockSetBack : ℕ → DateTime
  | 0 => ⟨timestamp.date, 12, 0, 1, 0, by decide⟩
  | _ => timestamp

/-- A blank message, and a clock that steps back, make the poll raise. -/
theorem poll_raises :
    ¬ Isolated (.error (.error (readError "   "))) [temperatureConfig]
        (pollTag fixedClock (.error (.error (readError "   ")))) ∧
      ¬ Isolated (.ok (makePollResult pollOne (.boolean true)).results) [temperatureConfig]
        (pollTag clockSetBack (.ok (makePollResult pollOne (.boolean true)).results)) := by
  have hblank : pollTag fixedClock (.error (.error (readError "   "))) =
      .error (.error (.configuration "Failed TagResult requires error details.")) := by
    decide +kernel
  have hback : pollTag clockSetBack (.ok (makePollResult pollOne (.boolean true)).results) =
      .error (.error (.configuration "finished_at cannot be before started_at.")) := by
    decide +kernel
  rw [hblank, hback]
  exact ⟨id, id⟩

/-- A read that times out and then gives a value and a failure makes no poll raise. -/
theorem poll_isolates_mixed_read :
    Isolated (.ok mixedResults) [temperatureConfig, pressureConfig]
      ((pollGroup fakeConfig fixedClock (fun _ => defaultRandom) fastGroupConfig
        [temperatureConfig, pressureConfig] pollOne init).exec
          (PollInputs.recovering mixedResults).answer 0).1 := by
  have hreads : ∀ k results, (PollInputs.recovering mixedResults).reads k = .ok results →
      results.length ≤ [temperatureConfig, pressureConfig].length := by
    intro k results h
    rw [PollInputs.reads_recovering h]
    rfl
  have hlast : (PollInputs.recovering mixedResults).lastRead fakeConfig (fun _ => defaultRandom) =
      .ok mixedResults := by
    decide +kernel
  have hretried : ((PollInputs.recovering mixedResults).retried fakeConfig fun _ => defaultRandom).1 =
      .ok mixedResults := by
    decide +kernel
  rw [← hlast]
  refine (poll_isolated_iff rfl hreads init).2 ?_
  rw [PollInputs.Isolable, hretried]
  exact timestamp.le_refl

end ConnectionWorker

end PlcGateway
