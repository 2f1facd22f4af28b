/-
  A failing database beside a healthy spool.

  An `append` that is executed succeeds, but the saves that never return keep their
  threads, and an `append` that finds no thread is given up before it has taken
  effect.  Where this does not happen, no acknowledged batch is lost.
-/
import PlcGateway.Persistence.Custody

namespace PlcGateway

open Coroutine Relation Calendar

def Job.isAppend : Job → Bool
  | .append _ => true
  | _ => false

/-- A healthy spool: an `append` succeeds when a thread runs it, and before its
    timeout when it gets a thread at once.  The database may do anything. -/
def healthySpool : Surroundings where
  result job r := !job.isAppend || r.isOk
  timeout c _ := c.job.isAppend = true → c.late = true

/-- What is lost if the submission is given up now: nothing, unless it is an
    `append` that has not taken effect. -/
def Submission.Dispensable (st : Stores) : Submission → Prop
  | ⟨.append batch, _, .queued⟩ | ⟨.append batch, _, .running⟩ => ∀ r ∈ batch, st.Keeps r
  | _ => True

/-- A healthy spool whose `append` has taken effect when it times out, or has
    nothing left to do. -/
def spoolInTime : Surroundings where
  result := healthySpool.result
  timeout c st := healthySpool.timeout c st ∧ c.Dispensable st

/-- The result of the submission is one that a healthy spool gives. -/
def Submission.Healthy : Submission → Prop
  | ⟨job, _, .executed r⟩ | ⟨job, _, .returned r⟩ => healthySpool.result job r = true
  | _ => True

/-- The batches whose `append` has raised or timed out are kept all the same. -/
structure Process.Spooling (P : WorkerPollResult → Prop) (st : Stores) (p : Process) : Prop where
  failed : ∀ batch, Failed p.config.history (.append batch) → ∀ r ∈ batch, P r ∧ st.Keeps r
  awaited : ∀ c, p.awaited = some c → c.Healthy

section
variable {P : WorkerPollResult → Prop} {st st' : Stores} {p p' : Process}

theorem Process.Spooling.mono (hp : p.Spooling P st) (hg : st.Grows P st') : p.Spooling P st' := by
  refine ⟨fun batch hf r hr => ?_, hp.awaited⟩
  obtain ⟨hPr, hk⟩ := hp.failed batch hf r hr
  exact ⟨hPr, hg.keeps hPr hk⟩

theorem healthy_submission {late : Bool} {ctl : Control WriterCalls WriterState PyError}
    {c : Submission} (hc : Process.submission late ctl = some c) : c.Healthy := by
  unfold Process.submission at hc
  split at hc
  · cases hc
    trivial
  · cases hc

/-- The writer goes on after an answer that is no failed `append`, or loses nothing. -/
theorem Process.Spooling.goOn (hp : p.Spooling P st) {c : WriterCall} {r : Outcome PyError c.Res}
    {t : Coro WriterCalls WriterState PyError Bool}
    (hlast : ∀ batch, Failed [⟨c, r⟩] (.append batch) → ∀ r' ∈ batch, P r' ∧ st.Keeps r') :
    (p.goOn (.settle (p.config.history ++ [⟨c, r⟩]) t)).Spooling P st := by
  refine ⟨?_, fun c' hc => healthy_submission hc⟩
  rintro batch ⟨d, e, hm⟩
  simp only [Process.goOn, Config.settle_history] at hm
  rcases List.mem_append.1 hm with hm | hm
  · exact hp.failed batch ⟨d, e, hm⟩
  · exact hlast batch ⟨d, e, hm⟩

theorem Process.Spooling.giveUp (hp : p.Spooling P st) (c : Submission) :
    (p.giveUp c).Spooling P st := by
  obtain ⟨job, late, phase⟩ := c
  cases phase <;> exact ⟨hp.failed, hp.awaited⟩

/-- An `append` that times out in time has put its batch into the spool. -/
theorem keeps_of_timeout {batch : List WorkerPollResult} {late : Bool} {phase : Phase (.append batch)}
    (hst : st.Sound P) (hsafe : Submission.Safe P st ⟨.append batch, late, phase⟩)
    (hhealthy : Submission.Healthy ⟨.append batch, late, phase⟩)
    (hd : Submission.Dispensable st ⟨.append batch, late, phase⟩) :
    ∀ r ∈ batch, P r ∧ st.Keeps r := by
  obtain ⟨hP, htold⟩ := hsafe
  intro r hr
  have hresult : ∀ o : Except PyError ℕ, healthySpool.result (.append batch) o = true →
      (∀ a, o = .ok a → Job.Told P st (.append batch) a) → P r ∧ st.Keeps r := by
    intro o ho ht
    cases o with
    | error e => cases ho
    | ok n => exact hst.kept r (ht n rfl r hr)
  cases phase with
  | queued => exact ⟨hP r hr, hd r hr⟩
  | running => exact ⟨hP r hr, hd r hr⟩
  | executed o => exact hresult o hhealthy htold
  | returned o => exact hresult o hhealthy htold

/-- A step keeps the batches of the failed `append`s. -/
theorem ProcessStep.spooling (h : ProcessStep spoolInTime (p, st) (p', st')) (hst : st.Sound P)
    (hg : st.Grows P st') (hsafe : p.Safe P st) (hp : p.Spooling P st) : p'.Spooling P st' := by
  cases h with
  | env he => exact ⟨hp.failed, hp.awaited⟩
  | enter hb =>
    refine ⟨fun batch hf => hp.failed batch ?_, fun c hc => healthy_submission hc⟩
    simp only [Process.goOn, Config.settle_history] at hf
    exact hf
  | resume hc hno ha =>
    refine hp.goOn ?_
    rintro batch ⟨t, e, hm⟩
    cases List.mem_singleton.1 hm
    exact absurd rfl (hno (.append batch) t)
  | start haw hlt =>
    refine ⟨hp.failed, fun c hc => ?_⟩
    cases hc
    trivial
  | execute haw he hF =>
    refine ⟨(hp.mono hg).failed, fun c hc => ?_⟩
    cases hc
    exact hF
  | @finish _ _ job late r haw =>
    have hh : healthySpool.result job r = true := hp.awaited _ haw
    refine ⟨hp.failed, fun c hc => ?_⟩
    cases hc
    exact hh
  | @deliver _ _ job t late k r hc haw =>
    refine hp.goOn (c := .toThread job t) ?_
    rintro batch ⟨t', e, hm⟩
    have hh : healthySpool.result job r = true := hp.awaited _ haw
    cases r with
    | ok a => cases List.mem_singleton.1 hm
    | error e' =>
      cases List.mem_singleton.1 hm
      cases hh
  | @timeout _ _ job t late phase k hc haw hF =>
    rw [← p.giveUp_config ⟨job, late, phase⟩]
    refine (hp.giveUp _).goOn (c := .toThread job t) ?_
    rintro batch ⟨t', e, hm⟩
    cases List.mem_singleton.1 hm
    exact keeps_of_timeout hst (hsafe.awaited _ haw) (hp.awaited _ haw) hF.2
  | @cancel _ _ job t late phase k hc haw =>
    rw [← p.giveUp_config ⟨job, late, phase⟩]
    refine (hp.giveUp _).goOn (c := .toThread job t) ?_
    rintro batch ⟨t', e, hm⟩
    cases List.mem_singleton.1 hm
  | executeAbandoned hab he hF => exact ⟨(hp.mono hg).failed, hp.awaited⟩
  | finishAbandoned hn => exact ⟨hp.failed, hp.awaited⟩

end

/-- Every process of a reachable system keeps the batches of its failed `append`s. -/
theorem System.Reachable.spooling {P : WorkerPollResult → Prop} (hP : SameContent P) {db : Database}
    (hdb : DatabaseAgrees P db) {x : System} (hx : System.Reachable spoolInTime P db x) :
    ∀ p ∈ x.processes, p.Spooling P x.stores := by
  induction hx with
  | init => exact fun p hp => (by cases hp)
  | @step x y hx hs hy ih =>
    have hsafe := hx.safe hP hdb
    obtain ⟨-, hg⟩ := hs.safe hP hsafe hy
    refine hs.forall_processes (Q := fun st p => p.Spooling P st) ih ?_ ?_ ?_
    · intro p hp p' hp' st' hstep
      obtain ⟨-, hg', -⟩ := hstep.safe hP hsafe.stores (hsafe.processes p hp) (hy p' hp')
      exact hstep.spooling hsafe.stores hg' (hsafe.processes p hp) (ih p hp)
    · exact fun p _ hp => hp.mono hg
    · intro cfg maxItems threads maxSize s hs
      refine ⟨?_, fun c hc => (by cases hc)⟩
      rintro batch ⟨t, e, hm⟩
      cases hm

/-- **A failing database costs no data while every `append` is in time**: whatever
    the database does, an acknowledged poll result is in the spool or in the main
    database from then on. -/
theorem failing_database_costs_no_data {P : WorkerPollResult → Prop} (hP : SameContent P)
    {db : Database} (hdb : DatabaseAgrees P db) {x : System}
    (hx : System.Reachable spoolInTime P db x) {p : Process} (hp : p ∈ x.processes)
    (hspool : p.cfg.hasSpool = true) :
    ∀ b ∈ p.config.state.log.flushed, ∀ r ∈ b.1, x.stores.Keeps r := by
  have hsafe := hx.safe hP hdb
  have hproc := hsafe.processes p hp
  intro b hb r hr
  have hv := (Writer.account_of_good hproc.good).verdicts b hb
  cases hverdict : b.2 with
  | persisted =>
    rw [hverdict] at hv
    obtain ⟨n, hn⟩ := hv
    exact .inr (hproc.told _ _ hn r hr).2
  | spooled =>
    rw [hverdict] at hv
    obtain ⟨n, hn⟩ := hv
    exact (hsafe.stores.kept r (hproc.told _ _ hn r hr)).2
  | failed =>
    rw [hverdict] at hv
    rcases hv with hno | hf
    · rw [hspool] at hno
      cases hno
    · exact ((hx.spooling hP hdb p hp).failed _ hf r hr).2

theorem dispensable_of_not_append {c : Submission} {st : Stores} (hc : c.job.isAppend = false) :
    c.Dispensable st := by
  obtain ⟨job, late, phase⟩ := c
  cases job with
  | append batch => cases hc
  | _ => trivial

/-- On a pool of two threads, the batch of a save that hangs is spooled. -/
theorem failing_database_costs_no_data_spooled : ∃ st p,
    System.Reachable spoolInTime (· = testItem) testDatabase ⟨st, [p]⟩ ∧ p.cfg.hasSpool = true ∧
      p.config.state.log.flushed = [([testItem], .spooled)] ∧ st.Keeps testItem := by
  have hplay : ((Process.play spoolInTime (fun c => !c.job.isAppend) [testItem]
      (takeItem ++ [.start, .timeout] ++ runJob)
      (.spawn (testConfig true) 1 2 testState, .fresh testDatabase)).map
        fun y => (y.1.cfg.hasSpool, y.1.config.state.log.flushed)) =
          some (true, [([testItem], .spooled)]) := by
    decide +kernel
  obtain ⟨y, hy, hobs⟩ := Option.map_eq_some_iff.1 hplay
  obtain ⟨hspool, hflushed⟩ := Prod.mk.inj hobs
  have hF : ∀ c st, (!c.job.isAppend) = true → spoolInTime.timeout c st := by
    intro c st hc
    rw [Bool.not_eq_true'] at hc
    refine ⟨fun ha => ?_, dispensable_of_not_append hc⟩
    rw [hc] at ha
    cases ha
  have hx := Process.play_sound (P := (· = testItem)) hF (fun r hr => List.mem_singleton.1 hr)
    (Process.reachable_spawn _ _ _ _ _ _) hy
  have hP : SameContent (· = testItem) := by
    rintro r r' rfl rfl -
    rfl
  refine ⟨y.2, y.1, hx, hspool, hflushed, ?_⟩
  refine failing_database_costs_no_data hP (databaseAgrees_testDatabase _) hx
    (List.mem_singleton_self _) hspool ([testItem], .spooled) ?_ testItem (List.mem_singleton_self _)
  rw [hflushed]
  exact List.mem_singleton_self _

/-- On a pool of one thread, a save that hangs costs the batch: its `append` finds
    no thread, and times out. -/
theorem failing_database_loses_batch : ∃ st p,
    System.Reachable healthySpool (· = testItem) testDatabase ⟨st, [p]⟩ ∧ p.cfg.hasSpool = true ∧
      cancellations p.config.history = 0 ∧
      p.config.state.log.flushed = [([testItem], .failed)] ∧ ¬ st.Keeps testItem := by
  have hplay : ((Process.play healthySpool (fun c => !c.job.isAppend || c.late) [testItem]
      (takeItem ++ [.start, .timeout, .timeout])
      (.spawn (testConfig true) 1 1 testState, .fresh testDatabase)).map
        fun y => (y.1.config.state.log.flushed, y.1.cfg.hasSpool &&
          cancellations y.1.config.history == 0 && y.2.spool.rows.isEmpty &&
          (y.2.database.pollExecutions.lookup testItem.executionId).isNone)) =
            some ([([testItem], .failed)], true) := by
    decide +kernel
  obtain ⟨y, hy, hobs⟩ := Option.map_eq_some_iff.1 hplay
  simp only [Prod.mk.injEq, Bool.and_eq_true, beq_iff_eq] at hobs
  obtain ⟨hflushed, ⟨⟨hspool, hcancel⟩, hempty⟩, hnone⟩ := hobs
  have hF : ∀ c st, (!c.job.isAppend || c.late) = true → healthySpool.timeout c st := by
    intro c st hc ha
    rw [ha] at hc
    exact hc
  have hx := Process.play_sound (P := (· = testItem)) hF (fun r hr => List.mem_singleton.1 hr)
    (Process.reachable_spawn _ _ _ _ _ _) hy
  refine ⟨y.2, y.1, hx, hspool, hcancel, hflushed, ?_⟩
  rintro (⟨row, hrow, -⟩ | hs)
  · rw [List.isEmpty_iff.1 hempty] at hrow
    cases hrow
  · exact not_stored_of_lookup (Option.isNone_iff_eq_none.1 hnone) hs

end PlcGateway
