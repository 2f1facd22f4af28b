/-
  A worker and its driver.

  A worker that is running should have its driver connected.  A poll and a health
  check set the state by what they found, also when the driver was disconnected
  while they were in flight.  The reports, which the history keeps, tell which of
  them did.
-/
import PlcGateway.Runtime.ConnectionWorker

namespace PlcGateway

open Calendar Coroutine

/-- A report of success is one of a connected driver. -/
def Report.Sound : Report → Prop
  | .poll results connected => pollStatus results = .success → connected = true
  | .health healthy connected => healthy = true → connected = true

instance : DecidablePred Report.Sound
  | .poll results connected =>
    inferInstanceAs (Decidable (pollStatus results = .success → connected = true))
  | .health healthy connected => inferInstanceAs (Decidable (healthy = true → connected = true))

/-- The operations of a worker, with the readings of the clock that they make. -/
inductive WorkerOperation where
  | connect (clock : ℕ → DateTime) (jitter : ℕ → ℚ)
  | disconnect (clock : ℕ → DateTime)
  | pollGroup (clock : ℕ → DateTime) (jitter : ℕ → ℚ) (group : TagGroupConfig) (tags : List TagConfig)
      (executionId : Stripped)
  | healthCheck (clock : ℕ → DateTime)

def WorkerOperation.run (config : WorkerConfig) : WorkerOperation → WorkerProg Unit
  | connect clock jitter => ConnectionWorker.connect config clock jitter
  | disconnect clock => ConnectionWorker.disconnect clock
  | pollGroup clock jitter group tags executionId =>
    .mapResult (fun _ => ()) (ConnectionWorker.pollGroup config clock jitter group tags executionId)
  | healthCheck clock => .mapResult (fun _ => ()) (ConnectionWorker.healthCheck config clock)

namespace ConnectionWorker

/-- If the worker is running then its driver is connected. -/
def Agrees (w : ConnectionWorker) : Prop := w.state = .running → w.connected = true

/-- Nothing is reported, and the worker agrees with its driver if it did. -/
def Quiet (w w' : ConnectionWorker) : Prop := w'.reports = w.reports ∧ (w.Agrees → w'.Agrees)

/-- The worker agrees with its driver after sound reports, and not after others. -/
def Moves (w w' : ConnectionWorker) : Prop :=
  ∃ more, w'.reports = w.reports ++ more ∧
    ((∀ r ∈ more, r.Sound) → w.Agrees → w'.Agrees) ∧ ((∃ r ∈ more, ¬ r.Sound) → ¬ w'.Agrees)

variable {w w' : ConnectionWorker}

theorem quiet_refl (w : ConnectionWorker) : w.Quiet w := ⟨rfl, id⟩

theorem quiet_trans (a b c : ConnectionWorker) (h : a.Quiet b) (h' : b.Quiet c) : a.Quiet c :=
  ⟨h'.1.trans h.1, fun ha => h'.2 (h.2 ha)⟩

theorem quiet_of_ne (hreports : w'.reports = w.reports) (hne : w'.state ≠ .running) : w.Quiet w' :=
  ⟨hreports, fun _ hrunning => absurd hrunning hne⟩

theorem Quiet.moves (a b : ConnectionWorker) (h : a.Quiet b) : a.Moves b :=
  ⟨[], by rw [h.1, List.append_nil], fun _ => h.2, nofun⟩

theorem Quiet.trans_moves (a b c : ConnectionWorker) (h : a.Quiet b) (h' : b.Moves c) : a.Moves c := by
  obtain ⟨more, hmore, hsound, hunsound⟩ := h'
  exact ⟨more, by rw [hmore, h.1], fun hm ha => hsound hm (h.2 ha), hunsound⟩

theorem moves_refl (w : ConnectionWorker) : w.Moves w := Quiet.moves w w (quiet_refl w)

/-- The report that puts the worker in a state must be sound just when it is running. -/
theorem moves_report {r : Report} (hreports : w'.reports = w.reports ++ [r])
    (hsound : r.Sound ↔ w'.Agrees) : w.Moves w' := by
  refine ⟨[r], hreports, fun h _ => hsound.1 (h r List.mem_cons_self), ?_⟩
  rintro ⟨r', hr', hnot⟩
  rw [List.mem_singleton.1 hr'] at hnot
  exact fun h => hnot (hsound.2 h)

/-! ## The operations -/

theorem quiet_bind {α β : Type} {m : WorkerProg α} {f : α → WorkerProg β} {s : ConnectionWorker}
    {Q : Outcome PyError β → ConnectionWorker → Prop}
    (hm : (m s).Moves Quiet (fun r s' => match r with
      | .ok a => (f a s').Moves Quiet Q s'
      | .error e => Q (.error e) s') s) : ((m >>= f) s).Moves Quiet Q s := by
  refine stretches_bind (fun _ _ h => h) quiet_trans quiet_refl (stretches_mono ?_ hm)
  rintro (e | a) s' - h <;> exact h

theorem moves_bind {α β : Type} {m : WorkerProg α} {f : α → WorkerProg β} {s : ConnectionWorker}
    (hm : (m s).Moves Quiet (fun r s' => match r with
      | .ok a => (f a s').Moves Moves (fun _ _ => True) s'
      | .error _ => True) s) : ((m >>= f) s).Moves Moves (fun _ _ => True) s := by
  refine stretches_bind Quiet.moves Quiet.trans_moves moves_refl (stretches_mono ?_ hm)
  rintro (e | a) s' - h <;> exact h

section
variable (clock : ℕ → DateTime)

/-- After a connect of the driver, the driver is connected. -/
theorem stretches_connectOnce (s : ConnectionWorker) :
    (connectOnce s).Moves Quiet (fun r s' => r = .ok () → s'.connected = true) s := by
  refine quiet_bind ⟨⟨⟨rfl, id⟩, trivial⟩, ?_⟩
  refine quiet_bind (stretches_await (C := WorkerCalls) quiet_refl .connect trivial ?_)
  rintro (e | _) s' - -
  · exact nofun
  · exact ⟨⟨⟨rfl, fun _ _ => rfl⟩, trivial⟩, fun _ => rfl⟩

theorem stretches_retrySleep (d : ℚ) (s : ConnectionWorker) :
    (retrySleep d s).Moves Quiet (fun _ _ => True) s :=
  stretches_await (C := WorkerCalls) quiet_refl (.sleep d) trivial fun _ _ _ _ => trivial

/-- A disconnect of the driver begins in a state that is not running. -/
theorem stretches_disconnecting {s : ConnectionWorker} (hne : s.state ≠ .running)
    {Q : Outcome PyError (Except PyError Unit) → ConnectionWorker → Prop} (hQ : ∀ r s', Q r s') :
    ((Prog.attempt driverDisconnect) s).Moves Quiet Q s := by
  refine ⟨⟨quiet_of_ne rfl hne, trivial⟩, ?_⟩
  rintro ((e | _) | _) s' - - <;> exact ⟨⟨quiet_refl s', trivial⟩, hQ _ s'⟩

theorem stretches_disconnectAfterCancellation (k : ℕ) (s : ConnectionWorker) :
    (disconnectAfterCancellation clock k s).Moves Quiet (fun _ _ => True) s := by
  refine quiet_bind ⟨⟨quiet_of_ne rfl (by nofun), trivial⟩, ?_⟩
  refine quiet_bind (stretches_disconnecting (by nofun) ?_)
  rintro (e | e | _) s'
  · trivial
  · exact ⟨⟨quiet_of_ne rfl (by nofun), trivial⟩, trivial⟩
  · exact ⟨⟨quiet_of_ne rfl (by nofun), trivial⟩, trivial⟩

/-- The handler of a cancellation is as quiet as what it handles. -/
theorem stretches_cleaned {α : Type} {m : WorkerProg α} {k : ℕ} {s : ConnectionWorker}
    {Q : Outcome PyError α → ConnectionWorker → Prop} (hm : (m s).Moves Quiet Q s)
    (herror : ∀ e s', Q (.error e) s') :
    ((Prog.onCancelled m (disconnectAfterCancellation clock k)) s).Moves Quiet Q s := by
  refine stretches_onCancelled quiet_refl quiet_trans (stretches_mono ?_ hm)
  rintro ((e | _) | a) s' - hQ
  · exact hQ
  · refine stretches_mono ?_ (stretches_disconnectAfterCancellation clock k s')
    rintro (e | _) s'' - - <;> exact herror _ s''
  · exact hQ

theorem stretches_connect (config : WorkerConfig) (jitter : ℕ → ℚ) (s : ConnectionWorker) :
    (connect config clock jitter s).Moves Quiet (fun _ _ => True) s := by
  refine quiet_bind ⟨⟨quiet_of_ne rfl (by nofun), trivial⟩, ?_⟩
  refine quiet_bind ?_
  refine stretches_cleaned clock (stretches_attempt quiet_refl quiet_trans ?_) fun _ _ => trivial
  refine stretches_runWithRetry quiet_refl quiet_trans (fun s _ => stretches_connectOnce s)
    (fun d s _ => stretches_retrySleep d s) ?_ ?_ ?_ trivial
  · exact fun _ _ _ _ _ => ⟨⟨rfl, id⟩, trivial⟩
  · exact fun a o s' _ hconnected => ⟨⟨⟨rfl, fun _ _ => hconnected rfl⟩, trivial⟩, trivial⟩
  · rintro (e | _) s' -
    · exact ⟨⟨quiet_of_ne rfl (by nofun), trivial⟩, trivial⟩
    · trivial

theorem stretches_disconnect (s : ConnectionWorker) :
    (disconnect clock s).Moves Quiet (fun _ _ => True) s := by
  refine quiet_bind ⟨⟨quiet_of_ne rfl (by nofun), trivial⟩, ?_⟩
  refine quiet_bind ?_
  refine stretches_cleaned clock (stretches_disconnecting (by nofun) ?_) fun _ _ => trivial
  rintro (e | e | _) s'
  · trivial
  · exact ⟨⟨quiet_of_ne rfl (by nofun), trivial⟩, trivial⟩
  · exact ⟨⟨quiet_of_ne rfl (by nofun), trivial⟩, trivial⟩

variable (config : WorkerConfig)

theorem stretches_readResults (jitter : ℕ → ℚ) (group : TagGroupConfig) (tags : List TagConfig)
    (s : ConnectionWorker) :
    (readResults config clock jitter group tags s).Moves Quiet (fun _ _ => True) s := by
  refine quiet_bind ?_
  refine stretches_cleaned clock (stretches_attempt quiet_refl quiet_trans ?_) fun _ _ => trivial
  refine stretches_runWithRetry quiet_refl quiet_trans (P := fun _ _ => True) (fun s _ => ?_)
    (fun d s _ => stretches_retrySleep d s) ?_ ?_ ?_ trivial
  · exact stretches_await (C := WorkerCalls) quiet_refl (.read _) trivial fun _ _ _ _ => trivial
  · exact fun _ _ _ _ _ => ⟨⟨rfl, id⟩, trivial⟩
  · exact fun a o s' _ _ => ⟨⟨quiet_refl s', trivial⟩, trivial⟩
  · rintro (e | _) s' -
    · refine quiet_bind ⟨⟨quiet_of_ne rfl (by nofun), trivial⟩, ?_⟩
      refine quiet_bind (stretches_conclude quiet_refl _ trivial ?_)
      cases failureResults e clock tags 2 with
      | error e' => trivial
      | ok results => exact ⟨⟨quiet_refl _, trivial⟩, trivial⟩
    · trivial

theorem recordPollMetrics_reports (execution : PollExecution) (w : ConnectionWorker) :
    (recordPollMetrics execution w).reports = w.reports ∧
      (recordPollMetrics execution w).connected = w.connected := by
  unfold recordPollMetrics
  split_ifs <;> exact ⟨rfl, rfl⟩

theorem setPolled_reports (now : DateTime) (status : PollStatus) (w : ConnectionWorker) :
    (setPolled now status w).reports = w.reports ∧
      (setPolled now status w).connected = w.connected := by
  cases status <;> exact ⟨rfl, rfl⟩

/-- The worker is running after a poll that has succeeded. -/
theorem moves_polled {config : WorkerConfig} {group : TagGroupConfig} {tags : List TagConfig}
    {executionId : Stripped} {startedAt finishedAt now : DateTime} {results : List TagResult}
    {execution : PollExecution}
    (h : pollExecution config group tags executionId startedAt finishedAt results = .ok execution)
    (w : ConnectionWorker) :
    w.Moves (setPolled now execution.status (recordPollMetrics execution
      { w with reports := w.reports ++ [.poll results w.connected] })) := by
  obtain ⟨hreports, hconnected⟩ := setPolled_reports now execution.status (recordPollMetrics execution
    { w with reports := w.reports ++ [.poll results w.connected] })
  obtain ⟨hreports', hconnected'⟩ := recordPollMetrics_reports execution
    { w with reports := w.reports ++ [.poll results w.connected] }
  refine moves_report (hreports.trans hreports') ?_
  rw [Agrees, setPolled_running_iff, hconnected, hconnected', (pollExecution_eq_ok h).2.1,
    Report.Sound]

theorem stretches_pollGroup (jitter : ℕ → ℚ) (group : TagGroupConfig) (tags : List TagConfig)
    (executionId : Stripped) (s : ConnectionWorker) :
    (pollGroup config clock jitter group tags executionId s).Moves Moves (fun _ _ => True) s := by
  refine moves_bind (stretches_conclude quiet_refl _ trivial ?_)
  cases validatePollInputs config.connection group tags with
  | error e => trivial
  | ok _ =>
    refine moves_bind ⟨⟨⟨rfl, id⟩, trivial⟩, ?_⟩
    refine moves_bind (stretches_mono ?_ (stretches_readResults clock config jitter group tags _))
    rintro (e | ⟨results, k⟩) s' - -
    · trivial
    · refine moves_bind (stretches_conclude quiet_refl _ trivial ?_)
      cases hexecution : pollExecution config group tags executionId (clock 0) (clock k) results with
      | error e => trivial
      | ok execution => exact ⟨⟨moves_polled hexecution s', trivial⟩, trivial⟩

theorem stretches_healthCheck (s : ConnectionWorker) :
    (healthCheck config clock s).Moves Moves (fun _ _ => True) s := by
  refine moves_bind ?_
  refine stretches_cleaned clock (stretches_attempt quiet_refl quiet_trans ?_) fun _ _ => trivial
  refine stretches_await (C := WorkerCalls) quiet_refl .healthCheck trivial ?_
  rintro ((e | _) | healthy) s' - -
  · exact ⟨⟨Quiet.moves _ _ (quiet_of_ne rfl (by nofun)), trivial⟩, trivial⟩
  · trivial
  · cases healthy with
    | false => exact ⟨⟨moves_report rfl (iff_of_true nofun nofun), trivial⟩, trivial⟩
    | true => exact ⟨⟨moves_report rfl ⟨fun h _ => h rfl, fun h _ => h rfl⟩, trivial⟩, trivial⟩

end

/-! ## Runs -/

theorem stretches_run (config : WorkerConfig) (op : WorkerOperation) (s : ConnectionWorker) :
    (op.run config s).Moves Moves (fun _ _ => True) s := by
  cases op with
  | connect clock jitter => exact stretches_le Quiet.moves (stretches_connect clock config jitter s)
  | disconnect clock => exact stretches_le Quiet.moves (stretches_disconnect clock s)
  | pollGroup clock jitter group tags executionId =>
    exact stretches_mapResult (stretches_pollGroup clock config jitter group tags executionId s)
  | healthCheck clock => exact stretches_mapResult (stretches_healthCheck clock config s)

/-- The operations of a worker in turns, each going on with the given answers. -/
abbrev WorkerTasks := Tasks WorkerCalls ConnectionWorker PyError Unit WorkerOperation

/-- The operations move the worker, and rely on nothing. -/
def workerDiscipline : Discipline ConnectionWorker PyError Unit WorkerOperation where
  inv _ := True
  rely _ _ _ := True
  move _ := Moves
  fresh _ _ := True
  post _ _ _ _ := True
  rely_refl _ _ := trivial
  rely_trans _ _ _ _ _ _ := trivial
  rely_move _ _ _ _ _ _ := trivial
  fresh_move _ _ _ _ _ _ _ := trivial
  post_rely _ _ _ _ _ _ _ := trivial

theorem keeps_run (config : WorkerConfig) :
    Tasks.Keeps workerDiscipline fun _ => WorkerOperation.run config :=
  fun _ op s _ _ => stretches_run config op s

section
variable {config : WorkerConfig} {es : List (Turn WorkerCalls PyError WorkerOperation)}
  {s t : WorkerTasks}

theorem reports_play (htame : s.Tame workerDiscipline)
    (hplay : s.play (fun _ => WorkerOperation.run config) es = some t) :
    ∃ more, t.state.reports = s.state.reports ++ more := by
  induction es generalizing s with
  | nil =>
    cases hplay
    exact ⟨[], (List.append_nil _).symm⟩
  | cons e es ih =>
    rw [Tasks.play, Option.bind_eq_some_iff] at hplay
    obtain ⟨s', hs, hplay⟩ := hplay
    obtain ⟨htame', i, more, hmore, -⟩ := Tasks.tame_step (keeps_run config) htame hs
    obtain ⟨more', hmore'⟩ := ih htame' hplay
    exact ⟨more ++ more', by rw [hmore', hmore, List.append_assoc]⟩

/-- The worker agrees with its driver along a run just when what it reports is sound. -/
theorem agrees_play_iff (htame : s.Tame workerDiscipline) (hagrees : s.state.Agrees)
    (hplay : s.play (fun _ => WorkerOperation.run config) es = some t) {more : List Report}
    (hmore : t.state.reports = s.state.reports ++ more) :
    (∀ pre u, pre <+: es → s.play (fun _ => WorkerOperation.run config) pre = some u → u.state.Agrees) ↔
      ∀ r ∈ more, r.Sound := by
  induction es generalizing s more with
  | nil =>
    cases hplay
    rw [List.self_eq_append_right.1 hmore]
    refine iff_of_true (fun pre u hpre hu => ?_) nofun
    rw [List.prefix_nil.1 hpre] at hu
    cases hu
    exact hagrees
  | cons e es ih =>
    rw [Tasks.play, Option.bind_eq_some_iff] at hplay
    obtain ⟨s', hs, hplay⟩ := hplay
    obtain ⟨htame', i, first, hfirst, hsound, hunsound⟩ :=
      Tasks.tame_step (keeps_run config) htame hs
    obtain ⟨rest, hrest⟩ := reports_play htame' hplay
    have hsplit : more = first ++ rest := by
      rw [hrest, hfirst, List.append_assoc, List.append_cancel_left_eq] at hmore
      exact hmore.symm
    rw [Tasks.forall_play_cons hs, and_iff_right hagrees, hsplit, List.forall_mem_append]
    constructor
    · intro h
      have hagrees' := h [] s' List.nil_prefix rfl
      refine ⟨fun r hr => ?_, (ih htame' hagrees' hplay hrest).1 h⟩
      by_contra hnot
      exact hunsound ⟨r, hr, hnot⟩ hagrees'
    · rintro ⟨hall, hall'⟩
      exact (ih htame' (hsound hall hagrees) hplay hrest).2 hall'

end

/-- The worker before its first operation. -/
def noTasks : WorkerTasks := ⟨init, []⟩

theorem tame_noTasks : noTasks.Tame workerDiscipline :=
  ⟨trivial, fun _ _ => trivial, fun i op t ht => by cases ht⟩

/-- **A worker agrees with its driver** at every point of a run just when no poll and no
    health check of the run reports success while the driver is not connected. -/
theorem worker_agrees_iff {config : WorkerConfig}
    {es : List (Turn WorkerCalls PyError WorkerOperation)} {t : WorkerTasks}
    (hplay : noTasks.play (fun _ => WorkerOperation.run config) es = some t) :
    (∀ pre u, pre <+: es → noTasks.play (fun _ => WorkerOperation.run config) pre = some u →
      u.state.Agrees) ↔ ∀ r ∈ t.state.reports, r.Sound :=
  agrees_play_iff tame_noTasks nofun hplay rfl

/-- Between its operations, such a worker is RUNNING only while its driver is connected. -/
theorem connected_of_idle {config : WorkerConfig}
    {es : List (Turn WorkerCalls PyError WorkerOperation)} {t : WorkerTasks}
    (hplay : noTasks.play (fun _ => WorkerOperation.run config) es = some t)
    (hsound : ∀ r ∈ t.state.reports, r.Sound) :
    ∀ pre u, pre <+: es → noTasks.play (fun _ => WorkerOperation.run config) pre = some u →
      u.Idle → u.state.state = .running → u.state.connected = true :=
  fun pre u hpre hu _ => (agrees_play_iff tame_noTasks nofun hplay rfl).2 hsound pre u hpre hu

/-! ## Workers that run without their driver -/

/-- The driver does what it is asked, and reads one tag. -/
def goodAnswer : (c : WorkerCall) → Outcome PyError c.Res
  | .connect | .disconnect | .sleep _ => .ok ()
  | .read _ => .ok (makePollResult pollOne (.boolean true)).results
  | .healthCheck => .ok true

/-- The driver is not connected. -/
def refusal : (c : WorkerCall) → Outcome PyError c.Res
  | .connect | .disconnect | .sleep _ => .ok ()
  | .read _ => .error (.error ⟨.transientCommunicationError, "TransientCommunicationError",
      "Mock driver is not connected.", .text "mock_not_connected"⟩)
  | .healthCheck => .ok false

/-- A poll is in flight while the worker is disconnected. -/
def pollDuringDisconnect : List (Turn WorkerCalls PyError WorkerOperation) :=
  [.start (.connect fixedClock fun _ => defaultRandom), .resume 0 goodAnswer,
    .start (.pollGroup fixedClock (fun _ => defaultRandom) fastGroupConfig [temperatureConfig] pollOne),
    .start (.disconnect fixedClock), .resume 2 goodAnswer, .resume 1 goodAnswer]

/-- No tag is polled, before the first connect; the read is tried again after a pause. -/
def pollOfNoTag : List (Turn WorkerCalls PyError WorkerOperation) :=
  [.start (.pollGroup fixedClock (fun _ => defaultRandom) fastGroupConfig [] pollOne),
    .resume 0 refusal, .resume 0 refusal, .resume 0 refusal]

theorem disconnected_worker_runs :
    (∃ t, noTasks.play (fun _ => WorkerOperation.run fakeConfig) pollDuringDisconnect = some t ∧
      t.Idle ∧ ¬ t.state.Agrees) ∧
    ∃ t, noTasks.play (fun _ => WorkerOperation.run fakeConfig) pollOfNoTag = some t ∧
      t.Idle ∧ ¬ t.state.Agrees := by
  have hend : ∀ es ∈ [pollDuringDisconnect, pollOfNoTag],
      (noTasks.play (fun _ => WorkerOperation.run fakeConfig) es).any (fun t =>
        t.tasks.all (·.2.ended.isSome) && (t.state.state = .running && !t.state.connected)) = true := by
    simp only [List.forall_mem_cons]
    exact ⟨by decide +kernel, by decide +kernel, nofun⟩
  have hruns : ∀ es ∈ [pollDuringDisconnect, pollOfNoTag],
      ∃ t, noTasks.play (fun _ => WorkerOperation.run fakeConfig) es = some t ∧ t.Idle ∧
        ¬ t.state.Agrees := by
    intro es hes
    obtain ⟨t, hplay, ht⟩ := (Option.any_eq_true _ _).1 (hend es hes)
    simp only [Bool.and_eq_true, List.all_eq_true, decide_eq_true_eq, Bool.not_eq_true'] at ht
    obtain ⟨hidle, hrunning, hconnected⟩ := ht
    refine ⟨t, hplay, hidle, fun hagrees => ?_⟩
    rw [hagrees hrunning] at hconnected
    cases hconnected
  exact ⟨hruns _ List.mem_cons_self, hruns _ (List.mem_cons_of_mem _ List.mem_cons_self)⟩

/-- The driver is connected when the poll ends. -/
def pollBeforeDisconnect : List (Turn WorkerCalls PyError WorkerOperation) :=
  [.start (.connect fixedClock fun _ => defaultRandom), .resume 0 goodAnswer,
    .start (.pollGroup fixedClock (fun _ => defaultRandom) fastGroupConfig [temperatureConfig] pollOne),
    .resume 1 goodAnswer, .start (.disconnect fixedClock), .resume 2 goodAnswer]

theorem connected_worker_agrees :
    ∃ t, noTasks.play (fun _ => WorkerOperation.run fakeConfig) pollBeforeDisconnect = some t ∧
      ∀ pre u, pre <+: pollBeforeDisconnect →
        noTasks.play (fun _ => WorkerOperation.run fakeConfig) pre = some u → u.state.Agrees := by
  have hend : (noTasks.play (fun _ => WorkerOperation.run fakeConfig) pollBeforeDisconnect).any (fun t =>
      decide (∀ r ∈ t.state.reports, r.Sound)) = true := by
    decide +kernel
  obtain ⟨t, hplay, ht⟩ := (Option.any_eq_true _ _).1 hend
  exact ⟨t, hplay, (worker_agrees_iff hplay).2 (of_decide_eq_true ht)⟩

end ConnectionWorker

end PlcGateway
