/-
  Scripts: what happens to one process, event by event.

  `Process.play` computes the run of a script, and `play_sound` makes a reachable
  system of it.  Concrete runs are evaluated this way.
-/
import PlcGateway.Persistence.Executor

namespace PlcGateway

open Coroutine Relation Calendar

/-- What happens next. -/
inductive Event where
  | put (item : WorkerPollResult)
  | stop
  | getTakes
  | enter
  | waited (stopDone : Bool)
  | gathered
  | start
  | execute (now : DateTime)
  | fail (e : PyError)
  | finish
  | deliver
  | timeout

namespace Process
variable (F : Surroundings) (mayTimeOut : Submission → Bool)

/-- The process after an event, if the event can happen. -/
def next (p : Process) (st : Stores) : Event → Option (Process × Stores)
  | .put item => do
    let s := p.config.state
    let queue ← s.queue.putNowait item
    let s' := { s with queue, log := { s.log with puts := s.log.puts ++ [item] } }
    return ({ p with config := { p.config with state := s' } }, st)
  | .stop =>
    let s' := { p.config.state with stopRequested := true }
    some ({ p with config := { p.config with state := s' } }, st)
  | .getTakes =>
    let s := p.config.state
    match s.getTask, s.queue.getNowait with
    | some .created, some (item, queue) =>
      let s' := { s with
        queue, getTask := some (.holding item), log := { s.log with gets := s.log.gets ++ [item] } }
      some ({ p with config := { p.config with state := s' } }, st)
    | _, _ => none
  | .enter =>
    match p.config.control with
    | .boundary => some
        (p.goOn (.settle p.config.history (Writer.runIteration p.cfg p.config.state)), st)
    | _ => none
  | .waited stopDone =>
    match p.config.control with
    | .suspended (.wait t) k =>
      if p.config.state.getTask ≠ some .created ∧ (stopDone → p.config.state.stopRequested) then
        some (p.goOn (.settle (C := WriterCalls) (p.config.history ++ [⟨.wait t, .ok stopDone⟩])
          (k (.ok stopDone) p.config.state)), st)
      else none
    | _ => none
  | .gathered =>
    match p.config.control with
    | .suspended (.gather held) k => some (p.goOn (.settle (C := WriterCalls)
        (p.config.history ++ [⟨.gather held, .ok ()⟩]) (k (.ok ()) p.config.state)), st)
    | _ => none
  | .start =>
    match p.awaited with
    | some ⟨job, late, .queued⟩ =>
      if p.busy < p.threads then some ({ p with awaited := some ⟨job, late, .running⟩ }, st)
      else none
    | _ => none
  | .execute now =>
    match p.awaited with
    | some ⟨job, late, .running⟩ =>
      let (r, st') := job.execute p.maxItems now st
      if F.result job r then some ({ p with awaited := some ⟨job, late, .executed r⟩ }, st')
      else none
    | _ => none
  | .fail e =>
    match p.awaited with
    | some ⟨job, late, .running⟩ =>
      if F.result job (.error e) then
        some ({ p with awaited := some ⟨job, late, .executed (.error e)⟩ }, st)
      else none
    | _ => none
  | .finish =>
    match p.awaited with
    | some ⟨job, late, .executed r⟩ =>
      some ({ p with awaited := some ⟨job, late, .returned r⟩ }, st)
    | _ => none
  | .deliver =>
    match p.config.control, p.awaited with
    | .suspended (.toThread job t) k, some ⟨job', _, .returned r⟩ =>
      if h : job' = job then
        let o : Outcome PyError job.Res := jobOutcome (h ▸ r)
        some (p.goOn (.settle (C := WriterCalls) (p.config.history ++ [⟨.toThread job t, o⟩])
          (k o p.config.state)), st)
      else none
    | _, _ => none
  | .timeout =>
    match p.config.control, p.awaited with
    | .suspended (.toThread job t) k, some c =>
      if c.job = job ∧ mayTimeOut c then
        some ((p.giveUp c).goOn (.settle (C := WriterCalls)
          (p.config.history ++ [⟨.toThread job t, .error (.error .timeout)⟩])
          (k (.error (.error .timeout)) p.config.state)), st)
      else none
    | _, _ => none

/-- The writer is between two iterations of its loop. -/
def atBoundary (p : Process) : Bool :=
  match p.config.control with
  | .boundary => true
  | _ => false

theorem control_of_atBoundary {p : Process} (h : p.atBoundary = true) : p.config.control = .boundary := by
  unfold atBoundary at h
  split at h
  · assumption
  · cases h

/-- The process after a script, in which only `items` are put. -/
def play (items : List WorkerPollResult) : List Event → Process × Stores → Option (Process × Stores)
  | [], x => some x
  | event :: script, (p, st) => do
    let y ← p.next F mayTimeOut st event
    if y.1.config.state.log.puts.all (· ∈ items) then play items script y else none

variable {F mayTimeOut} {p : Process} {st : Stores} {y : Process × Stores}

/-- An event that happens is a step. -/
theorem next_sound (hF : ∀ c st, mayTimeOut c = true → F.timeout c st) {event : Event}
    (h : p.next F mayTimeOut st event = some y) : ProcessStep F (p, st) y := by
  cases event with
  | put item =>
    simp only [next] at h
    cases hq : p.config.state.queue.putNowait item with
    | none => rw [hq] at h; cases h
    | some queue => rw [hq] at h; cases h; exact .env (.put hq)
  | stop => cases h; exact .env .stop
  | getTakes =>
    simp only [next] at h
    split at h
    · next item queue hg hq => cases h; exact .env (.getTakes (.inl hg) hq)
    · cases h
  | enter =>
    simp only [next] at h
    split at h
    · next hb => cases h; exact .enter hb
    · cases h
  | waited stopDone =>
    simp only [next] at h
    split at h
    · next t k hc =>
      split_ifs at h with ha
      cases h
      exact .resume (c := .wait t) hc (fun _ _ hw => by cases hw) ha
    · cases h
  | gathered =>
    simp only [next] at h
    split at h
    · next held k hc =>
      cases h
      exact .resume (c := .gather held) hc (fun _ _ hw => by cases hw) (.inl rfl)
    · cases h
  | start =>
    simp only [next] at h
    split at h
    · next job late haw =>
      split_ifs at h with hlt
      cases h
      exact .start haw hlt
    · cases h
  | execute now =>
    simp only [next] at h
    split at h
    · next job late haw =>
      split_ifs at h with hr
      cases h
      exact .execute haw (.done now) hr
    · cases h
  | fail e =>
    simp only [next] at h
    split at h
    · next job late haw =>
      split_ifs at h with hr
      cases h
      exact .execute haw (.failed e) hr
    · cases h
  | finish =>
    simp only [next] at h
    split at h
    · next job late r haw => cases h; exact .finish haw
    · cases h
  | deliver =>
    simp only [next] at h
    split at h
    · next job t k job' late r hc haw =>
      split_ifs at h with hj
      subst hj
      cases h
      exact .deliver hc haw
    · cases h
  | timeout =>
    simp only [next] at h
    split at h
    · next job t k c hc haw =>
      obtain ⟨job', late, phase⟩ := c
      split_ifs at h with hj
      obtain ⟨rfl, hm⟩ := hj
      cases h
      exact .timeout hc haw (hF _ _ hm)
    · cases h

/-- **A script that can be played leads to a reachable system.** -/
theorem play_sound {P : WorkerPollResult → Prop} {db : Database} {items : List WorkerPollResult}
    (hF : ∀ c st, mayTimeOut c = true → F.timeout c st) (hitems : ∀ r ∈ items, P r)
    {script : List Event} (hp : System.Reachable F P db ⟨st, [p]⟩)
    (h : play F mayTimeOut items script (p, st) = some y) :
    System.Reachable F P db ⟨y.2, [y.1]⟩ := by
  induction script generalizing p st with
  | nil => cases h; exact hp
  | cons event script ih =>
    rw [play] at h
    cases hn : p.next F mayTimeOut st event with
    | none => rw [hn] at h; cases h
    | some z =>
      rw [hn] at h
      simp only [Option.bind_eq_bind, Option.bind_some] at h
      split_ifs at h with hputs
      rw [List.all_eq_true] at hputs
      obtain ⟨p', st'⟩ := z
      refine ih ?_ h
      refine hp.step (@SystemStep.process _ _ _ _ _ [] [] (next_sound hF hn)) fun q hq r hr => ?_
      rw [List.mem_singleton.1 hq] at hr
      exact hitems r (of_decide_eq_true (hputs r hr))

/-- The system with one writer that has not begun. -/
theorem reachable_spawn (F : Surroundings) (P : WorkerPollResult → Prop) (db : Database)
    (cfg : WriterConfig) (maxItems threads : ℕ+) :
    System.Reachable F P db ⟨.fresh db, [.spawn cfg maxItems threads testState]⟩ := by
  refine System.Reachable.init.step (@SystemStep.spawn _ _ [] _ _ _ 1 _ rfl) fun p hp r hr => ?_
  rw [List.mem_singleton.1 hp] at hr
  cases hr

end Process

/-! ## Scripts of the tests -/

def testItem : WorkerPollResult := makePollResult pollOne (.boolean true)

/-- A thread runs the submitted job, and hands its result over. -/
def runJob : List Event := [.start, .execute timestamp, .finish, .deliver]

/-- The writer finds no spooled entry, takes the item and submits its batch. -/
def takeItem : List Event :=
  [.put testItem, .enter] ++ runJob ++ [.getTakes, .waited false, .gathered]

end PlcGateway
