/-
  The age of the pending batch.

  The flush interval is waited for anew after every item, so that items that keep
  coming hold back the oldest one.  A batch is flushed in time exactly if it fills up,
  or the writer is stopped, within the interval after its first item, or if all its
  items came at one instant.
-/
import PlcGateway.Persistence.WriterTime
import Mathlib.Algebra.Order.Archimedean.Basic
import Mathlib.Data.Rat.Floor
import Mathlib.Tactic.Linarith

namespace PlcGateway

open Coroutine

/-- A writer in time, with the instants at which the items of its batch were appended. -/
structure TimedWriter (τ : Type) where
  state : WriterState
  timeline : Timeline
  storage : τ
  since : List ℚ

namespace TimedWriter
variable {τ : Type} (cfg : WriterConfig) (storage : Storage τ)

/-- A round of the loop of `run`.  What it appends, it appends in the end. -/
def round (w : TimedWriter τ) : Outcome PyError Bool × TimedWriter τ :=
  let (r, state, timeline, y) :=
    (Writer.runIteration cfg w.state).exec (timedAnswers storage) (w.timeline, w.storage)
  (r, { state, timeline, storage := y,
        since := (w.since ++ [timeline.now]).take state.pendingBatch.length })

/-- The loop after `n` rounds; a loop that has been left stays so. -/
def rounds : ℕ → TimedWriter τ → Outcome PyError Bool × TimedWriter τ
  | 0, w => (.ok true, w)
  | n + 1, w => match w.round cfg storage with
    | (.ok true, w') => rounds n w'
    | left => left

/-- In every round, no item has been in the batch for longer than the flush interval
    when the round ends, which is when it flushes. -/
def InTime (w : TimedWriter τ) : Prop :=
  ∀ n w', w.rounds cfg storage n = (.ok true, w') →
    ∀ t ∈ w'.since, (w'.round cfg storage).2.timeline.now ≤ t + cfg.flushIntervalS

end TimedWriter

/-! ## Bursts -/

/-- All the instants are the same. -/
def OneInstant (since : List ℚ) : Prop := ∀ t ∈ since, ∀ u ∈ since, t = u

/-- What remains of a batch: nothing of a full one. -/
def remaining (batchSize : ℕ) (since : List ℚ) : List ℚ :=
  if batchSize ≤ since.length then [] else since

/-- Every burst is prompt.  A burst goes on with an input that comes before the flush
    interval after its last item is over, until the batch is full.  It is prompt if its
    inputs come within the interval after its first item, and if its items came at one
    instant when it ends by the interval. -/
def Prompt (flushIntervalS : ℚ) (batchSize : ℕ) : List ℚ → List TimedInput → Prop
  | since, [] => OneInstant since
  | since, e :: inputs =>
    let goesOn := ∀ t ∈ since.getLast?, e.Before (t + flushIntervalS)
    let batch := if goesOn then since ++ [e.instant] else [e.instant]
    (if goesOn then ∀ t ∈ since, e.instant ≤ t + flushIntervalS else OneInstant since) ∧
      match e.input with
      | .stop => True
      | .arrives _ => Prompt flushIntervalS batchSize (remaining batchSize batch) inputs

instance (since : List ℚ) : Decidable (OneInstant since) :=
  inferInstanceAs (Decidable (∀ t ∈ since, ∀ u ∈ since, t = u))

instance decidablePrompt (flushIntervalS : ℚ) (batchSize : ℕ) :
    ∀ since inputs, Decidable (Prompt flushIntervalS batchSize since inputs)
  | since, [] => inferInstanceAs (Decidable (OneInstant since))
  | since, e :: inputs => by
    have hnext := fun since => decidablePrompt flushIntervalS batchSize since inputs
    unfold Prompt
    cases e.input <;> infer_instance

/-! ## Rounds -/

namespace TimedWriter
variable {τ : Type} {cfg : WriterConfig} {storage : Storage τ} {w w' : TimedWriter τ}

/-- The writer stands between two rounds, and has appended its last item just now. -/
structure Ready (cfg : WriterConfig) (w : TimedWriter τ) : Prop where
  between : Writer.Between cfg w.state
  length : w.since.length = w.state.pendingBatch.length
  last : ∀ t ∈ w.since.getLast?, t = w.timeline.now
  past : ∀ t ∈ w.since, t ≤ w.timeline.now
  ordered : w.timeline.Ordered

/-- What a round does to the batch and the inputs. -/
inductive Moves (cfg : WriterConfig) (storage : Storage τ) (w w' : TimedWriter τ) : Prop
  | replays : Writer.FetchFinds cfg storage w.state w.storage → w.since = [] →
      w'.timeline = w.timeline → w'.since = [] → w'.state.stopRequested = false → Moves cfg storage w w'
  | timesOut : (∀ e ∈ w.timeline.inputs.head?, ¬ e.Before (w.timeline.now + cfg.flushIntervalS)) →
      w'.timeline = { w.timeline with now := w.timeline.now + cfg.flushIntervalS } →
      w'.since = [] → w'.state.stopRequested = false → Moves cfg storage w w'
  | stops {e : TimedInput} {inputs : List TimedInput} : w.timeline.inputs = e :: inputs →
      e.Before (w.timeline.now + cfg.flushIntervalS) → e.input = .stop →
      w'.timeline = ⟨e.instant, inputs⟩ → w'.since = [] → w'.state.stopRequested = true →
      Moves cfg storage w w'
  | takes {e : TimedInput} {inputs : List TimedInput} {item : WorkerPollResult} :
      w.timeline.inputs = e :: inputs → e.Before (w.timeline.now + cfg.flushIntervalS) →
      e.input = .arrives item → w'.timeline = ⟨e.instant, inputs⟩ →
      w'.since = remaining cfg.batchSize (w.since ++ [e.instant]) →
      w'.state.stopRequested = false → Moves cfg storage w w'

theorem ordered_timesOut {x : Timeline} {d : ℚ} (hx : x.Ordered) (hle : x.now ≤ d)
    (hnone : ∀ e ∈ x.inputs.head?, ¬ e.Before d) : Timeline.Ordered { x with now := d } := by
  obtain ⟨now, inputs⟩ := x
  rw [Timeline.Ordered, List.pairwise_cons] at hx ⊢
  refine ⟨fun t ht => ?_, hx.2⟩
  cases inputs with
  | nil => cases ht
  | cons e inputs =>
    have he : d ≤ e.instant := not_lt.1 fun hlt => hnone e rfl (.inl hlt)
    rw [List.map_cons, List.pairwise_cons] at hx
    rcases List.mem_cons.1 ht with rfl | ht
    · exact he
    · exact he.trans (hx.2.1 t ht)

theorem ordered_input {x : Timeline} {e : TimedInput} {inputs : List TimedInput} (hx : x.Ordered)
    (hin : x.inputs = e :: inputs) : x.now ≤ e.instant ∧ Timeline.Ordered ⟨e.instant, inputs⟩ := by
  rw [Timeline.Ordered, hin, List.map_cons, List.pairwise_cons] at hx
  exact ⟨hx.1 _ List.mem_cons_self, hx.2⟩

/-- A batch that was cleared. -/
theorem ready_of_cleared (hb : Writer.Between cfg w'.state) (hp : w'.state.pendingBatch = [])
    (hx : w'.timeline.Ordered) (hsince : w'.since = []) : Ready cfg w' where
  between := hb
  length := by rw [hsince, hp]; rfl
  last := by rw [hsince]; exact nofun
  past := by rw [hsince]; exact nofun
  ordered := hx

/-- A batch to which an item was appended, and which is not full. -/
theorem ready_of_appended (h : Ready cfg w) (hstop : w.state.stopRequested = false) {e : TimedInput}
    {inputs : List TimedInput} (item : WorkerPollResult) (log : WriterLog)
    (hin : w.timeline.inputs = e :: inputs) (hroom : w.state.pendingBatch.length + 1 < cfg.batchSize)
    (hstate : w'.state = Writer.appended item log w.state) (htime : w'.timeline = ⟨e.instant, inputs⟩)
    (hsince : w'.since = w.since ++ [e.instant]) : Ready cfg w' := by
  obtain ⟨hnow, hx⟩ := ordered_input h.ordered hin
  have hlen : (Writer.appended item log w.state).pendingBatch.length =
      w.state.pendingBatch.length + 1 := by
    rw [Writer.appended, List.length_append, List.length_singleton]
  have hgo : (Writer.appended item log w.state).stopRequested ≠ true := by
    rw [Writer.appended, hstop]
    exact Bool.false_ne_true
  refine ⟨?_, ?_, fun t ht => ?_, fun t ht => ?_, ?_⟩
  · rw [hstate]
    refine ⟨h.between.getTask, rfl, h.between.size, ?_, ?_, fun hs => absurd hs hgo⟩
    · rw [hlen]
      exact Nat.succ_le_succ h.between.unfinished
    · rw [hlen]
      exact hroom
  · rw [hsince, hstate, hlen, List.length_append, h.length, List.length_singleton]
  · rw [hsince, List.getLast?_concat, Option.mem_some_iff] at ht
    rw [htime, ht]
  · rw [htime]
    rw [hsince, List.mem_append, List.mem_singleton] at ht
    rcases ht with ht | rfl
    · exact (h.past t ht).trans hnow
    · exact le_rfl
  · rw [htime]
    exact hx

/-- What counters and the last error say does not matter. -/
theorem ready_of_still (h : Ready cfg w) {s : WriterState} (hstill : Still w.state s) :
    Ready cfg { w with state := s } := by
  have hb := Writer.between_of_still cfg h.between hstill
  obtain ⟨-, c, e, rfl⟩ := hstill
  exact ⟨hb, h.length, h.last, h.past, h.ordered⟩

/-- **What a round does.** -/
theorem round_moves (storage : Storage τ) (h : Ready cfg w) (hstop : w.state.stopRequested = false) :
    ∃ w', w.round cfg storage = (.ok true, w') ∧ Ready cfg w' ∧ Moves cfg storage w w' := by
  obtain ⟨s', x', y', hexec, hgoes⟩ :=
    Writer.exec_round_of_between cfg storage h.between hstop w.timeline w.storage
  refine ⟨⟨s', x', y', (w.since ++ [x'.now]).take s'.pendingBatch.length⟩, ?_, ?_⟩
  · rw [round, hexec]
  have hclear (hp : s'.pendingBatch = []) :
      (w.since ++ [x'.now]).take s'.pendingBatch.length = [] := by
    rw [hp, List.length_nil, List.take_zero]
  cases hgoes with
  | replays hp hfinds hstill =>
    have hb := Writer.between_of_still cfg h.between hstill
    obtain ⟨-, c, e, rfl⟩ := hstill
    have hsince : w.since = [] := by rw [← List.length_eq_zero_iff, h.length, hp]; rfl
    exact ⟨ready_of_cleared hb hp h.ordered (hclear hp),
      .replays hfinds hsince rfl (hclear hp) hstop⟩
  | @consumes s₁ _ _ hstill hc =>
    have h₁ := ready_of_still h hstill
    have hstop₁ : s₁.stopRequested = false := by
      obtain ⟨-, c, e, rfl⟩ := hstill
      exact hstop
    cases hc with
    | timesOut hnone hc =>
      have hle : w.timeline.now ≤ w.timeline.now + cfg.flushIntervalS :=
        le_add_of_nonneg_right cfg.flushInterval_pos.le
      have hb := Writer.between_of_cleared cfg h₁.between.items h₁.between.size hc
      exact ⟨ready_of_cleared hb hc.pendingBatch (ordered_timesOut h.ordered hle hnone)
        (hclear hc.pendingBatch), .timesOut hnone rfl (hclear hc.pendingBatch)
        (hc.stopRequested.trans hstop₁)⟩
    | stops hin hbefore he hc =>
      have hb := Writer.between_of_cleared cfg (s := { s₁ with stopRequested := true })
        h₁.between.items h₁.between.size hc
      exact ⟨ready_of_cleared hb hc.pendingBatch (ordered_input h.ordered hin).2
        (hclear hc.pendingBatch), .stops hin hbefore he rfl (hclear hc.pendingBatch) hc.stopRequested⟩
    | @takes e inputs item _ log hin hbefore he hs' =>
      have hlen : (w.since ++ [e.instant]).length = s₁.pendingBatch.length + 1 := by
        rw [List.length_append, List.length_singleton, ← h₁.length]
      split_ifs at hs' with hfull
      · have hb := Writer.between_of_cleared cfg (s := Writer.appended item log s₁) rfl
          h₁.between.size hs'
        have hrest : remaining cfg.batchSize (w.since ++ [e.instant]) = [] := by
          rw [remaining, if_pos (by rw [hlen]; exact hfull)]
        exact ⟨ready_of_cleared hb hs'.pendingBatch (ordered_input h.ordered hin).2
          (hclear hs'.pendingBatch), .takes hin hbefore he rfl
          ((hclear hs'.pendingBatch).trans hrest.symm) (hs'.stopRequested.trans hstop₁)⟩
      · have hall : (w.since ++ [e.instant]).take s'.pendingBatch.length = w.since ++ [e.instant] := by
          refine List.take_of_length_le ?_
          rw [hlen, hs', Writer.appended, List.length_append, List.length_singleton]
        have hrest : remaining cfg.batchSize (w.since ++ [e.instant]) = w.since ++ [e.instant] := by
          rw [remaining, if_neg (by rw [hlen]; exact hfull)]
        have hgo : s'.stopRequested = false := by
          rw [hs']
          exact hstop₁
        exact ⟨ready_of_appended h₁ hstop₁ item log hin (not_le.1 hfull) hs' rfl hall,
          .takes hin hbefore he rfl (hall.trans hrest.symm) hgo⟩

/-- A round after a stop leaves the loop. -/
theorem round_stopped (storage : Storage τ) (h : Ready cfg w) (hstop : w.state.stopRequested = true) :
    (w.round cfg storage).1 = .ok false :=
  Writer.exec_round_stopped cfg storage h.between hstop (w.timeline, w.storage)

theorem ready_of_start (cfg : WriterConfig) {maxSize : ℕ} (hmax : 0 < maxSize) {s : WriterState}
    (hs : (WriterState.init (.empty maxSize)).start = .ok s) {x : Timeline} (hx : x.Ordered) (y : τ) :
    Ready cfg ⟨s, x, y, []⟩ ∧ s.stopRequested = false := by
  rw [WriterState.start, if_neg (by exact Bool.false_ne_true)] at hs
  cases hs
  exact ⟨⟨⟨rfl, rfl, hmax, le_rfl, cfg.batchSize_pos, nofun⟩, rfl, nofun, nofun, hx⟩, rfl⟩

end TimedWriter

/-! ## Prompt bursts are flushed in time -/

section
variable {F : ℚ} {B : ℕ} {since : List ℚ} {inputs : List TimedInput} {e : TimedInput}

theorem prompt_goesOn (hgo : ∀ t ∈ since.getLast?, e.Before (t + F)) :
    Prompt F B since (e :: inputs) ↔ (∀ t ∈ since, e.instant ≤ t + F) ∧
      match e.input with
      | .stop => True
      | .arrives _ => Prompt F B (remaining B (since ++ [e.instant])) inputs := by
  rw [Prompt]
  simp only [if_pos hgo]

theorem oneInstant_nil : OneInstant [] := nofun

/-- A burst that has ended. -/
theorem prompt_ended (hend : ∀ t ∈ since.getLast?, ∀ e ∈ inputs.head?, ¬ e.Before (t + F)) :
    Prompt F B since inputs ↔ OneInstant since ∧ Prompt F B [] inputs := by
  rcases since.eq_nil_or_concat with rfl | ⟨init, t, rfl⟩
  · exact ⟨fun h => ⟨oneInstant_nil, h⟩, And.right⟩
  cases inputs with
  | nil => exact ⟨fun h => ⟨h, oneInstant_nil⟩, And.left⟩
  | cons e inputs =>
    have hlast : (init.concat t).getLast? = some t := by
      rw [List.concat_eq_append, List.getLast?_concat]
    have hstops : ¬ ∀ u ∈ (init.concat t).getLast?, e.Before (u + F) :=
      fun hgo => hend t hlast e rfl (hgo t hlast)
    have hempty : ∀ u ∈ ([] : List ℚ).getLast?, e.Before (u + F) := nofun
    rw [prompt_goesOn hempty, Prompt]
    simp only [if_neg hstops, List.nil_append]
    exact and_congr_right fun _ => ⟨fun h => ⟨nofun, h⟩, And.right⟩

end

namespace TimedWriter
variable {τ : Type} {cfg : WriterConfig} {storage : Storage τ} {w w' : TimedWriter τ}

theorem now_mem_since (h : Ready cfg w) {t : ℚ} (ht : t ∈ w.since) : w.timeline.now ∈ w.since := by
  have hlast := List.getLast?_eq_some_getLast (List.ne_nil_of_mem ht)
  rw [← h.last _ hlast]
  exact List.getLast_mem _

/-- A burst ends by a wait that times out. -/
theorem ended_of_timesOut (h : Ready cfg w)
    (hnone : ∀ e ∈ w.timeline.inputs.head?, ¬ e.Before (w.timeline.now + cfg.flushIntervalS)) :
    ∀ t ∈ w.since.getLast?, ∀ e ∈ w.timeline.inputs.head?, ¬ e.Before (t + cfg.flushIntervalS) := by
  intro t ht
  rw [h.last t ht]
  exact hnone

/-- A burst goes on with an input that ends a wait. -/
theorem goesOn_of_before (h : Ready cfg w) {e : TimedInput}
    (hbefore : e.Before (w.timeline.now + cfg.flushIntervalS)) :
    ∀ t ∈ w.since.getLast?, e.Before (t + cfg.flushIntervalS) := by
  intro t ht
  rw [h.last t ht]
  exact hbefore

/-- The writer was stopped, or what comes is prompt. -/
def Promises (cfg : WriterConfig) (w : TimedWriter τ) : Prop :=
  w.state.stopRequested = false → Prompt cfg.flushIntervalS cfg.batchSize w.since w.timeline.inputs

/-- A round flushes in time what is prompt, and what comes after it is prompt. -/
theorem promises_moves (h : Ready cfg w) (hstop : w.state.stopRequested = false)
    (hp : Promises cfg w) (hm : Moves cfg storage w w') :
    (∀ t ∈ w.since, w'.timeline.now ≤ t + cfg.flushIntervalS) ∧ Promises cfg w' := by
  have hprompt := hp hstop
  cases hm with
  | replays _ hsince htime hsince' _ =>
    rw [hsince] at hprompt ⊢
    refine ⟨nofun, fun _ => ?_⟩
    rw [hsince', htime]
    exact hprompt
  | timesOut hnone htime hsince' _ =>
    obtain ⟨hone, hnext⟩ := (prompt_ended (ended_of_timesOut h hnone)).1 hprompt
    refine ⟨fun t ht => ?_, fun _ => ?_⟩
    · rw [htime, hone t ht _ (now_mem_since h ht)]
    · rw [hsince', htime]
      exact hnext
  | stops hin hbefore he htime _ hstop' =>
    rw [hin, prompt_goesOn (goesOn_of_before h hbefore)] at hprompt
    refine ⟨?_, fun hgo => ?_⟩
    · rw [htime]
      exact hprompt.1
    · rw [hstop'] at hgo
      cases hgo
  | takes hin hbefore he htime hsince' _ =>
    rw [hin, prompt_goesOn (goesOn_of_before h hbefore), he] at hprompt
    rw [htime]
    refine ⟨hprompt.1, fun _ => ?_⟩
    rw [hsince', htime]
    exact hprompt.2

/-- **Prompt bursts are flushed in time.** -/
theorem inTime_of_promises (h : Ready cfg w) (hp : Promises cfg w) : InTime cfg storage w := by
  intro n
  induction n generalizing w with
  | zero =>
    rintro _ ⟨⟩ t ht
    cases hstop : w.state.stopRequested with
    | true =>
      have hnone : w.since = [] := by
        rw [← List.length_eq_zero_iff, h.length, h.between.stopped hstop]
        rfl
      rw [hnone] at ht
      cases ht
    | false =>
      obtain ⟨w', hround, -, hm⟩ := round_moves storage h hstop
      rw [hround]
      exact (promises_moves h hstop hp hm).1 t ht
  | succ n ih =>
    intro w₁ hrun
    cases hstop : w.state.stopRequested with
    | true =>
      have hleft := round_stopped storage h hstop
      rw [rounds] at hrun
      split at hrun
      · rename_i heq
        rw [heq] at hleft
        cases hleft
      · rw [hrun] at hleft
        cases hleft
    | false =>
      obtain ⟨w', hround, h', hm⟩ := round_moves storage h hstop
      rw [rounds, hround] at hrun
      exact ih h' (promises_moves h hstop hp hm).2 w₁ hrun

/-! ## What is flushed in time is prompt -/

theorem inTime_head (h : InTime cfg storage w) (hround : w.round cfg storage = (.ok true, w')) :
    ∀ t ∈ w.since, w'.timeline.now ≤ t + cfg.flushIntervalS := by
  have hzero := h 0 w rfl
  rw [hround] at hzero
  exact hzero

theorem inTime_tail (h : InTime cfg storage w) (hround : w.round cfg storage = (.ok true, w')) :
    InTime cfg storage w' := by
  intro n w₁ hrun
  refine h (n + 1) w₁ ?_
  rw [rounds, hround]
  exact hrun

/-- A burst that ends by the interval has come at one instant. -/
theorem oneInstant_of_inTime (h : Ready cfg w) (hin : InTime cfg storage w)
    (hround : w.round cfg storage = (.ok true, w'))
    (htime : w'.timeline = { w.timeline with now := w.timeline.now + cfg.flushIntervalS }) :
    OneInstant w.since := by
  have hnow (t : ℚ) (ht : t ∈ w.since) : t = w.timeline.now := by
    have hle := inTime_head hin hround t ht
    rw [htime] at hle
    exact (h.past t ht).antisymm (le_of_add_le_add_right hle)
  intro t ht u hu
  rw [hnow t ht, hnow u hu]

/-- An idle writer that finds nothing to replay waits for its next input. -/
theorem idle_reaches_input (hquiet : ∀ s y, ¬ Writer.FetchFinds cfg storage s y) {e : TimedInput}
    {inputs : List TimedInput} (k : ℕ) (h : Ready cfg w) (hstop : w.state.stopRequested = false)
    (hin : InTime cfg storage w) (hsince : w.since = []) (hinputs : w.timeline.inputs = e :: inputs)
    (hnear : e.instant ≤ w.timeline.now + k * cfg.flushIntervalS) :
    ∃ w₁, Ready cfg w₁ ∧ w₁.state.stopRequested = false ∧ InTime cfg storage w₁ ∧ w₁.since = [] ∧
      w₁.timeline.inputs = e :: inputs ∧ e.Before (w₁.timeline.now + cfg.flushIntervalS) := by
  induction k generalizing w with
  | zero =>
    refine ⟨w, h, hstop, hin, hsince, hinputs, .inl ?_⟩
    rw [Nat.cast_zero, zero_mul, add_zero] at hnear
    exact hnear.trans_lt (lt_add_of_pos_right _ cfg.flushInterval_pos)
  | succ k ih =>
    by_cases hbefore : e.Before (w.timeline.now + cfg.flushIntervalS)
    · exact ⟨w, h, hstop, hin, hsince, hinputs, hbefore⟩
    obtain ⟨w', hround, h', hm⟩ := round_moves storage h hstop
    cases hm with
    | replays hfinds => exact absurd hfinds (hquiet _ _)
    | timesOut hnone htime hsince' hstop' =>
      refine ih h' hstop' (inTime_tail hin hround) hsince' ?_ ?_
      · rw [htime]
        exact hinputs
      · rw [htime]
        push_cast at hnear
        linarith only [hnear]
    | stops hin' hbefore' =>
      rw [hinputs, List.cons.injEq] at hin'
      exact absurd (hin'.1 ▸ hbefore') hbefore
    | takes hin' hbefore' =>
      rw [hinputs, List.cons.injEq] at hin'
      exact absurd (hin'.1 ▸ hbefore') hbefore

/-- **What is flushed in time is prompt**, whatever the writer has in its batch. -/
theorem prompt_of_inTime (hquiet : ∀ s y, ¬ Writer.FetchFinds cfg storage s y)
    (h : Ready cfg w) (hstop : w.state.stopRequested = false) (hin : InTime cfg storage w) :
    Prompt cfg.flushIntervalS cfg.batchSize w.since w.timeline.inputs := by
  generalize hinputs : w.timeline.inputs = inputs
  induction inputs generalizing w with
  | nil =>
    obtain ⟨w', hround, -, hm⟩ := round_moves storage h hstop
    cases hm with
    | replays hfinds => exact absurd hfinds (hquiet _ _)
    | timesOut hnone htime => exact oneInstant_of_inTime h hin hround htime
    | stops hin' => rw [hinputs] at hin'; cases hin'
    | takes hin' => rw [hinputs] at hin'; cases hin'
  | cons e inputs ih =>
    -- an input that ends the wait of the present round
    have hnext {w : TimedWriter τ} (h : Ready cfg w) (hstop : w.state.stopRequested = false)
        (hin : InTime cfg storage w) (hinputs : w.timeline.inputs = e :: inputs)
        (hbefore : e.Before (w.timeline.now + cfg.flushIntervalS)) :
        Prompt cfg.flushIntervalS cfg.batchSize w.since (e :: inputs) := by
      obtain ⟨w', hround, h', hm⟩ := round_moves storage h hstop
      have hsoon := inTime_head hin hround
      rw [prompt_goesOn (goesOn_of_before h hbefore)]
      cases hm with
      | replays hfinds => exact absurd hfinds (hquiet _ _)
      | timesOut hnone => exact absurd hbefore (hnone e (by rw [hinputs]; rfl))
      | stops hin' _ he htime =>
        rw [hinputs] at hin'
        cases hin'
        rw [htime] at hsoon
        rw [he]
        exact ⟨hsoon, trivial⟩
      | takes hin' _ he htime hsince' hstop' =>
        rw [hinputs] at hin'
        cases hin'
        have hrest := ih h' hstop' (inTime_tail hin hround) (by rw [htime])
        rw [htime] at hsoon
        rw [hsince'] at hrest
        rw [he]
        exact ⟨hsoon, hrest⟩
    have hidle {w : TimedWriter τ} (h : Ready cfg w) (hstop : w.state.stopRequested = false)
        (hin : InTime cfg storage w) (hsince : w.since = []) (hinputs : w.timeline.inputs = e :: inputs) :
        Prompt cfg.flushIntervalS cfg.batchSize [] (e :: inputs) := by
      obtain ⟨k, hk⟩ := Archimedean.arch (e.instant - w.timeline.now) cfg.flushInterval_pos
      rw [nsmul_eq_mul] at hk
      obtain ⟨w₁, h₁, hstop₁, hin₁, hsince₁, hinputs₁, hbefore⟩ :=
        idle_reaches_input hquiet k h hstop hin hsince hinputs (by linarith only [hk])
      rw [← hsince₁]
      exact hnext h₁ hstop₁ hin₁ hinputs₁ hbefore
    by_cases hbefore : e.Before (w.timeline.now + cfg.flushIntervalS)
    · exact hnext h hstop hin hinputs hbefore
    obtain ⟨w', hround, h', hm⟩ := round_moves storage h hstop
    cases hm with
    | replays hfinds => exact absurd hfinds (hquiet _ _)
    | timesOut hnone htime hsince' hstop' =>
      have hended := ended_of_timesOut h hnone
      rw [hinputs] at hended
      refine (prompt_ended hended).2 ⟨oneInstant_of_inTime h hin hround htime, ?_⟩
      exact hidle h' hstop' (inTime_tail hin hround) hsince' (by rw [htime]; exact hinputs)
    | stops hin' hbefore' =>
      rw [hinputs] at hin'
      cases hin'
      exact absurd hbefore' hbefore
    | takes hin' hbefore' =>
      rw [hinputs] at hin'
      cases hin'
      exact absurd hbefore' hbefore

end TimedWriter

/-! ## The flush interval -/

/-- Storage that fails. -/
def noStorage : Storage Unit := fun _ _ y => (.error .timeout, y)

/-- **No item is in the batch for longer than the flush interval exactly if every burst
    is prompt**: storage, spool and replay do not matter. -/
theorem flushed_in_time_iff (cfg : WriterConfig) {maxSize : ℕ} (hmax : 0 < maxSize) {s : WriterState}
    (hs : (WriterState.init (.empty maxSize)).start = .ok s) {x : Timeline} (hx : x.Ordered) :
    (∀ (τ : Type) (storage : Storage τ) (y : τ), TimedWriter.InTime cfg storage ⟨s, x, y, []⟩) ↔
      Prompt cfg.flushIntervalS cfg.batchSize [] x.inputs := by
  constructor
  · intro h
    have hquiet (s : WriterState) (y : Unit) : ¬ Writer.FetchFinds cfg noStorage s y := by
      rintro ⟨-, entries, -, hr⟩
      cases hr
    obtain ⟨hready, hstop⟩ := TimedWriter.ready_of_start cfg hmax hs hx ()
    exact TimedWriter.prompt_of_inTime hquiet hready hstop (h Unit noStorage ())
  · intro h τ storage y
    obtain ⟨hready, -⟩ := TimedWriter.ready_of_start cfg hmax hs hx y
    exact TimedWriter.inTime_of_promises hready fun _ => h

/-- A batch of three, which waits for a second. -/
def trickleConfig : WriterConfig :=
  { testConfig false with batchSize := 3, batchSize_pos := by decide }

/-- Items that come at the given instants. -/
def arrivals (instants : List ℚ) : Timeline :=
  ⟨0, instants.map fun t => ⟨t, false, .arrives (makePollResult pollOne (.boolean true))⟩⟩

theorem flushed_in_time_iff_burst :
    (WriterState.init (.empty 1)).start = .ok testState ∧ (arrivals [0, 1 / 2, 3 / 4]).Ordered ∧
      Prompt 1 3 [] (arrivals [0, 1 / 2, 3 / 4]).inputs ∧
      ((∀ (τ : Type) (storage : Storage τ) (y : τ),
        TimedWriter.InTime trickleConfig storage ⟨testState, arrivals [0, 1 / 2, 3 / 4], y, []⟩) ↔
          Prompt 1 3 [] (arrivals [0, 1 / 2, 3 / 4]).inputs) :=
  have hx : (arrivals [0, 1 / 2, 3 / 4]).Ordered := by
    unfold Timeline.Ordered
    decide +kernel
  ⟨rfl, hx, by decide +kernel, flushed_in_time_iff trickleConfig one_pos rfl hx⟩

/-- Two items, three quarters of a second apart: the first one waits for longer than
    the second that the flush interval is long. -/
theorem trickle_flushed_late :
    trickleConfig.flushIntervalS = 1 ∧
      ¬ TimedWriter.InTime trickleConfig noStorage ⟨testState, arrivals [0, 3 / 4], (), []⟩ := by
  let run := TimedWriter.rounds trickleConfig noStorage 2
    ⟨testState, arrivals [0, 3 / 4], (), []⟩
  have hrun : run.1 = .ok true := by decide +kernel
  have hsince : run.2.since = [0, 3 / 4] := by decide +kernel
  have hnow : (run.2.round trickleConfig noStorage).2.timeline.now = 7 / 4 := by decide +kernel
  refine ⟨rfl, fun hin => ?_⟩
  have hage := hin 2 run.2 (Prod.ext hrun rfl) 0 (by rw [hsince]; exact List.mem_cons_self)
  rw [hnow] at hage
  exact absurd hage (by decide +kernel)

end PlcGateway
