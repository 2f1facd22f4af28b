/-
  The shutdown of the reading queue (`runtime/reading_queue.py`).

  A producer that finds the queue full waits inside `put`.  Taking an item wakes the
  producer that has waited longest; it puts its item when it runs again, and no
  longer looks whether the queue was closed.  History variables log the items that
  entered, those that were consumed or dropped, and how the puts ended.
-/
import PlcGateway.Domain.Models
import PlcGateway.Runtime.ReadingQueue
import Mathlib.Data.PNat.Basic

namespace PlcGateway

structure ReadingQueueShutdown where
  drained : Bool
  pendingItems : ℕ
  droppedItems : ℕ
  deriving DecidableEq, Repr

/-- The queue with its producers: `waiting` are the items of those that wait for
    space, the oldest first, and `woken` those of the woken ones that have not run. -/
structure SharedQueue (R : Type) where
  queue : ReadingQueue R
  waiting : List R
  woken : List R
  accepted : List R
  consumed : List R
  dropped : List R
  processed : ℕ
  ended : List (R × Except PyError Unit)
  shutdowns : List ReadingQueueShutdown

/-- What happens to the queue; the positions are those of producers. -/
inductive QueueEvent (R : Type) where
  | put (item : R)
  | resume (position : ℕ)
  | timeout (position : ℕ)
  | timeoutWoken (position : ℕ)
  | get
  | taskDone
  | close
  | dropPending

/-- The event is a call of `close` or `drop_pending`. -/
def QueueEvent.IsShutdown {R : Type} : QueueEvent R → Prop
  | .close | .dropPending => True
  | _ => False

def readingQueueClosed : PyError := .storage "Reading queue is closed." (.text "reading_queue_closed")

def readingQueueFull : PyError :=
  .storage "Timed out waiting for space in reading queue." (.text "reading_queue_full")

namespace SharedQueue
variable {R : Type}

def init (maxSize : ℕ+) : SharedQueue R := ⟨.empty maxSize, [], [], [], [], [], 0, [], []⟩

/-- A put ends. -/
def finish (s : SharedQueue R) (item : R) (r : Except PyError Unit) : SharedQueue R :=
  { s with ended := s.ended ++ [(item, r)] }

/-- `asyncio.Queue.put` from its test for space on: the item enters, or its producer waits. -/
def putOrWait (s : SharedQueue R) (item : R) : SharedQueue R :=
  match s.queue.putNowait item with
  | some queue => { s with queue, accepted := s.accepted ++ [item] }.finish item (.ok ())
  | none => { s with waiting := s.waiting ++ [item] }

/-- `_wakeup_next(self._putters)` -/
def wakeNext (s : SharedQueue R) : SharedQueue R :=
  match s.waiting with
  | [] => s
  | item :: waiting => { s with waiting, woken := s.woken ++ [item] }

/-- `asyncio.Queue.get_nowait` -/
def getNowait (s : SharedQueue R) : Option (R × SharedQueue R) :=
  s.queue.getNowait.map fun (item, queue) => (item, { s with queue }.wakeNext)

/-- The `while` loop of `drop_pending`, for at most `n` items. -/
def dropLoop : ℕ → SharedQueue R → Except PyError Unit × SharedQueue R
  | 0, s => (.ok (), s)
  | n + 1, s => match s.getNowait with
    | none => (.ok (), s)
    | some (item, s) => match s.queue.taskDone with
      | .error e => (.error e, s)
      | .ok queue => dropLoop n { s with queue, dropped := s.dropped ++ [item] }

def step (s : SharedQueue R) : QueueEvent R → Option (SharedQueue R)
  | .put item =>
    if s.queue.closed then some (s.finish item (.error readingQueueClosed))
    else some (s.putOrWait item)
  | .resume i =>
    s.woken[i]?.map fun item => { s with woken := s.woken.eraseIdx i }.putOrWait item
  | .timeout i =>
    s.waiting[i]?.map fun item =>
      { s with waiting := s.waiting.eraseIdx i, queue := s.queue.putTimeout }.finish item
        (.error readingQueueFull)
  | .timeoutWoken i =>
    s.woken[i]?.map fun item =>
      let s' := { s with woken := s.woken.eraseIdx i, queue := s.queue.putTimeout }.finish item
        (.error readingQueueFull)
      -- a woken producer that gives up passes its turn on
      if s.queue.size < s.queue.maxSize then s'.wakeNext else s'
  | .get => s.getNowait.map fun (item, s) => { s with consumed := s.consumed ++ [item] }
  | .taskDone =>
    -- consumers call it once for each item
    if s.processed < s.consumed.length then
      match s.queue.taskDone with
      | .ok queue => some { s with queue, processed := s.processed + 1 }
      | .error _ => none
    else none
  | .close => some { s with
      queue := s.queue.close
      shutdowns := s.shutdowns ++ [⟨s.queue.size == 0, s.queue.size, 0⟩] }
  | .dropPending =>
    let n := s.queue.size
    match { s with queue := s.queue.close }.dropLoop n with
    | (.error _, s) => some s
    | (.ok _, s) => some { s with
        queue := { s.queue with droppedItems := s.queue.droppedItems + n }
        shutdowns := s.shutdowns ++ [⟨true, 0, n⟩] }

/-- The states after each of the events. -/
def play (s : SharedQueue R) : List (QueueEvent R) → Option (SharedQueue R)
  | [] => some s
  | e :: es => (s.step e).bind fun s' => s'.play es

/-- A woken producer finds the queue full again when it runs. -/
def KeepsOut (s : SharedQueue R) : QueueEvent R → Prop
  | .resume i => i < s.woken.length → s.queue.maxSize ≤ s.queue.size
  | _ => True

/-- No producer that is woken finds space when it runs. -/
def KeepsAllOut (s : SharedQueue R) : List (QueueEvent R) → Prop
  | [] => True
  | e :: es => s.KeepsOut e ∧ ∀ s', s.step e = some s' → s'.KeepsAllOut es

/-- Every item that entered is in the queue, was consumed, or was dropped. -/
structure Accounts (s : SharedQueue R) : Prop where
  accepted : s.accepted.Perm (s.consumed ++ s.dropped ++ s.queue.items)
  unfinished : s.queue.unfinished + s.processed + s.dropped.length = s.accepted.length
  processed : s.processed ≤ s.consumed.length
  droppedItems : s.queue.droppedItems = s.dropped.length

/-- From `s` to `t` the queue takes no item, and the puts that end raise. -/
structure StaysClosed (s t : SharedQueue R) : Prop where
  closed : t.queue.closed = true
  accepted : t.accepted = s.accepted
  size : t.queue.size ≤ s.queue.size
  ended : ∃ more, t.ended = s.ended ++ more ∧
    ∀ p ∈ more, ∃ e : PyError, p.2 = .error e ∧ e.kind = .storageError

variable {s s' t : SharedQueue R}

theorem Accounts.length (h : s.Accounts) :
    s.accepted.length = s.consumed.length + s.queue.droppedItems + s.queue.size := by
  rw [h.accepted.length_eq, List.length_append, List.length_append, h.droppedItems]
  rfl

theorem StaysClosed.trans (h : s.StaysClosed s') (h' : s'.StaysClosed t) : s.StaysClosed t := by
  obtain ⟨more, hmore, hraise⟩ := h.ended
  obtain ⟨more', hmore', hraise'⟩ := h'.ended
  refine ⟨h'.closed, h'.accepted.trans h.accepted, h'.size.trans h.size, more ++ more', ?_, ?_⟩
  · rw [hmore', hmore, List.append_assoc]
  · exact fun p hp => (List.mem_append.1 hp).elim (hraise p) (hraise' p)

theorem StaysClosed.of_ended_eq (hclosed : t.queue.closed = true) (haccepted : t.accepted = s.accepted)
    (hsize : t.queue.size ≤ s.queue.size) (hended : t.ended = s.ended) : s.StaysClosed t :=
  ⟨hclosed, haccepted, hsize, [], by rw [hended, List.append_nil], nofun⟩

theorem StaysClosed.of_raised {item : R} {e : PyError} (hclosed : t.queue.closed = true)
    (haccepted : t.accepted = s.accepted) (hsize : t.queue.size ≤ s.queue.size)
    (hended : t.ended = s.ended ++ [(item, .error e)]) (he : e.kind = .storageError) :
    s.StaysClosed t := by
  refine ⟨hclosed, haccepted, hsize, _, hended, ?_⟩
  rintro p hp
  rw [List.mem_singleton.1 hp]
  exact ⟨e, rfl, he⟩

/-! ## What the events do -/

theorem accounts_init (maxSize : ℕ+) : (init maxSize : SharedQueue R).Accounts :=
  ⟨.refl _, rfl, le_rfl, rfl⟩

theorem accounts_putOrWait (h : s.Accounts) (item : R) : (s.putOrWait item).Accounts := by
  rw [putOrWait]
  cases hq : s.queue.putNowait item with
  | none => exact ⟨h.accepted, h.unfinished, h.processed, h.droppedItems⟩
  | some queue =>
    rw [ReadingQueue.putNowait_eq_some hq]
    refine ⟨?_, ?_, h.processed, h.droppedItems⟩
    · show (s.accepted ++ [item]).Perm (_ ++ (s.queue.items ++ [item]))
      rw [← List.append_assoc]
      exact h.accepted.append_right _
    · have := h.unfinished
      simp only [finish, List.length_append, List.length_singleton]
      omega

theorem wakeNext_cases (s : SharedQueue R) :
    ∃ waiting woken, s.wakeNext = { s with waiting, woken } := by
  rw [wakeNext]
  cases s.waiting with
  | nil => exact ⟨s.waiting, s.woken, rfl⟩
  | cons item waiting => exact ⟨_, _, rfl⟩

theorem getNowait_cases {item : R} (h : s.getNowait = some (item, s')) :
    ∃ items waiting woken, s.queue.items = item :: items ∧
      s' = { s with queue := { s.queue with items }, waiting, woken } := by
  rw [getNowait, Option.map_eq_some_iff] at h
  obtain ⟨⟨item', queue⟩, hq, hs⟩ := h
  rw [ReadingQueue.getNowait] at hq
  cases hitems : s.queue.items with
  | nil => rw [hitems] at hq; cases hq
  | cons i items =>
    rw [hitems] at hq
    cases hq
    obtain ⟨waiting, woken, hwake⟩ := wakeNext_cases { s with queue := { s.queue with items } }
    cases hs
    exact ⟨items, waiting, woken, rfl, hwake⟩

theorem getNowait_isSome (h : s.queue.items ≠ []) : ∃ item s', s.getNowait = some (item, s') := by
  rw [getNowait, ReadingQueue.getNowait]
  cases hitems : s.queue.items with
  | nil => exact absurd hitems h
  | cons item items => exact ⟨item, _, rfl⟩

/-- `drop_pending` takes every item; it may wake producers that wait. -/
theorem dropLoop_spec (n : ℕ) {s : SharedQueue R} (hn : s.queue.items.length = n)
    (hunfinished : n ≤ s.queue.unfinished) :
    ∃ waiting woken, s.dropLoop n = (.ok (), { s with
        queue := { s.queue with items := [], unfinished := s.queue.unfinished - n }
        dropped := s.dropped ++ s.queue.items, waiting, woken }) := by
  induction n generalizing s with
  | zero =>
    have hnil := List.length_eq_zero_iff.1 hn
    refine ⟨s.waiting, s.woken, ?_⟩
    rw [dropLoop, hnil, List.append_nil]
    cases s
    rename_i queue _ _ _ _ _ _ _ _
    cases queue
    cases hnil
    rfl
  | succ n ih =>
    have hne : s.queue.items ≠ [] := by
      intro h
      rw [h] at hn
      cases hn
    obtain ⟨item, s', hget⟩ := getNowait_isSome hne
    obtain ⟨items, waiting, woken, hitems, rfl⟩ := getNowait_cases hget
    rw [hitems, List.length_cons, Nat.succ_inj] at hn
    have hpos : s.queue.unfinished ≠ 0 := by omega
    obtain ⟨waiting', woken', hdrop⟩ := ih (s := { s with
      queue := { s.queue with items, unfinished := s.queue.unfinished - 1 }
      dropped := s.dropped ++ [item], waiting, woken }) hn (by simp only; omega)
    refine ⟨waiting', woken', ?_⟩
    rw [dropLoop, hget]
    simp only [ReadingQueue.taskDone, if_neg hpos]
    refine hdrop.trans ?_
    simp only [hitems, List.append_assoc, List.singleton_append, Nat.sub_sub, Nat.add_comm 1 n]

theorem dropPending_cases (h : s.Accounts) (hs : s.step .dropPending = some s') :
    ∃ waiting woken, s' = { s with
        queue := { s.queue with
          items := [], unfinished := s.queue.unfinished - s.queue.size, closed := true
          droppedItems := s.queue.droppedItems + s.queue.size }
        dropped := s.dropped ++ s.queue.items, waiting, woken
        shutdowns := s.shutdowns ++ [⟨true, 0, s.queue.size⟩] } ∧
      s.queue.size ≤ s.queue.unfinished := by
  have hle : s.queue.size ≤ s.queue.unfinished := by
    have hlength := h.length
    have hunfinished := h.unfinished
    have hprocessed := h.processed
    rw [h.droppedItems] at hlength
    omega
  obtain ⟨waiting, woken, hdrop⟩ :=
    dropLoop_spec s.queue.size (s := { s with queue := s.queue.close }) rfl hle
  rw [step] at hs
  simp only [hdrop] at hs
  cases hs
  exact ⟨waiting, woken, rfl, hle⟩

theorem taskDone_cases (hs : s.step .taskDone = some s') :
    s.processed < s.consumed.length ∧ s.queue.unfinished ≠ 0 ∧ s' = { s with
      queue := { s.queue with unfinished := s.queue.unfinished - 1 }, processed := s.processed + 1 } := by
  rw [step] at hs
  split_ifs at hs with hlt
  rw [ReadingQueue.taskDone] at hs
  split_ifs at hs with hzero
  cases hs
  exact ⟨hlt, hzero, rfl⟩

/-- No event loses or invents an item. -/
theorem accounts_step (h : s.Accounts) {e : QueueEvent R} (hs : s.step e = some s') : s'.Accounts := by
  cases e with
  | put item =>
    rw [step] at hs
    split_ifs at hs
    · cases hs
      exact ⟨h.accepted, h.unfinished, h.processed, h.droppedItems⟩
    · cases hs
      exact accounts_putOrWait h item
  | resume i =>
    rw [step, Option.map_eq_some_iff] at hs
    obtain ⟨item, -, rfl⟩ := hs
    have hwoken : Accounts { s with woken := s.woken.eraseIdx i } :=
      ⟨h.accepted, h.unfinished, h.processed, h.droppedItems⟩
    exact accounts_putOrWait hwoken item
  | timeout i =>
    rw [step, Option.map_eq_some_iff] at hs
    obtain ⟨item, -, rfl⟩ := hs
    exact ⟨h.accepted, h.unfinished, h.processed, h.droppedItems⟩
  | timeoutWoken i =>
    rw [step, Option.map_eq_some_iff] at hs
    obtain ⟨item, -, rfl⟩ := hs
    simp only
    split_ifs
    · obtain ⟨waiting, woken, hwake⟩ := wakeNext_cases
        ({ s with woken := s.woken.eraseIdx i, queue := s.queue.putTimeout }.finish item
          (.error readingQueueFull))
      rw [hwake]
      exact ⟨h.accepted, h.unfinished, h.processed, h.droppedItems⟩
    · exact ⟨h.accepted, h.unfinished, h.processed, h.droppedItems⟩
  | get =>
    rw [step, Option.map_eq_some_iff] at hs
    obtain ⟨⟨item, s₁⟩, hget, rfl⟩ := hs
    obtain ⟨items, waiting, woken, hitems, rfl⟩ := getNowait_cases hget
    refine ⟨?_, h.unfinished, ?_, h.droppedItems⟩
    · refine h.accepted.trans ?_
      rw [hitems]
      simp only [List.append_assoc]
      refine List.Perm.append_left _ ?_
      rw [← List.append_assoc]
      exact List.perm_middle
    · have := h.processed
      simp only [List.length_append]
      omega
  | taskDone =>
    obtain ⟨hlt, hzero, rfl⟩ := taskDone_cases hs
    have := h.unfinished
    exact ⟨h.accepted, by simp only; omega, hlt, h.droppedItems⟩
  | close =>
    cases hs
    exact ⟨h.accepted, h.unfinished, h.processed, h.droppedItems⟩
  | dropPending =>
    obtain ⟨waiting, woken, rfl, hle⟩ := dropPending_cases h hs
    have := h.unfinished
    refine ⟨?_, ?_, h.processed, ?_⟩
    · simp only [List.append_nil, ← List.append_assoc]
      exact h.accepted
    · simp only [List.length_append]
      unfold ReadingQueue.size at hle ⊢
      omega
    · simp only [List.length_append, h.droppedItems]
      rfl

/-! ## The closed queue -/

theorem putOrWait_full (h : s.queue.maxSize ≤ s.queue.size) (item : R) :
    s.putOrWait item = { s with waiting := s.waiting ++ [item] } := by
  have hnot : ¬ s.queue.items.length < s.queue.maxSize := Nat.not_lt.2 h
  rw [putOrWait, ReadingQueue.putNowait, if_neg hnot]

theorem putOrWait_space (h : s.queue.size < s.queue.maxSize) (item : R) :
    (s.putOrWait item).queue.closed = s.queue.closed ∧
      (s.putOrWait item).accepted = s.accepted ++ [item] := by
  have hspace : s.queue.items.length < s.queue.maxSize := h
  rw [putOrWait, ReadingQueue.putNowait, if_pos hspace]
  exact ⟨rfl, rfl⟩

/-- An event of a closed queue lets no item in, unless a woken producer finds space. -/
theorem staysClosed_step (h : s.Accounts) (hclosed : s.queue.closed = true) {e : QueueEvent R}
    (he : s.KeepsOut e) (hs : s.step e = some s') : s.StaysClosed s' := by
  cases e with
  | put item =>
    rw [step, if_pos hclosed] at hs
    cases hs
    exact .of_raised hclosed rfl le_rfl rfl rfl
  | resume i =>
    rw [step, Option.map_eq_some_iff] at hs
    obtain ⟨item, hitem, rfl⟩ := hs
    have hfull := he (List.getElem?_eq_some_iff.1 hitem).1
    rw [putOrWait_full (s := { s with woken := s.woken.eraseIdx i }) hfull]
    exact .of_ended_eq hclosed rfl le_rfl rfl
  | timeout i =>
    rw [step, Option.map_eq_some_iff] at hs
    obtain ⟨item, -, rfl⟩ := hs
    exact .of_raised hclosed rfl le_rfl rfl rfl
  | timeoutWoken i =>
    rw [step, Option.map_eq_some_iff] at hs
    obtain ⟨item, -, rfl⟩ := hs
    simp only
    split_ifs
    · obtain ⟨waiting, woken, hwake⟩ := wakeNext_cases
        ({ s with woken := s.woken.eraseIdx i, queue := s.queue.putTimeout }.finish item
          (.error readingQueueFull))
      rw [hwake]
      exact .of_raised hclosed rfl le_rfl rfl rfl
    · exact .of_raised hclosed rfl le_rfl rfl rfl
  | get =>
    rw [step, Option.map_eq_some_iff] at hs
    obtain ⟨⟨item, s₁⟩, hget, rfl⟩ := hs
    obtain ⟨items, waiting, woken, hitems, rfl⟩ := getNowait_cases hget
    refine .of_ended_eq hclosed rfl ?_ rfl
    simp only [ReadingQueue.size, hitems, List.length_cons]
    omega
  | taskDone =>
    obtain ⟨-, -, rfl⟩ := taskDone_cases hs
    exact .of_ended_eq hclosed rfl le_rfl rfl
  | close =>
    cases hs
    exact .of_ended_eq rfl rfl le_rfl rfl
  | dropPending =>
    obtain ⟨waiting, woken, rfl, -⟩ := dropPending_cases h hs
    exact .of_ended_eq rfl rfl (Nat.zero_le _) rfl

/-- A woken producer that finds space puts its item, closed or not. -/
theorem slipsIn_step {e : QueueEvent R} (he : ¬ s.KeepsOut e) (hs : s.step e = some s') :
    s'.queue.closed = s.queue.closed ∧ s'.accepted.length = s.accepted.length + 1 := by
  cases e with
  | resume i =>
    rw [step, Option.map_eq_some_iff] at hs
    obtain ⟨item, -, rfl⟩ := hs
    have hspace : s.queue.size < s.queue.maxSize := by
      by_contra hfull
      exact he fun _ => Nat.not_lt.1 hfull
    obtain ⟨hclosed, haccepted⟩ :=
      putOrWait_space (s := { s with woken := s.woken.eraseIdx i }) hspace item
    refine ⟨hclosed, ?_⟩
    rw [haccepted, List.length_append]
    rfl
  | put | timeout | timeoutWoken | get | taskDone | close | dropPending => exact absurd trivial he

/-- A shutdown closes the queue, and reports what it left in the queue. -/
theorem shutdown_step (h : s.Accounts) {e : QueueEvent R} (hshutdown : e.IsShutdown)
    (hs : s.step e = some s') :
    s'.queue.closed = true ∧ ∃ o, s'.shutdowns = s.shutdowns ++ [o] ∧
      (o.drained = true ↔ s'.queue.size = 0) ∧ o.pendingItems = s'.queue.size := by
  cases e with
  | close =>
    cases hs
    exact ⟨rfl, _, rfl, beq_iff_eq, rfl⟩
  | dropPending =>
    obtain ⟨waiting, woken, rfl, -⟩ := dropPending_cases h hs
    exact ⟨rfl, _, rfl, iff_of_true rfl rfl, rfl⟩
  | put | resume | timeout | timeoutWoken | get | taskDone => cases hshutdown

/-! ## Runs -/

theorem accounts_play {es : List (QueueEvent R)} (h : s.Accounts) (hplay : s.play es = some t) :
    t.Accounts := by
  induction es generalizing s with
  | nil =>
    cases hplay
    exact h
  | cons e es ih =>
    rw [play, Option.bind_eq_some_iff] at hplay
    obtain ⟨s', hs, hplay⟩ := hplay
    exact ih (accounts_step h hs) hplay

/-- A closed queue stays closed as long as no woken producer finds space. -/
theorem staysClosed_play {es : List (QueueEvent R)} (h : s.Accounts) (hclosed : s.queue.closed = true)
    (hout : s.KeepsAllOut es) (hplay : s.play es = some t) : s.StaysClosed t := by
  induction es generalizing s with
  | nil =>
    cases hplay
    exact .of_ended_eq hclosed rfl le_rfl rfl
  | cons e es ih =>
    rw [play, Option.bind_eq_some_iff] at hplay
    obtain ⟨s', hs, hplay⟩ := hplay
    have hstep := staysClosed_step h hclosed hout.1 hs
    exact hstep.trans (ih (accounts_step h hs) hstep.closed (hout.2 s' hs) hplay)

/-- What enters a closed queue stays counted. -/
theorem accepted_play {es : List (QueueEvent R)} (h : s.Accounts) (hclosed : s.queue.closed = true)
    (hplay : s.play es = some t) :
    s.accepted.length ≤ t.accepted.length ∧
      (t.accepted.length = s.accepted.length → s.KeepsAllOut es) := by
  induction es generalizing s with
  | nil =>
    cases hplay
    exact ⟨le_rfl, fun _ => trivial⟩
  | cons e es ih =>
    rw [play, Option.bind_eq_some_iff] at hplay
    obtain ⟨s', hs, hplay⟩ := hplay
    have h' := accounts_step h hs
    by_cases he : s.KeepsOut e
    · have hstep := staysClosed_step h hclosed he hs
      obtain ⟨hle, hout⟩ := ih h' hstep.closed hplay
      rw [hstep.accepted] at hle hout
      refine ⟨hle, fun hlength => ⟨he, fun s'' hs'' => ?_⟩⟩
      rw [hs] at hs''
      cases hs''
      exact hout hlength
    · obtain ⟨hsame, hlength⟩ := slipsIn_step he hs
      obtain ⟨hle, -⟩ := ih h' (hsame.trans hclosed) hplay
      exact ⟨by omega, fun hlength' => by omega⟩

/-- What a shutdown that leaves the queue in `s` promises of a later state `t`: no item
    enters, every put that ends raises, an empty queue stays empty, and the items that
    were accepted are consumed, dropped, or reported as pending. -/
structure ShutdownHolds (s t : SharedQueue R) : Prop where
  accepted : t.accepted = s.accepted
  ended : ∃ more, t.ended = s.ended ++ more ∧
    ∀ p ∈ more, ∃ e : PyError, p.2 = .error e ∧ e.kind = .storageError
  empty : s.queue.size = 0 → t.queue.size = 0
  accounts : t.accepted.length = t.consumed.length + t.queue.droppedItems + t.queue.size
  reported : ∃ o, s.shutdowns.getLast? = some o ∧ (o.drained = true ↔ s.queue.size = 0) ∧
    o.pendingItems = s.queue.size ∧
    t.accepted.length = s.consumed.length + s.queue.droppedItems + o.pendingItems

/-- **A closed queue stays closed** exactly when no producer that was woken finds space
    in it when it runs. -/
theorem closed_queue_stays_closed_iff (maxSize : ℕ+) {before after : List (QueueEvent R)}
    {e : QueueEvent R} (hbefore : (init maxSize).play before = some s) (hshutdown : e.IsShutdown)
    (hs : s.step e = some s') (hafter : s'.play after = some t) :
    s'.ShutdownHolds t ↔ s'.KeepsAllOut after := by
  have h := accounts_play (accounts_init maxSize) hbefore
  have h' := accounts_step h hs
  obtain ⟨hclosed, o, ho, hdrained, hpending⟩ := shutdown_step h hshutdown hs
  constructor
  · intro hholds
    exact (accepted_play h' hclosed hafter).2 (congrArg List.length hholds.accepted)
  · intro hout
    have hstays := staysClosed_play h' hclosed hout hafter
    refine ⟨hstays.accepted, hstays.ended, fun hempty => ?_, (accounts_play h' hafter).length,
      o, ?_, hdrained, hpending, ?_⟩
    · exact Nat.le_zero.1 (hempty ▸ hstays.size)
    · rw [ho, List.getLast?_append, List.getLast?_singleton]
      rfl
    · rw [hstays.accepted, h'.length, hpending]

/-! ## A put that waits for the shutdown -/

def shutdownPoll : WorkerPollResult := makePollResult pollOne (.boolean true)

/-- The queue has one place and the second put waits; the drained queue holds its item
    in the end. -/
theorem waiting_put_fills_drained_queue :
    ∃ s s' t : SharedQueue WorkerPollResult,
      (init 1).play [.put shutdownPoll, .put shutdownPoll] = some s ∧
        s.step .dropPending = some s' ∧ s'.shutdowns = [⟨true, 0, 1⟩] ∧ s'.queue.size = 0 ∧
        s'.play [.resume 0] = some t ∧ t.queue.size = 1 ∧ ¬ s'.ShutdownHolds t := by
  refine ⟨_, _, _, rfl, rfl, rfl, rfl, rfl, rfl, ?_⟩
  intro hholds
  cases hholds.empty rfl

theorem closed_queue_stays_closed_timeout :
    ∃ s s' t : SharedQueue WorkerPollResult,
      (init 1).play [.put shutdownPoll, .put shutdownPoll] = some s ∧
        s.step .close = some s' ∧
        s'.play [.timeout 0, .put shutdownPoll, .get, .taskDone] = some t ∧ s'.ShutdownHolds t := by
  have hbefore : (init 1).play [.put shutdownPoll, .put shutdownPoll] = some _ := rfl
  refine ⟨_, _, _, hbefore, rfl, rfl,
    (closed_queue_stays_closed_iff 1 hbefore (e := .close) trivial rfl
      (rfl : play _ [.timeout 0, .put shutdownPoll, .get, .taskDone] = some _)).2 ?_⟩
  exact ⟨trivial, fun _ _ => ⟨trivial, fun _ _ => ⟨trivial, fun _ _ => ⟨trivial, fun _ _ => trivial⟩⟩⟩⟩

end SharedQueue

end PlcGateway
