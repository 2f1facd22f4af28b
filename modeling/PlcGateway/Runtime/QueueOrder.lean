/-
  The order of the reading queue.

  Whatever its producers and consumers do, the queue is a bounded channel
  (`queue_refines_channel`): items leave in the order in which they entered.  No put is
  lost (`puts_end_once`), and a producer waits only while the queue is full or somebody
  is about to run, so that consuming alone serves all that wait (`waiting_puts_served`).
-/
import PlcGateway.Library.Channel
import PlcGateway.Runtime.QueueShutdown
import Mathlib.Algebra.Order.Group.Multiset
import Mathlib.Tactic.Abel

namespace PlcGateway

namespace SharedQueue
variable {R : Type} {s s' t u : SharedQueue R}

/-! ## A channel -/

/-- From `s` to `t` the queue is used as a channel, as the logs say. -/
def Refines (s t : SharedQueue R) : Prop :=
  ∃ os, Channel.Runs s.queue.maxSize s.queue.items os t.queue.items ∧
    t.accepted = s.accepted ++ os.flatMap Channel.Op.sent ∧
    t.consumed = s.consumed ++ os.flatMap Channel.Op.received ∧
    t.dropped = s.dropped ++ os.flatMap Channel.Op.discarded ∧ t.queue.maxSize = s.queue.maxSize

theorem Refines.of_unused (hitems : t.queue.items = s.queue.items) (haccepted : t.accepted = s.accepted)
    (hconsumed : t.consumed = s.consumed) (hdropped : t.dropped = s.dropped)
    (hmax : t.queue.maxSize = s.queue.maxSize) : s.Refines t := by
  refine ⟨[], ?_, ?_, ?_, ?_, hmax⟩
  · rw [hitems]
    exact .nil
  · rw [haccepted, List.flatMap_nil, List.append_nil]
  · rw [hconsumed, List.flatMap_nil, List.append_nil]
  · rw [hdropped, List.flatMap_nil, List.append_nil]

theorem Refines.trans (h : s.Refines s') (h' : s'.Refines t) : s.Refines t := by
  obtain ⟨os, hruns, ha, hc, hd, hmax⟩ := h
  obtain ⟨os', hruns', ha', hc', hd', hmax'⟩ := h'
  rw [hmax] at hruns'
  refine ⟨os ++ os', hruns.append hruns', ?_, ?_, ?_, hmax'.trans hmax⟩
  · rw [ha', ha, List.flatMap_append, List.append_assoc]
  · rw [hc', hc, List.flatMap_append, List.append_assoc]
  · rw [hd', hd, List.flatMap_append, List.append_assoc]

theorem refines_putOrWait (s : SharedQueue R) (item : R) : s.Refines (s.putOrWait item) := by
  rw [putOrWait, ReadingQueue.putNowait]
  split_ifs with hspace
  · exact ⟨[.send item], .single (.send hspace), rfl, (List.append_nil _).symm,
      (List.append_nil _).symm, rfl⟩
  · exact .of_unused rfl rfl rfl rfl rfl

/-- **An event uses the channel at most once.** -/
theorem refines_step (h : s.Accounts) {e : QueueEvent R} (hs : s.step e = some s') :
    s.Refines s' := by
  cases e with
  | put item =>
    rw [step] at hs
    split_ifs at hs
    · cases hs
      exact .of_unused rfl rfl rfl rfl rfl
    · cases hs
      exact refines_putOrWait s item
  | resume i =>
    rw [step, Option.map_eq_some_iff] at hs
    obtain ⟨item, -, rfl⟩ := hs
    exact refines_putOrWait { s with woken := s.woken.eraseIdx i } item
  | timeout i =>
    rw [step, Option.map_eq_some_iff] at hs
    obtain ⟨item, -, rfl⟩ := hs
    exact .of_unused rfl rfl rfl rfl rfl
  | timeoutWoken i =>
    rw [step, Option.map_eq_some_iff] at hs
    obtain ⟨item, -, rfl⟩ := hs
    simp only
    split_ifs
    · obtain ⟨waiting, woken, hwake⟩ := wakeNext_cases
        ({ s with woken := s.woken.eraseIdx i, queue := s.queue.putTimeout }.finish item
          (.error readingQueueFull))
      rw [hwake]
      exact .of_unused rfl rfl rfl rfl rfl
    · exact .of_unused rfl rfl rfl rfl rfl
  | get =>
    rw [step, Option.map_eq_some_iff] at hs
    obtain ⟨⟨item, s₁⟩, hget, rfl⟩ := hs
    obtain ⟨items, waiting, woken, hitems, rfl⟩ := getNowait_cases hget
    refine ⟨[.receive item], .single ?_, (List.append_nil _).symm, rfl, (List.append_nil _).symm, rfl⟩
    rw [hitems]
    exact .receive
  | taskDone =>
    obtain ⟨-, -, rfl⟩ := taskDone_cases hs
    exact .of_unused rfl rfl rfl rfl rfl
  | close =>
    cases hs
    exact .of_unused rfl rfl rfl rfl rfl
  | dropPending =>
    obtain ⟨waiting, woken, rfl, -⟩ := dropPending_cases h hs
    refine ⟨[.discard s.queue.items], .single .discard, (List.append_nil _).symm,
      (List.append_nil _).symm, ?_, rfl⟩
    rw [List.flatMap_singleton]
    rfl

theorem refines_play {es : List (QueueEvent R)} (h : s.Accounts) (hplay : s.play es = some t) :
    s.Refines t := by
  induction es generalizing s with
  | nil =>
    cases hplay
    exact .of_unused rfl rfl rfl rfl rfl
  | cons e es ih =>
    rw [play, Option.bind_eq_some_iff] at hplay
    obtain ⟨s', hs, hplay⟩ := hplay
    exact (refines_step h hs).trans (ih (accounts_step h hs) hplay)

/-- **The queue is a bounded channel**, and its items are all done with when `join` says so. -/
theorem queue_refines_channel (maxSize : ℕ+) {es : List (QueueEvent R)}
    (h : (init maxSize).play es = some t) :
    (∃ os, Channel.Runs maxSize [] os t.queue.items ∧ os.flatMap Channel.Op.sent = t.accepted ∧
      os.flatMap Channel.Op.received = t.consumed ∧
      os.flatMap Channel.Op.discarded = t.dropped) ∧
    t.queue.size ≤ maxSize ∧ t.consumed.Sublist t.accepted ∧ t.queue.items <:+ t.accepted ∧
    (t.queue.unfinished = 0 ↔ t.queue.items = [] ∧ t.processed = t.consumed.length) := by
  obtain ⟨os, hruns, ha, hc, hd, -⟩ := refines_play (accounts_init maxSize) h
  have haccounts := accounts_play (accounts_init maxSize) h
  rw [ha, hc, hd]
  have hbalance : os.flatMap Channel.Op.sent = os.flatMap Channel.Op.left ++ t.queue.items :=
    hruns.balance
  refine ⟨⟨os, hruns, rfl, rfl, rfl⟩, hruns.length_le (Nat.zero_le _), ?_, ?_, ?_⟩
  · show (os.flatMap Channel.Op.received).Sublist (os.flatMap Channel.Op.sent)
    rw [hbalance]
    exact (Channel.received_sublist os).trans (List.sublist_append_left _ _)
  · show t.queue.items <:+ os.flatMap Channel.Op.sent
    rw [hbalance]
    exact List.suffix_append _ _
  · rw [← hc]
    have hunfinished := haccounts.unfinished
    have hlength := haccounts.accepted.length_eq
    have hprocessed := haccounts.processed
    rw [List.length_append, List.length_append] at hlength
    rw [← List.length_eq_zero_iff]
    omega

theorem queue_refines_channel_dropped :
    ∃ t : SharedQueue ℕ, (init 2).play [.put 1, .put 2, .get, .put 3, .dropPending] = some t ∧
      t.consumed.Sublist t.accepted ∧ t.accepted = [1, 2, 3] ∧ t.consumed = [1] :=
  ⟨_, rfl, (queue_refines_channel 2
    (rfl : (init 2).play [.put 1, .put 2, .get, .put 3, .dropPending] = some _)).2.2.1, rfl, rfl⟩

/-! ## Puts -/

/-- The put that an event begins. -/
def offer : QueueEvent R → List R
  | .put item => [item]
  | .resume _ | .timeout _ | .timeoutWoken _ | .get | .taskDone | .close | .dropPending => []

/-- The items of the puts that have ended, and of those that wait. -/
def offered (s : SharedQueue R) : Multiset R := s.ended.map Prod.fst + s.waiting + s.woken

/-- The items of the puts that have ended well. -/
def succeeded (s : SharedQueue R) : List R :=
  (s.ended.filter fun p => p.2.isOk).map Prod.fst

/-- The puts that have ended well are those whose items entered. -/
def Answered (s : SharedQueue R) : Prop := s.accepted = s.succeeded

theorem succeeded_finish (s : SharedQueue R) (item : R) (r : Except PyError Unit) :
    (s.finish item r).succeeded = s.succeeded ++ if r.isOk then [item] else [] := by
  rw [succeeded, finish, List.filter_append, List.map_append]
  cases r with
  | error e => rfl
  | ok _ => rfl

theorem offered_finish (s : SharedQueue R) (item : R) (r : Except PyError Unit) :
    (s.finish item r).offered = {item} + s.offered := by
  show (((s.ended ++ [(item, r)]).map Prod.fst : List R) : Multiset R) + _ + _ = _
  rw [List.map_append, List.map_singleton, ← Multiset.coe_add, Multiset.coe_singleton, offered]
  abel

/-- A producer that comes to the queue is served, or waits. -/
theorem answered_putOrWait (h : s.Answered) (item : R) :
    (s.putOrWait item).Answered ∧ (s.putOrWait item).offered = {item} + s.offered := by
  rw [putOrWait, ReadingQueue.putNowait]
  split_ifs
  · refine ⟨?_, offered_finish _ item _⟩
    rw [Answered, succeeded_finish]
    exact congrArg (· ++ [item]) h
  · refine ⟨h, ?_⟩
    show _ + ((s.waiting ++ [item] : List R) : Multiset R) + _ = _
    rw [← Multiset.coe_add, Multiset.coe_singleton, offered]
    abel

theorem answered_wakeNext (h : s.Answered) :
    s.wakeNext.Answered ∧ s.wakeNext.offered = s.offered := by
  rw [wakeNext]
  cases hw : s.waiting with
  | nil => exact ⟨h, rfl⟩
  | cons item waiting =>
    refine ⟨h, ?_⟩
    show _ + _ + ((s.woken ++ [item] : List R) : Multiset R) = _
    rw [← Multiset.coe_add, Multiset.coe_singleton, offered, hw, ← Multiset.cons_coe,
      ← Multiset.singleton_add]
    abel

theorem answered_getNowait {item : R} (h : s.Answered) (hget : s.getNowait = some (item, s')) :
    s'.Answered ∧ s'.offered = s.offered := by
  rw [getNowait, Option.map_eq_some_iff] at hget
  obtain ⟨⟨item', queue⟩, -, hs⟩ := hget
  cases hs
  exact answered_wakeNext (s := { s with queue }) h

theorem answered_dropLoop (n : ℕ) (h : s.Answered) :
    (s.dropLoop n).2.Answered ∧ (s.dropLoop n).2.offered = s.offered := by
  induction n generalizing s with
  | zero => exact ⟨h, rfl⟩
  | succ n ih =>
    rw [dropLoop]
    cases hget : s.getNowait with
    | none => exact ⟨h, rfl⟩
    | some p =>
      obtain ⟨item, s₁⟩ := p
      obtain ⟨h₁, hoffered⟩ := answered_getNowait h hget
      simp only
      cases s₁.queue.taskDone with
      | error e => exact ⟨h₁, hoffered⟩
      | ok queue =>
        obtain ⟨h₂, hoffered₂⟩ := ih (s := { s₁ with queue, dropped := s₁.dropped ++ [item] }) h₁
        exact ⟨h₂, hoffered₂.trans hoffered⟩

theorem coe_eraseIdx {as : List R} {i : ℕ} {a : R} (h : as[i]? = some a) :
    (as : Multiset R) = {a} + as.eraseIdx i := by
  obtain ⟨hlt, rfl⟩ := List.getElem?_eq_some_iff.1 h
  rw [Multiset.singleton_add, Multiset.cons_coe, Multiset.coe_eq_coe]
  exact (List.getElem_cons_eraseIdx_perm hlt).symm

/-- **An event begins at most one put, and loses none.** -/
theorem answered_step (h : s.Answered) {e : QueueEvent R} (hs : s.step e = some s') :
    s'.Answered ∧ s'.offered = offer e + s.offered := by
  cases e with
  | put item =>
    rw [step] at hs
    split_ifs at hs
    · cases hs
      refine ⟨?_, offered_finish s item _⟩
      rw [Answered, succeeded_finish]
      exact h.trans (List.append_nil _).symm
    · cases hs
      exact answered_putOrWait h item
  | resume i =>
    rw [step, Option.map_eq_some_iff] at hs
    obtain ⟨item, hi, rfl⟩ := hs
    obtain ⟨h', hoffered⟩ := answered_putOrWait (s := { s with woken := s.woken.eraseIdx i }) h item
    refine ⟨h', hoffered.trans ?_⟩
    show {item} + (_ + _ + ((s.woken.eraseIdx i : List R) : Multiset R)) = 0 + (_ + _ + _)
    rw [coe_eraseIdx hi]
    abel
  | timeout i =>
    rw [step, Option.map_eq_some_iff] at hs
    obtain ⟨item, hi, rfl⟩ := hs
    refine ⟨?_, (offered_finish _ item _).trans ?_⟩
    · rw [Answered, succeeded_finish]
      exact h.trans (List.append_nil _).symm
    · show {item} + (_ + ((s.waiting.eraseIdx i : List R) : Multiset R) + _) = 0 + (_ + _ + _)
      rw [coe_eraseIdx hi]
      abel
  | timeoutWoken i =>
    rw [step, Option.map_eq_some_iff] at hs
    obtain ⟨item, hi, rfl⟩ := hs
    have hgives : ({ s with woken := s.woken.eraseIdx i, queue := s.queue.putTimeout }.finish item
        (.error readingQueueFull)).Answered ∧
        ({ s with woken := s.woken.eraseIdx i, queue := s.queue.putTimeout }.finish item
          (.error readingQueueFull)).offered = s.offered := by
      refine ⟨?_, (offered_finish _ item _).trans ?_⟩
      · rw [Answered, succeeded_finish]
        exact h.trans (List.append_nil _).symm
      · show {item} + (_ + _ + ((s.woken.eraseIdx i : List R) : Multiset R)) = _ + _ + _
        rw [coe_eraseIdx hi]
        abel
    have hkept := hgives.2.trans (zero_add _).symm
    simp only
    split_ifs
    · obtain ⟨hwake, hoffered⟩ := answered_wakeNext hgives.1
      exact ⟨hwake, hoffered.trans hkept⟩
    · exact ⟨hgives.1, hkept⟩
  | get =>
    rw [step, Option.map_eq_some_iff] at hs
    obtain ⟨⟨item, s₁⟩, hget, rfl⟩ := hs
    obtain ⟨h₁, hoffered⟩ := answered_getNowait h hget
    exact ⟨h₁, hoffered.trans (zero_add _).symm⟩
  | taskDone =>
    obtain ⟨-, -, rfl⟩ := taskDone_cases hs
    exact ⟨h, (zero_add _).symm⟩
  | close =>
    cases hs
    exact ⟨h, (zero_add _).symm⟩
  | dropPending =>
    obtain ⟨h₁, hoffered⟩ := answered_dropLoop s.queue.size (s := { s with queue := s.queue.close }) h
    have hkept := hoffered.trans (zero_add _).symm
    rw [step] at hs
    simp only at hs
    split at hs
    · rename_i hloop
      cases hs
      rw [hloop] at h₁ hkept
      exact ⟨h₁, hkept⟩
    · rename_i hloop
      cases hs
      rw [hloop] at h₁ hkept
      exact ⟨h₁, hkept⟩

theorem answered_play {es : List (QueueEvent R)} (h : s.Answered) (hplay : s.play es = some t) :
    t.Answered ∧ t.offered = es.flatMap offer + s.offered := by
  induction es generalizing s with
  | nil =>
    cases hplay
    exact ⟨h, (zero_add _).symm⟩
  | cons e es ih =>
    rw [play, Option.bind_eq_some_iff] at hplay
    obtain ⟨s', hs, hplay⟩ := hplay
    obtain ⟨h', hoffered⟩ := answered_step h hs
    obtain ⟨ht, hrest⟩ := ih h' hplay
    refine ⟨ht, ?_⟩
    rw [hrest, hoffered, List.flatMap_cons, ← Multiset.coe_add]
    abel

/-- **Every put ends once, or waits**, and the items of those that end well have entered. -/
theorem puts_end_once (maxSize : ℕ+) {es : List (QueueEvent R)} (h : (init maxSize).play es = some t) :
    (es.flatMap offer).Perm (t.ended.map Prod.fst ++ t.waiting ++ t.woken) ∧
      t.accepted = (t.ended.filter fun p => p.2.isOk).map Prod.fst := by
  obtain ⟨hanswered, hoffered⟩ := answered_play (s := init maxSize) rfl h
  refine ⟨?_, hanswered⟩
  rw [← Multiset.coe_eq_coe, ← Multiset.coe_add, ← Multiset.coe_add]
  refine (hoffered.trans ?_).symm
  exact add_zero _

theorem puts_end_once_refused :
    ∃ t : SharedQueue ℕ, (init 1).play [.put 1, .put 2, .timeout 0, .close, .put 3] = some t ∧
      [1, 2, 3].Perm (t.ended.map Prod.fst ++ t.waiting ++ t.woken) ∧ t.accepted = [1] :=
  ⟨_, rfl, (puts_end_once 1
    (rfl : (init 1).play [.put 1, .put 2, .timeout 0, .close, .put 3] = some _)).1, rfl⟩

/-! ## Waking -/

/-- Producers wait only for places that others have, or are about to take. -/
structure Awake (s : SharedQueue R) : Prop where
  size : s.queue.size ≤ s.queue.maxSize
  pos : 0 < s.queue.maxSize
  woken : s.waiting ≠ [] → s.queue.maxSize ≤ s.queue.size + s.woken.length

theorem Awake.of_eq (h : s.Awake) (hsize : t.queue.size = s.queue.size)
    (hmax : t.queue.maxSize = s.queue.maxSize) (hwaiting : t.waiting ≠ [] → s.waiting ≠ [])
    (hwoken : t.woken = s.woken) : t.Awake := by
  refine ⟨?_, ?_, fun hne => ?_⟩
  · rw [hsize, hmax]
    exact h.size
  · rw [hmax]
    exact h.pos
  · rw [hsize, hmax, hwoken]
    exact h.woken (hwaiting hne)

/-- A producer takes a place, or waits because there is none. -/
theorem awake_putOrWait (hsize : s.queue.size ≤ s.queue.maxSize) (hpos : 0 < s.queue.maxSize)
    (hwoken : s.waiting ≠ [] → s.queue.maxSize ≤ s.queue.size + s.woken.length + 1) (item : R) :
    (s.putOrWait item).Awake := by
  rw [putOrWait, ReadingQueue.putNowait]
  split_ifs with hspace
  · refine ⟨?_, hpos, fun hne => ?_⟩
    · show (s.queue.items ++ [item]).length ≤ s.queue.maxSize
      rw [List.length_append]
      exact hspace
    · have hle := hwoken hne
      show s.queue.maxSize ≤ (s.queue.items ++ [item]).length + s.woken.length
      rw [List.length_append, List.length_singleton]
      unfold ReadingQueue.size at hle
      omega
  · refine ⟨hsize, hpos, fun _ => ?_⟩
    exact Nat.le_add_right_of_le (Nat.not_lt.1 hspace)

/-- A place that becomes free wakes a producer. -/
theorem awake_wakeNext (hsize : s.queue.size ≤ s.queue.maxSize) (hpos : 0 < s.queue.maxSize)
    (hwoken : s.waiting ≠ [] → s.queue.maxSize ≤ s.queue.size + s.woken.length + 1) :
    s.wakeNext.Awake := by
  rw [wakeNext]
  cases hw : s.waiting with
  | nil => exact ⟨hsize, hpos, fun hne => absurd hw hne⟩
  | cons item waiting =>
    refine ⟨hsize, hpos, fun _ => ?_⟩
    have hle := hwoken (by rw [hw]; exact List.cons_ne_nil _ _)
    simp only [List.length_append, List.length_singleton]
    omega

theorem awake_getNowait (h : s.Awake) {item : R} (hget : s.getNowait = some (item, s')) : s'.Awake := by
  rw [getNowait, Option.map_eq_some_iff] at hget
  obtain ⟨⟨item', queue⟩, hq, hs⟩ := hget
  rw [ReadingQueue.getNowait] at hq
  cases hitems : s.queue.items with
  | nil =>
    rw [hitems] at hq
    cases hq
  | cons i items =>
    rw [hitems] at hq
    cases hq
    cases hs
    have hsize : s.queue.size = items.length + 1 := by rw [ReadingQueue.size, hitems, List.length_cons]
    have hle := h.size
    have hpos := h.pos
    refine awake_wakeNext ?_ hpos fun hne => ?_
    · show items.length ≤ s.queue.maxSize
      omega
    · have hwoken := h.woken hne
      show s.queue.maxSize ≤ items.length + s.woken.length + 1
      omega

theorem awake_dropLoop (n : ℕ) (h : s.Awake) : (s.dropLoop n).2.Awake := by
  induction n generalizing s with
  | zero => exact h
  | succ n ih =>
    rw [dropLoop]
    cases hget : s.getNowait with
    | none => exact h
    | some p =>
      obtain ⟨item, s₁⟩ := p
      have h₁ := awake_getNowait h hget
      simp only
      cases hdone : s₁.queue.taskDone with
      | error e => exact h₁
      | ok queue =>
        rw [ReadingQueue.taskDone] at hdone
        split_ifs at hdone
        cases hdone
        exact ih (h₁.of_eq rfl rfl id rfl)

/-- **No event loses a wake-up.** -/
theorem awake_step (h : s.Awake) {e : QueueEvent R} (hs : s.step e = some s') : s'.Awake := by
  cases e with
  | put item =>
    rw [step] at hs
    split_ifs at hs
    · cases hs
      exact h.of_eq rfl rfl id rfl
    · cases hs
      exact awake_putOrWait h.size h.pos (fun hne => Nat.le_succ_of_le (h.woken hne)) item
  | resume i =>
    rw [step, Option.map_eq_some_iff] at hs
    obtain ⟨item, hi, rfl⟩ := hs
    obtain ⟨hlt, -⟩ := List.getElem?_eq_some_iff.1 hi
    refine awake_putOrWait (s := { s with woken := s.woken.eraseIdx i }) h.size h.pos ?_ item
    intro hne
    have hle := h.woken hne
    simp only [List.length_eraseIdx_of_lt hlt]
    omega
  | timeout i =>
    rw [step, Option.map_eq_some_iff] at hs
    obtain ⟨item, -, rfl⟩ := hs
    refine h.of_eq rfl rfl (fun hne hnil => hne ?_) rfl
    show s.waiting.eraseIdx i = []
    rw [hnil, List.eraseIdx_nil]
  | timeoutWoken i =>
    rw [step, Option.map_eq_some_iff] at hs
    obtain ⟨item, hi, rfl⟩ := hs
    obtain ⟨hlt, -⟩ := List.getElem?_eq_some_iff.1 hi
    have hlength : (s.woken.eraseIdx i).length = s.woken.length - 1 := List.length_eraseIdx_of_lt hlt
    simp only
    split_ifs with hspace
    · refine awake_wakeNext h.size h.pos fun hne => ?_
      have hle := h.woken hne
      show s.queue.maxSize ≤ s.queue.size + (s.woken.eraseIdx i).length + 1
      omega
    · exact ⟨h.size, h.pos, fun _ => Nat.le_add_right_of_le (Nat.not_lt.1 hspace)⟩
  | get =>
    rw [step, Option.map_eq_some_iff] at hs
    obtain ⟨⟨item, s₁⟩, hget, rfl⟩ := hs
    exact (awake_getNowait h hget).of_eq rfl rfl id rfl
  | taskDone =>
    obtain ⟨-, -, rfl⟩ := taskDone_cases hs
    exact h.of_eq rfl rfl id rfl
  | close =>
    cases hs
    exact h.of_eq rfl rfl id rfl
  | dropPending =>
    have hloop := awake_dropLoop s.queue.size (h.of_eq (t := { s with queue := s.queue.close }) rfl rfl id rfl)
    rw [step] at hs
    simp only at hs
    split at hs
    · rename_i hdrop
      cases hs
      rw [hdrop] at hloop
      exact hloop
    · rename_i hdrop
      cases hs
      rw [hdrop] at hloop
      exact hloop.of_eq rfl rfl id rfl

theorem awake_play {es : List (QueueEvent R)} (h : s.Awake) (hplay : s.play es = some t) : t.Awake := by
  induction es generalizing s with
  | nil =>
    cases hplay
    exact h
  | cons e es ih =>
    rw [play, Option.bind_eq_some_iff] at hplay
    obtain ⟨s', hs, hplay⟩ := hplay
    exact ih (awake_step h hs) hplay

theorem play_append {es es' : List (QueueEvent R)} (h : s.play es = some t) :
    s.play (es ++ es') = t.play es' := by
  induction es generalizing s with
  | nil =>
    cases h
    rfl
  | cons e es ih =>
    rw [play, Option.bind_eq_some_iff] at h
    obtain ⟨s', hs, h⟩ := h
    rw [List.cons_append, play, hs, Option.bind_some, ih h]

/-! ## Serving -/

/-- The woken producers and the waiting ones, in the order in which they are served. -/
def line (s : SharedQueue R) : List R := s.woken ++ s.waiting

/-- A woken producer that finds a place puts its item. -/
theorem serve_woken {item : R} {rest : List R} (hspace : s.queue.size < s.queue.maxSize)
    (hwoken : s.woken ≠ []) (hline : s.line = item :: rest) :
    ∃ u, s.step (.resume 0) = some u ∧ u.line = rest ∧ u.ended = s.ended ++ [(item, .ok ())] := by
  obtain ⟨i, woken, hcons⟩ := List.exists_cons_of_ne_nil hwoken
  rw [line, hcons, List.cons_append, List.cons.injEq] at hline
  obtain ⟨rfl, hrest⟩ := hline
  have hfits : s.queue.items.length < s.queue.maxSize := hspace
  refine ⟨{ s with
    queue := { s.queue with items := s.queue.items ++ [i], unfinished := s.queue.unfinished + 1 }
    woken := woken, accepted := s.accepted ++ [i], ended := s.ended ++ [(i, .ok ())] }, ?_, hrest, rfl⟩
  rw [step, hcons, List.getElem?_cons_zero, Option.map_some, List.eraseIdx_cons_zero, putOrWait,
    ReadingQueue.putNowait, if_pos hfits]
  rfl

/-- Taking an item from a full queue makes a place for the next producer. -/
theorem get_full (h : s.Awake) (hfull : s.queue.maxSize ≤ s.queue.size) (hline : s.line ≠ []) :
    ∃ u, s.step .get = some u ∧ u.queue.size < u.queue.maxSize ∧ u.woken ≠ [] ∧ u.line = s.line ∧
      u.ended = s.ended := by
  have hne : s.queue.items ≠ [] := by
    intro hnil
    rw [ReadingQueue.size, hnil] at hfull
    exact absurd h.pos (Nat.not_lt.2 hfull)
  obtain ⟨item, items, hitems⟩ := List.exists_cons_of_ne_nil hne
  have hlt : items.length < s.queue.maxSize := by
    have hle := h.size
    rw [ReadingQueue.size, hitems, List.length_cons] at hle
    exact hle
  have hget : s.getNowait = some (item, { s with queue := { s.queue with items } }.wakeNext) := by
    rw [getNowait, ReadingQueue.getNowait, hitems]
    rfl
  rw [step, hget, Option.map_some]
  cases hwaiting : s.waiting with
  | nil =>
    refine ⟨_, rfl, ?_⟩
    simp only [wakeNext, hwaiting, line]
    rw [line, hwaiting, List.append_nil] at hline
    exact ⟨hlt, hline, trivial, trivial⟩
  | cons next waiting =>
    refine ⟨_, rfl, ?_⟩
    simp only [wakeNext, hwaiting, line]
    exact ⟨hlt, by simp, by rw [List.append_assoc, List.singleton_append], trivial⟩

/-- The next producer is served by at most one item that is taken. -/
theorem serve_next (h : s.Awake) {item : R} {rest : List R} (hline : s.line = item :: rest) :
    ∃ es u, (∀ e ∈ es, e = .get ∨ e = .resume 0) ∧ s.play es = some u ∧ u.line = rest ∧
      u.ended = s.ended ++ [(item, .ok ())] := by
  have hne : s.line ≠ [] := by
    rw [hline]
    exact List.cons_ne_nil _ _
  by_cases hspace : s.queue.size < s.queue.maxSize
  · have hwoken : s.woken ≠ [] := by
      intro hnil
      have hle := h.woken (by rw [line, hnil] at hne; exact hne)
      rw [hnil] at hle
      exact absurd hspace (Nat.not_lt.2 hle)
    obtain ⟨u, hs, hrest, hended⟩ := serve_woken hspace hwoken hline
    refine ⟨[.resume 0], u, by simp, ?_, hrest, hended⟩
    rw [play, hs]
    rfl
  · obtain ⟨s₁, hget, hspace₁, hwoken, hline₁, hended₁⟩ := get_full h (Nat.not_lt.1 hspace) hne
    obtain ⟨u, hs, hrest, hended⟩ := serve_woken hspace₁ hwoken (hline₁.trans hline)
    refine ⟨[.get, .resume 0], u, by simp, ?_, hrest, by rw [hended, hended₁]⟩
    rw [play, hget, Option.bind_some, play, hs]
    rfl

/-- Consuming alone serves all producers, in their order. -/
theorem serve_all (h : s.Awake) :
    ∃ es u, (∀ e ∈ es, e = .get ∨ e = .resume 0) ∧ s.play es = some u ∧ u.line = [] ∧
      u.ended = s.ended ++ s.line.map fun item => (item, .ok ()) := by
  induction hline : s.line generalizing s with
  | nil => exact ⟨[], s, by simp, rfl, hline, (List.append_nil _).symm⟩
  | cons item rest ih =>
    obtain ⟨es, s₁, hes, hplay, hrest, hended⟩ := serve_next h hline
    obtain ⟨es', u, hes', hplay', hnil, hended'⟩ := ih (awake_play h hplay) hrest
    refine ⟨es ++ es', u, fun e he => (List.mem_append.1 he).elim (hes e) (hes' e), ?_, hnil, ?_⟩
    · rw [play_append hplay]
      exact hplay'
    · rw [hended', hended, List.append_assoc]
      rfl

/-- **No wake-up is lost**: a producer waits only for places that are taken, or about to be,
    and consuming alone serves all producers in their order. -/
theorem waiting_puts_served (maxSize : ℕ+) {es : List (QueueEvent R)}
    (h : (init maxSize).play es = some t) :
    (t.waiting ≠ [] → maxSize ≤ t.queue.size + t.woken.length) ∧
    ∃ es' u, (∀ e ∈ es', e = .get ∨ e = .resume 0) ∧ t.play es' = some u ∧
      u.waiting = [] ∧ u.woken = [] ∧
      u.ended = t.ended ++ (t.woken ++ t.waiting).map fun item => (item, .ok ()) := by
  have hstart : (init maxSize : SharedQueue R).Awake := ⟨Nat.zero_le _, maxSize.pos, fun hne => absurd rfl hne⟩
  have hawake := awake_play hstart h
  obtain ⟨-, -, -, -, -, hmax⟩ := refines_play (accounts_init maxSize) h
  obtain ⟨es', u, hes, hplay, hline, hended⟩ := serve_all hawake
  obtain ⟨hwoken, hwaiting⟩ := List.append_eq_nil_iff.1 hline
  refine ⟨fun hne => ?_, es', u, hes, hplay, hwaiting, hwoken, hended⟩
  have hle := hawake.woken hne
  rw [hmax] at hle
  exact hle

theorem waiting_puts_served_two :
    ∃ t : SharedQueue ℕ, (init 1).play [.put 1, .put 2, .put 3] = some t ∧ t.waiting = [2, 3] ∧
      ∃ es' u, (∀ e ∈ es', e = .get ∨ e = .resume 0) ∧ t.play es' = some u ∧ u.waiting = [] ∧
        u.woken = [] ∧ u.ended = [(1, .ok ()), (2, .ok ()), (3, .ok ())] :=
  ⟨_, rfl, rfl, (waiting_puts_served 1
    (rfl : (init 1).play [.put 1, .put 2, .put 3] = some _)).2⟩

end SharedQueue

end PlcGateway
