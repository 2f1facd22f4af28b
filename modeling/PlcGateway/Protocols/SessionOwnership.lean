/-
  Ownership of the sessions of a driver.

  An open session must be that of the current client, or its client must have been
  disconnected.  A connect loses a session when it replaces the current client, and
  when it fails after its own client has opened one.
-/
import PlcGateway.Protocols.OpcUaDriver

namespace PlcGateway

open Coroutine

/-- A call of the driver, with what the client answers. -/
inductive DriverCall where
  | connect (answer : ConnectAnswer)
  | disconnect (answer : Outcome ClientError Unit)
  | healthCheck (answer : Outcome ClientError Unit)

namespace OpcUaDriver

/-- The driver after a call. -/
def run (d : OpcUaDriver) : DriverCall → OpcUaDriver
  | .connect answer => (d.connect answer).2
  | .disconnect answer => (d.disconnect answer).2
  | .healthCheck answer => (d.healthCheck answer).2

/-- The client `i` has an open session. -/
def OpenSession (d : OpcUaDriver) (i : ℕ) : Prop :=
  ∃ c, d.clients[i]? = some c ∧ c.opened = true ∧ c.disconnected = false

/-- Every open session is that of the current client, so that there is one at most. -/
structure OwnsSessions (d : OpcUaDriver) : Prop where
  owned : ∀ i, d.OpenSession i → d.client = some i
  single : ∀ i j, d.OpenSession i → d.OpenSession j → i = j

/-- The call loses no session: a connect that succeeds finds no current client, and
    one that does not succeed has opened no session. -/
def LosesNone (d : OpcUaDriver) : DriverCall → Prop
  | .connect .connected => d.client = none
  | .connect (.failed _ opened) | .connect (.cancelled opened) => opened = false
  | .disconnect _ | .healthCheck _ => True

/-- The current client has an open session. -/
def ClientOpen (d : OpcUaDriver) : Prop := ∀ i, d.client = some i → d.OpenSession i

variable {d d' : OpcUaDriver}

theorem ownsSessions_of_owned (h : ∀ i, d.OpenSession i → d.client = some i) : d.OwnsSessions :=
  ⟨h, fun i j hi hj => Option.some.inj ((h i hi).symm.trans (h j hj))⟩

/-! ## What the calls do to the sessions -/

/-- The new client may have a session, and the others are as before. -/
theorem openSession_append {opened : Bool} (h : d'.clients = d.clients ++ [⟨opened, false⟩]) (i : ℕ) :
    d'.OpenSession i ↔ d.OpenSession i ∨ i = d.clients.length ∧ opened = true := by
  rcases lt_trichotomy i d.clients.length with hi | rfl | hi
  · rw [OpenSession, h, List.getElem?_append_left hi]
    refine (or_iff_left ?_).symm
    rintro ⟨heq, -⟩
    omega
  · have hnone : ¬ d.OpenSession d.clients.length := by
      rintro ⟨c, hc, -⟩
      rw [List.getElem?_eq_none le_rfl] at hc
      cases hc
    rw [OpenSession, h, List.getElem?_concat_length, or_iff_right hnone]
    constructor
    · rintro ⟨c, hc, hopened, -⟩
      cases hc
      exact ⟨rfl, hopened⟩
    · rintro ⟨-, hopened⟩
      exact ⟨_, rfl, hopened, rfl⟩
  · refine iff_of_false ?_ ?_
    · rintro ⟨c, hc, -⟩
      rw [h, List.getElem?_eq_none (by rw [List.length_append, List.length_singleton]; omega)] at hc
      cases hc
    · rintro (⟨c, hc, -⟩ | ⟨heq, -⟩)
      · rw [List.getElem?_eq_none hi.le] at hc
        cases hc
      · omega

/-- The client that is disconnected has no session any more. -/
theorem openSession_modify {client : ℕ}
    (h : d'.clients = d.clients.modify client fun c => { c with disconnected := true }) (i : ℕ) :
    d'.OpenSession i ↔ d.OpenSession i ∧ i ≠ client := by
  rw [OpenSession, h, OpenSession, List.getElem?_modify]
  by_cases hi : client = i
  · simp only [hi, if_true]
    refine iff_of_false ?_ (fun h => h.2 rfl)
    rintro ⟨c, hc, -, hdisconnected⟩
    obtain ⟨c', -, rfl⟩ := Option.map_eq_some_iff.1 hc
    cases hdisconnected
  · simp [hi, Ne.symm hi]

theorem disconnect_cases (answer : Outcome ClientError Unit) (d : OpcUaDriver) :
    (d.disconnect answer).2.client = none ∧
      (d.client = none ∧ (d.disconnect answer).2.clients = d.clients ∨
        ∃ client, d.client = some client ∧ (d.disconnect answer).2.clients =
          d.clients.modify client fun c => { c with disconnected := true }) := by
  rw [disconnect]
  cases hc : d.client with
  | none => exact ⟨rfl, Or.inl ⟨rfl, rfl⟩⟩
  | some client =>
    rcases answer with (e | _) | _ <;> exact ⟨rfl, Or.inr ⟨client, rfl, rfl⟩⟩

theorem healthCheck_cases (answer : Outcome ClientError Unit) (d : OpcUaDriver) :
    (d.healthCheck answer).2.client = d.client ∧ (d.healthCheck answer).2.clients = d.clients := by
  unfold healthCheck
  split_ifs
  · exact ⟨rfl, rfl⟩
  · rcases answer with (e | _) | _
    · simp only
      cases e.kind <;> exact ⟨rfl, rfl⟩
    · exact ⟨rfl, rfl⟩
    · exact ⟨rfl, rfl⟩

/-- The sessions depend on the clients only. -/
theorem openSession_congr (h : d'.clients = d.clients) (i : ℕ) : d'.OpenSession i ↔ d.OpenSession i := by
  rw [OpenSession, OpenSession, h]

/-! ## Steps -/

theorem clientOpen_run (h : d.ClientOpen) (c : DriverCall) : (d.run c).ClientOpen := by
  intro i hi
  cases c with
  | connect answer =>
    cases answer with
    | connected =>
      cases hi
      exact (openSession_append rfl _).2 (Or.inr ⟨rfl, rfl⟩)
    | failed e opened => exact (openSession_append rfl i).2 (Or.inl (h i hi))
    | cancelled opened => exact (openSession_append rfl i).2 (Or.inl (h i hi))
  | disconnect answer =>
    rw [run, (disconnect_cases answer d).1] at hi
    cases hi
  | healthCheck answer =>
    obtain ⟨hclient, hclients⟩ := healthCheck_cases answer d
    exact (openSession_congr hclients i).2 (h i (hclient.symm.trans hi))

theorem not_openSession_length (d : OpcUaDriver) : ¬ d.OpenSession d.clients.length := by
  rintro ⟨c, hc, -⟩
  rw [List.getElem?_eq_none le_rfl] at hc
  cases hc

/-- A connect that does not succeed leaves the session that it has opened. -/
theorem ownsSessions_unstored_iff {opened : Bool} (hopen : d.ClientOpen) (howns : d.OwnsSessions)
    (hclient : d'.client = d.client) (hclients : d'.clients = d.clients ++ [⟨opened, false⟩]) :
    d'.OwnsSessions ↔ opened = false := by
  constructor
  · intro h
    by_contra hopened
    rw [Bool.not_eq_false] at hopened
    have hnew : d'.client = some d.clients.length :=
      h.owned _ ((openSession_append hclients _).2 (Or.inr ⟨rfl, hopened⟩))
    exact d.not_openSession_length (hopen _ (hclient.symm.trans hnew))
  · rintro rfl
    refine ownsSessions_of_owned fun i hi => ?_
    rcases (openSession_append hclients i).1 hi with hi | ⟨-, hfalse⟩
    · rw [hclient]
      exact howns.owned i hi
    · cases hfalse

/-- A connect that succeeds loses the session of the client that it replaces. -/
theorem ownsSessions_connected_iff (hopen : d.ClientOpen) (howns : d.OwnsSessions) :
    (d.connect .connected).2.OwnsSessions ↔ d.client = none := by
  have hsessions : ∀ i, (d.connect .connected).2.OpenSession i ↔
      d.OpenSession i ∨ i = d.clients.length ∧ true = true := openSession_append rfl
  constructor
  · intro h
    rw [Option.eq_none_iff_forall_ne_some]
    intro i hi
    have hold : d.OpenSession i := hopen i hi
    have hnew : (d.connect .connected).2.client = some i :=
      h.owned i ((hsessions i).2 (Or.inl hold))
    cases hnew
    exact d.not_openSession_length hold
  · intro hnone
    refine ownsSessions_of_owned fun i hi => ?_
    rcases (hsessions i).1 hi with hi | ⟨rfl, -⟩
    · have hold := howns.owned i hi
      rw [hnone] at hold
      cases hold
    · rfl

/-- A disconnect leaves no open session. -/
theorem ownsSessions_disconnect (howns : d.OwnsSessions) (answer : Outcome ClientError Unit) :
    (d.disconnect answer).2.OwnsSessions := by
  obtain ⟨-, ⟨hnone, hclients⟩ | ⟨client, hclient, hclients⟩⟩ := disconnect_cases answer d
  · refine ownsSessions_of_owned fun i hi => ?_
    have hold := howns.owned i ((openSession_congr hclients i).1 hi)
    rw [hnone] at hold
    cases hold
  · refine ownsSessions_of_owned fun i hi => ?_
    obtain ⟨hold, hne⟩ := (openSession_modify hclients i).1 hi
    have hsame := howns.owned i hold
    rw [hclient, Option.some.injEq] at hsame
    exact absurd hsame.symm hne

/-- A call keeps the ownership just when it loses no session. -/
theorem ownsSessions_run_iff (hopen : d.ClientOpen) (howns : d.OwnsSessions) (c : DriverCall) :
    (d.run c).OwnsSessions ↔ d.LosesNone c := by
  cases c with
  | connect answer =>
    cases answer with
    | connected => exact ownsSessions_connected_iff hopen howns
    | failed e opened => exact ownsSessions_unstored_iff hopen howns rfl rfl
    | cancelled opened => exact ownsSessions_unstored_iff hopen howns rfl rfl
  | disconnect answer => exact iff_of_true (ownsSessions_disconnect howns answer) trivial
  | healthCheck answer =>
    obtain ⟨hclient, hclients⟩ := healthCheck_cases answer d
    refine iff_of_true (ownsSessions_of_owned fun i hi => ?_) trivial
    exact hclient.trans (howns.owned i ((openSession_congr hclients i).1 hi))

/-! ## Runs -/

theorem clientOpen_init (connection : ConnectionConfig) : (init connection).ClientOpen := nofun

theorem ownsSessions_init (connection : ConnectionConfig) : (init connection).OwnsSessions := by
  refine ownsSessions_of_owned ?_
  rintro i ⟨c, hc, -⟩
  cases hc

theorem clientOpen_foldl (calls : List DriverCall) (h : d.ClientOpen) :
    (calls.foldl run d).ClientOpen := by
  induction calls generalizing d with
  | nil => exact h
  | cons c calls ih => exact ih (clientOpen_run h c)

/-- **A driver owns its sessions after every call just when no call loses one.** -/
theorem sessions_owned_iff (connection : ConnectionConfig) (calls : List DriverCall) :
    (∀ pre, pre <+: calls → (pre.foldl run (init connection)).OwnsSessions) ↔
      ∀ pre c, pre ++ [c] <+: calls → (pre.foldl run (init connection)).LosesNone c := by
  have hopen := fun pre => clientOpen_foldl pre (clientOpen_init connection)
  have hlast : ∀ pre c, (pre ++ [c]).foldl run (init connection) =
      (pre.foldl run (init connection)).run c := fun pre c => List.foldl_append
  constructor
  · intro h pre c hpre
    have hnext := h _ hpre
    rw [hlast] at hnext
    exact (ownsSessions_run_iff (hopen pre) (h pre ((List.prefix_append _ _).trans hpre)) c).1 hnext
  · intro h pre hpre
    induction pre using List.reverseRecOn with
    | nil => exact ownsSessions_init connection
    | append_singleton pre c ih =>
      rw [hlast]
      exact (ownsSessions_run_iff (hopen pre) (ih ((List.prefix_append _ _).trans hpre)) c).2
        (h pre c hpre)

def connectTimeout : ClientError := ⟨.timeoutError, "TimeoutError", ""⟩

/-- A second connect loses the first session, and so does a connect that times out after
    it opened its session, when the driver is disconnected after it. -/
theorem connect_loses_session :
    ¬ ([.connect .connected, .connect .connected].foldl run (init plcConnection)).OwnsSessions ∧
      ¬ ([.connect (.failed connectTimeout true), .disconnect (.ok ())].foldl run
        (init plcConnection)).OwnsSessions := by
  constructor
  · intro h
    have hclient := h.owned 0 ⟨_, rfl, rfl, rfl⟩
    cases hclient
  · intro h
    have hclient := h.owned 0 ⟨_, rfl, rfl, rfl⟩
    cases hclient

end OpcUaDriver

end PlcGateway
