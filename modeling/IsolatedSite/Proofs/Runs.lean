/-
# Whole runs

A run serves its connections one after the other.  Each of them meets the files as those before it
have left them, since the logs may lie among the files; what no connection changes is the site
(`Service.connection_site`).  So a run sends, for each connection in turn, what `Connection.serve`
sends for the site that the run has started with, in some surroundings
(`Service.sent_of_run`), and what holds of every connection to a site holds of whole runs.
`Service.isolated_of_run` is the case of the isolation headers.

The step is one connection (`Service.connection_sent`), and the induction is on what comes in.
-/
import IsolatedSite.Proofs.IsolationOnWire
import IsolatedSite.Service
import Mathlib.Data.List.Forall2

namespace IsolatedSite.Service

/-! ## 1. One connection -/

/-- What a connection of a site is answered, in some surroundings. -/
def Answers (site : OpenSite) (incoming : Connection.Incoming Trouble) (sent : Bytes) : Prop :=
  ∃ w : Connection.Surroundings, sent = (Connection.serve site w incoming).sent

/-- Serving a connection leaves the site as it is. -/
@[simp] theorem connection_site (s : Running) (m : Machine)
    (incoming : Connection.Incoming Trouble) : (connection s m incoming).2.site = s.site := rfl

theorem connection_sent (s : Running) (m : Machine) (incoming : Connection.Incoming Trouble) :
    Answers s.site incoming (connection s m incoming).1 := ⟨_, rfl⟩

/-! ## 2. All of them -/

/-- **What is sent on connections**, one after the other. -/
theorem connections_sent (s : Running) (m : Machine)
    (incoming : List (Connection.Incoming Trouble)) :
    List.Forall₂ (Answers s.site) incoming (connections s m incoming).1 := by
  induction incoming generalizing s with
  | nil => exact List.Forall₂.nil
  | cons i is ih =>
    have hrest := ih (connection s m i).2
    rw [connection_site] at hrest
    exact List.Forall₂.cons (connection_sent s m i) hrest

/-- A run that has started serves all that comes in. -/
theorem run_of_start {m : Machine} {s : Running} (hstart : start m = .ok s)
    (incoming : List (Connection.Incoming Trouble)) (signal : Text) :
    (run m incoming signal).started = some s ∧
      (run m incoming signal).sent = (connections s m incoming).1 := by
  rw [run, hstart]
  exact ⟨rfl, rfl⟩

/-- **What a run sends**: nothing if it does not start, and otherwise what its site answers to each
connection, in the order in which they come in. -/
theorem sent_of_run (m : Machine) (incoming : List (Connection.Incoming Trouble)) (signal : Text) :
    ((run m incoming signal).exitCode = 1 ∧ (run m incoming signal).sent = []) ∨
      ∃ s, (run m incoming signal).exitCode = 0 ∧ start m = .ok s ∧
        List.Forall₂ (Answers s.site) incoming (run m incoming signal).sent := by
  cases hstart : start m with
  | error written =>
    left
    rw [run, hstart]
    exact ⟨rfl, rfl⟩
  | ok s =>
    obtain ⟨hstarted, hsent⟩ := run_of_start hstart incoming signal
    right
    refine ⟨s, ?_, rfl, ?_⟩
    · rw [Run.exitCode, hstarted]
      rfl
    · rw [hsent]
      exact connections_sent s m incoming

/-! ## 3. Isolation -/

/-- Nothing, or one response with the isolation headers. -/
def IsIsolated (incoming : Connection.Incoming Trouble) (sent : Bytes) : Prop :=
  sent = [] ∨ ∃ r, Connection.IsOneResponse (Connection.asksForHeadOnly incoming) sent r ∧
    r.fields.IsIsolated

/-- **A run isolates every answer**, as long as the heads that come through are well framed. -/
theorem isolated_of_run {m : Machine} {incoming : List (Connection.Incoming Trouble)}
    {signal : Text}
    (hframed : ∀ i ∈ incoming, ∀ h ∈ Connection.passedOn i, Connection.WellFramed h) :
    (run m incoming signal).sent = [] ∨
      List.Forall₂ IsIsolated incoming (run m incoming signal).sent := by
  rcases sent_of_run m incoming signal with ⟨-, hnothing⟩ | ⟨s, -, -, hsent⟩
  · exact Or.inl hnothing
  · right
    rw [List.forall₂_iff_get] at hsent ⊢
    obtain ⟨hlength, hall⟩ := hsent
    refine ⟨hlength, fun i hi hi' => ?_⟩
    obtain ⟨w, hanswer⟩ := hall i hi hi'
    rw [hanswer]
    exact Connection.isOneResponse_of_wellFramed s.site w (hframed _ (List.get_mem _ _))

end IsolatedSite.Service
