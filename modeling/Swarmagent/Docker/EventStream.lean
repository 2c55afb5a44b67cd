import Swarmagent.Machine.Run

/-!
# The Docker event stream

`drain_stream` forwards the events of one stream until the stream ends or fails, and `run_events`
opens one stream after the other, waiting twice as long each time, for a minute at most.

Every event before the first error is posted once and in order, whichever posts fail, and nothing
is read after an error (`delivers_drainStream`).  What `drain_stream` returns is to tell a stream
that has ended from one that has failed.  It returns `false` for both, so `run_events` reports every
end as a failure, and the report is right just if there was one (`drainStream_contract_iff`).

## What is left open

* A stream is a finite list of items.  Nothing is said about one that goes on.
* Which posts fail is up to Swarmbot and the network, so the outcome of a post is a function of its
  number.
-/

namespace Swarmagent.Docker

/-- The options of a request for events. -/
structure EventsOptions where
  since : Option String
  «until» : Option String
  filters : List (String × List String)
deriving DecidableEq

/-- `RELEVANT_TYPES`: the types of events that are forwarded. -/
def relevantTypes : List String :=
  ["container", "network", "service", "node", "secret", "config", "volume"]

/-- The request for events of the relevant types. -/
def eventsOptions : EventsOptions where
  since := none
  «until» := none
  filters := [("type", relevantTypes)]

/-- A call of `post_event`, and how it went. -/
structure Post (μ π : Type*) where
  ty : String
  message : μ
  outcome : Except π Unit

/-- What draining a stream comes to. -/
structure Drained (ε μ π : Type*) where
  /-- The posts, in order. -/
  posts : List (Post μ π)
  /-- The items that have not been read. -/
  unread : List (Except ε μ)
  /-- What `drain_stream` returns. -/
  clean : Bool

section Drain

variable {ε μ π : Type*} (postEvent : ℕ → String → μ → Except π Unit)

/-- The loop of `drain_stream`, after `n` posts. -/
def drainFrom (n : ℕ) : List (Except ε μ) → Drained ε μ π
  | [] => { posts := [], unread := [], clean := false }
  | .ok msg :: items =>
      -- a failed post is logged
      let rest := drainFrom (n + 1) items
      { rest with posts := ⟨"event", msg, postEvent n "event" msg⟩ :: rest.posts }
  | .error _ :: items => { posts := [], unread := items, clean := false }

/-- `drain_stream`. -/
def drainStream (docker : EventsOptions → List (Except ε μ)) : Drained ε μ π :=
  drainFrom postEvent 0 (docker eventsOptions)

end Drain

/-- How `run_events` reports the end of a stream. -/
inductive Report where
  | closed
  | failed
deriving DecidableEq

/-- What `run_events` meets when it opens a stream. -/
structure Round (ε μ π : Type*) where
  docker : EventsOptions → List (Except ε μ)
  postEvent : ℕ → String → μ → Except π Unit

/-- What `run_events` does about a stream. -/
structure StreamAttempt (ε μ π : Type*) where
  drained : Drained ε μ π
  report : Report
  /-- In seconds. -/
  slept : ℕ

section Rounds

variable {ε μ π : Type*}

/-- Drain a stream and report its end. -/
def attempt (delay : ℕ) (r : Round ε μ π) : StreamAttempt ε μ π :=
  let drained := drainStream r.postEvent r.docker
  { drained, report := if drained.clean then .closed else .failed, slept := delay }

/-- One turn of the loop in `run_events`, which sleeps for the delay and then doubles it. -/
def roundStep (delay : ℕ) (r : Round ε μ π) : ℕ × List (StreamAttempt ε μ π) :=
  (min (delay * 2) 60, [attempt delay r])

/-- `run_events`, as far as it got in the given rounds. -/
def runEvents (rounds : List (Round ε μ π)) : ℕ × List (StreamAttempt ε μ π) :=
  Machine.run roundStep 1 rounds

end Rounds

/-! ## What is posted -/

/-- There is an error in the stream. -/
def HasError {ε μ : Type*} (stream : List (Except ε μ)) : Prop := ∃ e, .error e ∈ stream

/-- The events before the first error, and all of them if there is none, have been posted once and
in order, and nothing after the error has been read. -/
def Delivers {ε μ π : Type*} (postEvent : ℕ → String → μ → Except π Unit) (n : ℕ)
    (stream : List (Except ε μ)) (d : Drained ε μ π) : Prop :=
  ∃ msgs : List μ,
    d.posts = (msgs.zipIdx n).map (fun m ↦ ⟨"event", m.1, postEvent m.2 "event" m.1⟩) ∧
    (stream = msgs.map .ok ∧ d.unread = [] ∨
      ∃ e, stream = msgs.map .ok ++ .error e :: d.unread)

section Drain

variable {ε μ π : Type*} (postEvent : ℕ → String → μ → Except π Unit)

/-- Whatever posts fail, each event is posted. -/
theorem delivers_drainFrom (n : ℕ) (stream : List (Except ε μ)) :
    Delivers postEvent n stream (drainFrom postEvent n stream) := by
  induction stream generalizing n with
  | nil => exact ⟨[], rfl, Or.inl ⟨rfl, rfl⟩⟩
  | cons item items ih =>
      cases item with
      | error e => exact ⟨[], rfl, Or.inr ⟨e, rfl⟩⟩
      | ok msg =>
          obtain ⟨msgs, hposts, hread⟩ := ih (n + 1)
          refine ⟨msg :: msgs, ?_, ?_⟩
          · rw [List.zipIdx_cons, List.map_cons, ← hposts]
            rfl
          · rcases hread with ⟨hstream, hunread⟩ | ⟨e, hstream⟩
            · exact Or.inl ⟨congrArg (Except.ok msg :: ·) hstream, hunread⟩
            · exact Or.inr ⟨e, congrArg (Except.ok msg :: ·) hstream⟩

/-- **What `drain_stream` posts and reads.** -/
theorem delivers_drainStream (docker : EventsOptions → List (Except ε μ)) :
    Delivers postEvent 0 (docker eventsOptions) (drainStream postEvent docker) :=
  delivers_drainFrom postEvent 0 (docker eventsOptions)

/-- No stream ends cleanly. -/
theorem drainFrom_clean (n : ℕ) (stream : List (Except ε μ)) :
    (drainFrom postEvent n stream).clean = false := by
  induction stream generalizing n with
  | nil => rfl
  | cons item items ih =>
      cases item with
      | error e => rfl
      | ok msg => exact ih (n + 1)

/-- What is returned is right if there is an error. -/
theorem drainStream_clean_iff (docker : EventsOptions → List (Except ε μ)) :
    ((drainStream postEvent docker).clean = true ↔ ¬HasError (docker eventsOptions)) ↔
      HasError (docker eventsOptions) := by
  rw [drainStream, drainFrom_clean]
  constructor
  · exact fun h ↦ by_contra fun herror ↦ Bool.false_ne_true (h.mpr herror)
  · exact fun herror ↦ iff_of_false Bool.false_ne_true (not_not_intro herror)

end Drain

/-! ## What is reported -/

section Report

variable {ε μ π : Type*}

/-- Every event is delivered, and the end of the stream is taken for what it is: a clean end by
`drain_stream` if there is no error, and a close by `run_events`. -/
structure Contract (r : Round ε μ π) (a : StreamAttempt ε μ π) : Prop where
  delivers : Delivers r.postEvent 0 (r.docker eventsOptions) a.drained
  clean : a.drained.clean = true ↔ ¬HasError (r.docker eventsOptions)
  report : a.report = .closed ↔ ¬HasError (r.docker eventsOptions)

/-- The report says what is returned. -/
theorem report_attempt (delay : ℕ) (r : Round ε μ π) :
    (attempt delay r).report = .closed ↔ (attempt delay r).drained.clean = true := by
  show (if (attempt delay r).drained.clean then Report.closed else Report.failed) = .closed ↔ _
  split
  · next hclean => exact iff_of_true rfl hclean
  · next hclean => exact iff_of_false (by decide) hclean

/-- **One stream**, whatever the delay: the contract is met if there is an error. -/
theorem contract_attempt_iff (delay : ℕ) (r : Round ε μ π) :
    Contract r (attempt delay r) ↔ HasError (r.docker eventsOptions) := by
  rw [← drainStream_clean_iff r.postEvent r.docker]
  constructor
  · exact fun h ↦ h.clean
  · exact fun hclean ↦ ⟨delivers_drainStream r.postEvent r.docker, hclean,
      (report_attempt delay r).trans hclean⟩

/-- From any delay on, the contract is met if there is an error in every stream. -/
theorem contract_run_iff (delay : ℕ) (rounds : List (Round ε μ π)) :
    List.Forall₂ Contract rounds (Machine.run roundStep delay rounds).2 ↔
      ∀ r ∈ rounds, HasError (r.docker eventsOptions) := by
  induction rounds generalizing delay with
  | nil => simp
  | cons r rounds ih =>
      rw [Machine.run_cons, List.forall_mem_cons, ← ih (min (delay * 2) 60),
        ← contract_attempt_iff delay r]
      exact List.forall₂_cons

/-- **When the end of a stream is taken for what it is**: if there is an error in the stream, and in
a run of `run_events` if there is one in every stream.  What is posted does not depend on it
(`delivers_drainStream`). -/
theorem drainStream_contract_iff :
    (∀ (postEvent : ℕ → String → μ → Except π Unit) (docker : EventsOptions → List (Except ε μ)),
      Delivers postEvent 0 (docker eventsOptions) (drainStream postEvent docker) ∧
        ((drainStream postEvent docker).clean = true ↔ ¬HasError (docker eventsOptions)) ↔
      HasError (docker eventsOptions)) ∧
    ∀ rounds : List (Round ε μ π), List.Forall₂ Contract rounds (runEvents rounds).2 ↔
      ∀ r ∈ rounds, HasError (r.docker eventsOptions) := by
  refine ⟨fun postEvent docker ↦ ?_, fun rounds ↦ contract_run_iff 1 rounds⟩
  rw [and_iff_right (delivers_drainStream postEvent docker)]
  exact drainStream_clean_iff postEvent docker

end Report

/-- The daemon is restarted after an event, without an error.  The stream is said to have failed. -/
theorem restart_reported_failed :
    let docker : EventsOptions → List (Except String String) := fun _ ↦ [.ok "start"]
    let postEvent : ℕ → String → String → Except String Unit := fun _ _ _ ↦ .ok ()
    ¬HasError (docker eventsOptions) ∧ (drainStream postEvent docker).clean = false ∧
      (runEvents [⟨docker, postEvent⟩]).2.map StreamAttempt.report = [.failed] ∧
      ¬((drainStream postEvent docker).clean = true ↔ ¬HasError (docker eventsOptions)) := by
  intro docker postEvent
  have herror : ¬HasError (docker eventsOptions) := by
    rintro ⟨e, he⟩
    cases List.mem_singleton.mp he
  exact ⟨herror, rfl, rfl, fun h ↦ Bool.false_ne_true (h.mpr herror)⟩

end Swarmagent.Docker
