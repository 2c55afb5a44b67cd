import Swarmagent.Agent
import Swarmagent.Kubernetes.EventLog
import Swarmagent.Kubernetes.Reconnect

/-!
# From the orchestrator to Swarmbot

What is known of the parts of the agent is put together here: of the event streams
(`Docker.runEvents`, `Kubernetes.runEvents`), of the two tasks and of the payloads.

* What is posted as events is what `run_events` hands to the sink (`docker_posts`,
  `kubernetes_posts`).
* Every event of Kubernetes can be read back from its payload (`events_readable`), so Swarmbot,
  if it accepts all events, knows which containers are running (`swarmbot_agrees`).
-/

namespace Swarmagent

open Json Machine Sink Kubernetes

/-! ## Docker -/

namespace Docker

variable {ε μ π : Type}

/-- The items that are read of a stream, which is left at the first error. -/
def itemsRead : List (Except ε μ) → List (Except ε μ)
  | [] => []
  | .ok msg :: items => .ok msg :: itemsRead items
  | .error e :: _ => [.error e]

/-- What is posted of a stream is what is made of the items read. -/
theorem messages_drainFrom (postEvent : ℕ → String → μ → Except π Unit) (n : ℕ)
    (stream : List (Except ε μ)) :
    (drainFrom postEvent n stream).posts.map Post.message =
      (run readItem () (itemsRead stream)).2 := by
  induction stream generalizing n with
  | nil => rfl
  | cons item items ih =>
      cases item with
      | error e => rfl
      | ok msg => exact congrArg (msg :: ·) (ih (n + 1))

/-- The items read of one stream after the other. -/
def allItemsRead (rounds : List (Round ε μ π)) : List (Except ε μ) :=
  rounds.flatMap fun r ↦ itemsRead (r.docker eventsOptions)

/-- The messages posted of one stream after the other. -/
def messagesOf (attempts : List (StreamAttempt ε μ π)) : List μ :=
  attempts.flatMap fun a ↦ a.drained.posts.map Post.message

/-- **What `run_events` posts**, from any delay on. -/
theorem messagesOf_run (delay : ℕ) (rounds : List (Round ε μ π)) :
    messagesOf (run roundStep delay rounds).2 = (run readItem () (allItemsRead rounds)).2 := by
  induction rounds generalizing delay with
  | nil => rfl
  | cons r rounds ih =>
      rw [run_cons, messagesOf, List.flatMap_append, allItemsRead, List.flatMap_cons, run_append]
      exact congrArg₂ (· ++ ·) ((List.append_nil _).trans (messages_drainFrom r.postEvent 0 _))
        (ih (min (delay * 2) 60))

end Docker

/-! ## Kubernetes -/

namespace Kubernetes

section Times

variable (timestampOf : String → Option Int)

/-- The time of an event of a status is that of the clock, or one that the status shows. -/
theorem time_of_mem_statusEvents {ns pod : String} {now : Int} {key : String}
    {prev : Option TrackedContainer} {cs : Value} {e : AgentEvent}
    (he : e ∈ statusEvents timestampOf ns pod now key prev cs) :
    ∃ rfc3339, e.time = tsOr timestampOf now rfc3339 := by
  rcases List.mem_append.mp he with h | h
  · obtain ⟨a, term, -, -, rfl⟩ := mem_terminatedBranch h
    exact ⟨_, rfl⟩
  · rcases mem_runningBranch h with rfl | rfl
    · exact ⟨none, rfl⟩
    · exact ⟨_, rfl⟩

/-- So is the time of any event. -/
theorem time_of_mem_watchStep {state : WatchState} {c : WatchCall} {e : AgentEvent}
    (he : e ∈ (watchStep timestampOf state c).2) :
    ∃ rfc3339, e.time = tsOr timestampOf c.now rfc3339 := by
  by_cases hpod : podNamespace c.object = "" ∨ podName c.object = ""
  · rw [watchStep, diffWatchEvent_unnamed _ hpod] at he
    simp at he
  · by_cases htype : c.eventType = "DELETED"
    · rw [watchStep, diffWatchEvent_deleted _ hpod htype] at he
      obtain ⟨state, key, -, he⟩ := exists_step_of_mem_run _ he
      exact ⟨none, congrArg AgentEvent.time (List.mem_singleton.mp he)⟩
    · rw [watchStep, diffWatchEvent_shown _ hpod htype] at he
      obtain ⟨state, cs, -, he⟩ := exists_step_of_mem_run _ he
      unfold statusStep at he
      split at he
      · simp at he
      · exact time_of_mem_statusEvents timestampOf he

/-- The clock and the timestamps are `i64`. -/
structure I64Times (calls : List WatchCall) : Prop where
  clock : ∀ c ∈ calls, Value.IsI64 c.now
  shown : ∀ s t, timestampOf s = some t → Value.IsI64 t

theorem isI64_of_mem_watchRun {state : WatchState} {calls : List WatchCall} {e : AgentEvent}
    (h : I64Times timestampOf calls) (he : e ∈ (watchRun timestampOf state calls).2) :
    Value.IsI64 e.time := by
  obtain ⟨state, c, hc, he⟩ := exists_step_of_mem_run _ he
  obtain ⟨rfc3339, htime⟩ := time_of_mem_watchStep timestampOf he
  rw [htime, tsOr]
  cases hshown : rfc3339.bind timestampOf with
  | none => exact h.clock c hc
  | some t =>
      obtain ⟨s, -, hs⟩ := Option.bind_eq_some_iff.mp hshown
      exact h.shown s t hs

/-- What a reader makes of a list of events that have been written. -/
def readBack (events : List AgentEvent) : List AgentEvent :=
  events.filterMap fun e ↦ AgentEvent.ofValue e.toValue

theorem readBack_eq_self {events : List AgentEvent} (h : ∀ e ∈ events, Value.IsI64 e.time) :
    readBack events = events := by
  induction events with
  | nil => rfl
  | cons e events ih =>
      obtain ⟨he, hevents⟩ := List.forall_mem_cons.mp h
      rw [readBack, List.filterMap_cons, AgentEvent.ofValue_toValue he]
      exact congrArg (e :: ·) (ih hevents)

/-- **Events can be read back** from their payloads, over every run and from every state. -/
theorem events_readable {state : WatchState} {calls : List WatchCall}
    (h : I64Times timestampOf calls) :
    readBack (watchRun timestampOf state calls).2 = (watchRun timestampOf state calls).2 :=
  readBack_eq_self fun _ he ↦ isI64_of_mem_watchRun timestampOf h he

/-- The clock of the test may be any `i64`, and so may the timestamps. -/
theorem isI64_someTimestamps {s : String} {t : Int} (h : someTimestamps s = some t) :
    Value.IsI64 t := by
  unfold someTimestamps at h
  split at h <;> cases h <;> exact ⟨by decide, by decide⟩

/-- A call that shows a container running. -/
noncomputable def webCall : WatchCall := ⟨⟨"ADDED", webPod, 1783937000⟩, .unspecified⟩

/-- The container has been restarted. -/
noncomputable def restartCall : WatchCall :=
  ⟨⟨"MODIFIED", podObject "prod" "web-1"
    [statusObject "web" 1 (runningSince "2026-07-13T10:05:00Z")], 1783937200⟩, .unspecified⟩

theorem i64Times_web : I64Times someTimestamps [webCall, restartCall] where
  clock c hc := by
    rcases List.mem_pair.mp hc with rfl | rfl
    · exact ⟨by decide, by decide⟩
    · exact ⟨by decide, by decide⟩
  shown _ _ := isI64_someTimestamps

theorem events_readable_web :
    readBack (watchRun someTimestamps ∅ [webCall, restartCall]).2 =
      (watchRun someTimestamps ∅ [webCall, restartCall]).2 :=
  events_readable someTimestamps i64Times_web

/-- A run that never loses a running container is faithful at its end. -/
theorem faithful_watchRun {calls : List WatchCall} (hcalls : ∀ c ∈ calls, WellFormed c.object)
    (hlost : ∀ before c, before ++ [c] <+: calls →
      ¬LosesRunning (watchRun timestampOf ∅ before).1 c) :
    Faithful (watchRun timestampOf ∅ calls).1 (watchRun timestampOf ∅ calls).2 := by
  induction calls using List.reverseRecOn with
  | nil => exact faithful_empty
  | append_singleton calls c ih =>
      have hbefore := ih (fun d hd ↦ hcalls d (List.mem_append_left _ hd)) fun before d hpre ↦
        hlost before d (hpre.trans (List.prefix_append _ _))
      rw [watchRun_concat]
      exact (faithful_watchStep_iff timestampOf (hcalls c (by simp)) hbefore).mpr
        (hlost calls c (List.prefix_refl _))

end Times

end Kubernetes

/-! ## What Swarmbot gets -/

/-- **Docker.**  What is posted as events is what `run_events` posts of the streams it opens. -/
theorem docker_posts {ε ε' μ π : Type} (instantOf : String → Option Int) (cfg : Config)
    (toValue : μ → Value) {inputs : List (Input (Except ε' μ) String ε)}
    {rounds : List (Docker.Round ε' μ π)} (h : heard inputs = Docker.allItemsRead rounds) :
    let p := dockerProvider ε ε' instantOf cfg toValue
    let posted := (eventsPosted (p.main inputs).2).map Prod.fst
    let messages := Docker.messagesOf (Docker.runEvents rounds).2
    posted <+: messages ∧ ((p.main inputs).1.2.1.Done → posted = messages) := by
  intro p posted messages
  have hmessages : messages = (run p.read p.start (heard inputs)).2 := by
    rw [h]
    exact Docker.messagesOf_run 1 rounds
  rw [hmessages]
  exact ⟨isPrefix_eventsPosted p, eventsPosted_eq p⟩

/-- The first stream breaks off behind a message, and another is opened.  Swarmbot does not accept
what is posted of that one. -/
theorem docker_posts_restart :
    let p := dockerProvider Unit Unit (fun _ ↦ none) (.fromEnv fun _ ↦ none) Value.string
    let inputs : List (Input (Except Unit String) String Unit) :=
      [.inl accepting, .inr (.inl (.arrive (.ok "start"))), .inr (.inl .take),
        .inr (.inl (.send accepting)), .inr (.inl (.arrive (.error ()))), .inr (.inl .take),
        .inr (.inl (.arrive (.ok "die"))), .inr (.inl .take), .inr (.inl (.send (.error ())))]
    let rounds : List (Docker.Round Unit String Unit) :=
      [⟨fun _ ↦ [.ok "start", .error ()], fun _ _ _ ↦ .ok ()⟩,
        ⟨fun _ ↦ [.ok "die"], fun _ _ _ ↦ .error ()⟩]
    let posted := (eventsPosted (p.main inputs).2).map Prod.fst
    posted = ["start", "die"] ∧ posted = Docker.messagesOf (Docker.runEvents rounds).2 :=
  ⟨rfl, (docker_posts _ _ _ rfl).2 ⟨rfl, rfl⟩⟩

section Kubernetes

variable {ε ε' : Type} (timestampOf : String → Option Int) (fromSlice : Bytes → Option Value)
variable (provider : KubernetesProvider String)

/-- **Kubernetes.**  What is posted as events is what `run_events` posts of the connections it
makes. -/
theorem kubernetes_posts {inputs : List (Input WatchCall (StatusError String) ε)}
    {conns : List (Connection ε')} (h : heard inputs = conns.flatMap (Connection.calls fromSlice)) :
    let p := kubernetesProvider timestampOf provider
    let posted := (eventsPosted (p.main inputs).2).map Prod.fst
    let messages := (runEvents timestampOf fromSlice .init conns).2.flatMap fun a ↦ a.session.posted
    posted <+: messages ∧ ((p.main inputs).1.2.1.Done → posted = messages) := by
  intro p posted messages
  have hmessages : messages = (run p.read p.start (heard inputs)).2 := by
    rw [h]
    exact (runEvents_eq timestampOf fromSlice .init conns).2.2
  rw [hmessages]
  exact ⟨isPrefix_eventsPosted p, eventsPosted_eq p⟩

/-- A provider whose requests all fail, which does not matter to its events. -/
def mute : KubernetesProvider String where
  client := { getJson := fun _ ↦ .error "", kubeletGetJson := fun _ ↦ .error "" }
  kubeletMode := .proxy
  nodeIp := none
  nodeName := "node"

/-- Swarmbot is well, and the event of a call is posted to it. -/
noncomputable def webInputs : List (Input WatchCall (StatusError String) Unit) :=
  [.inl accepting, .inr (.inl (.arrive webCall)), .inr (.inl .take),
    .inr (.inl (.send accepting))]

theorem heard_webInputs : heard webInputs = [webCall] := rfl

theorem kubernetes_posts_web :
    let p := kubernetesProvider someTimestamps mute
    let posted := (eventsPosted (p.main webInputs).2).map Prod.fst
    let messages := (runEvents someTimestamps parseWeb .init webSession.attempts).2.flatMap
      fun a ↦ a.session.posted
    posted <+: messages ∧ ((p.main webInputs).1.2.1.Done → posted = messages) :=
  kubernetes_posts someTimestamps parseWeb mute (heard_webInputs.trans webSession_valid.calls.symm)

/-- The events that Swarmbot has accepted, as it reads them. -/
def eventLog (outputs : List (Output AgentEvent ε)) : List AgentEvent :=
  readBack (((eventsPosted outputs).filter fun x ↦ x.2.isSuccess).map Prod.fst)

/-- **Swarmbot and the agent agree** on which containers are running, when the agent has dealt with
what the watch has given and Swarmbot has accepted all of it: what Swarmbot takes for running from
the payloads is what the agent has tracked as running, provided that no call shows a running
container neither running nor terminated. -/
theorem swarmbot_agrees {inputs : List (Input WatchCall (StatusError String) ε)}
    (htimes : I64Times timestampOf (heard inputs))
    (hcalls : ∀ c ∈ heard inputs, WellFormed c.object)
    (hlost : ∀ before c, before ++ [c] <+: heard inputs →
      ¬LosesRunning (watchRun timestampOf ∅ before).1 c) :
    let p := kubernetesProvider timestampOf provider
    (p.main inputs).1.2.1.Done → (∀ x ∈ eventsPosted (p.main inputs).2, x.2.isSuccess = true) →
      ∀ k, k ∈ believedRunning (eventLog (p.main inputs).2) ↔
        ∃ t, (p.main inputs).1.2.1.state.lookup k = some t ∧ t.running = true := by
  intro p hdone haccepted
  have hlog : eventLog (p.main inputs).2 = (watchRun timestampOf ∅ (heard inputs)).2 := by
    rw [eventLog, List.filter_eq_self.mpr haccepted, eventsPosted_eq p hdone]
    exact readBack_eq_self fun _ he ↦ isI64_of_mem_watchRun timestampOf htimes he
  have hstate : (p.main inputs).1.2.1.state = (watchRun timestampOf ∅ (heard inputs)).1 := by
    rw [(main_eq p inputs).1] at hdone ⊢
    exact Worker.state_eq p.read hdone
  rw [hlog, hstate]
  exact faithful_watchRun timestampOf hcalls hlost

/-- The same container is shown again after a restart, with a `die` and a `start`. -/
noncomputable def restartInputs : List (Input WatchCall (StatusError String) Unit) :=
  webInputs ++ [.inr (.inl (.arrive restartCall)), .inr (.inl .take),
    .inr (.inl (.send accepting)), .inr (.inl (.send accepting))]

theorem swarmbot_agrees_web :
    let p := kubernetesProvider someTimestamps mute
    ∀ k, k ∈ believedRunning (eventLog (p.main restartInputs).2) ↔
      ∃ t, (p.main restartInputs).1.2.1.state.lookup k = some t ∧ t.running = true := by
  have hheard : heard restartInputs = [webCall, restartCall] := rfl
  have hwell : ∀ c ∈ heard restartInputs, WellFormed c.object := by
    intro c hc
    rcases List.mem_pair.mp hc with rfl | rfl
    · exact ⟨by decide, by decide⟩
    · exact ⟨by decide, by decide⟩
  refine swarmbot_agrees someTimestamps mute (hheard ▸ i64Times_web) hwell ?_ ⟨rfl, rfl⟩ (by decide)
  -- each of the calls shows the container running
  rintro before c hpre ⟨p, cs, hshows, hrunning, -, -⟩
  have hc : c ∈ heard restartInputs := hpre.subset (by simp)
  have hcs : cs ∈ containerStatuses c.object := hshows.2.2.1
  rcases List.mem_pair.mp hc with rfl | rfl
  · obtain rfl := List.mem_singleton.mp hcs
    cases hrunning
  · obtain rfl := List.mem_singleton.mp hcs
    cases hrunning

end Kubernetes

end Swarmagent
