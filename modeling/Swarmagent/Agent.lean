import Swarmagent.Machine.Concurrent
import Swarmagent.Provider
import Swarmagent.Sink

/-!
# The agent

The model of `main`, once there is a provider.  The agent asks for the health of Swarmbot until it
is told that all is well, and then runs two tasks, one which posts the events of the provider and
one which posts a snapshot on every tick.  The tasks share nothing but the sink.  Each does one
thing after the other, and waits for the reply to a post before it goes on.

A run is any interleaving of what happens to the two, cut off at any point, which is where the
process is asked to stop.

* Nothing is posted before Swarmbot is healthy, and every request goes where the configuration says
  (`requests_allowed`).
* What is posted is accepted exactly if `post_event` succeeds (`exchange_accepted_iff`).
* Whatever the replies are, every event is posted once and in order, and so is every snapshot
  (`posts_in_order`), and no reply keeps the agent from posting the next (`exists_all_posted`).

## What is left open

Time is: a tick is due, and an attempt to connect is made, whenever the run says so.
-/

namespace Swarmagent

open Json Machine Sink
open Kubernetes hiding Request

/-- `tick`, with what `status` has returned.  An error is logged. -/
def tick {η : Type} (_ : Unit) : Except η Status → Unit × List Status
  | .ok status => ((), [status])
  | .error _ => ((), [])

section Agent

/-- What happens to the agent: a reply about the health of Swarmbot, or something happens to one of
the tasks. -/
abbrev Input (ι η ε : Type) := Reply ε ⊕ (Act ι (Reply ε) ⊕ Act (Except η Status) (Reply ε))

/-- What the agent does: it asks for the health, posts a message as an event, or posts a snapshot.
Each comes with the reply. -/
abbrev Output (μ ε : Type) := Reply ε ⊕ ((μ × Reply ε) ⊕ (Status × Reply ε))

variable {σ ι μ η ε : Type} (p : Provider σ ι μ η)

/-- A run of `main`, with what it has come to.  Once Swarmbot is healthy, both tasks run. -/
def Provider.main (inputs : List (Input ι η ε)) :
    (Bool × Worker σ ι μ × Worker Unit (Except η Status) Status) × List (Output μ ε) :=
  run (gate Reply.isSuccess (par (work p.read) (work tick)))
    (false, .idle p.start, .idle ()) inputs

/-- What the event source has given. -/
def heard (inputs : List (Input ι η ε)) : List ι :=
  arrivals (lefts (rights (opened Reply.isSuccess inputs)))

/-- What `status` has returned, tick by tick. -/
def sampled (inputs : List (Input ι η ε)) : List (Except η Status) :=
  arrivals (rights (rights (opened Reply.isSuccess inputs)))

/-- The messages posted as events, with the replies. -/
def eventsPosted (outputs : List (Output μ ε)) : List (μ × Reply ε) := lefts (rights outputs)

/-- The snapshots posted, with the replies. -/
def statsPosted (outputs : List (Output μ ε)) : List (Status × Reply ε) := rights (rights outputs)

/-! ## Requests -/

section Requests

variable (toVec : Value → Except ε Bytes) (cfg : Config)

/-- The request that is made, with its reply. -/
def exchange : Output μ ε → Option (Request × Reply ε)
  | .inl reply => some (healthRequest cfg, reply)
  | .inr (.inl (message, reply)) =>
      (eventRequest toVec cfg "event" (p.toValue message)).toOption.map (·, reply)
  | .inr (.inr (status, reply)) =>
      (eventRequest toVec cfg "stats" status.toValue).toOption.map (·, reply)

/-- After some requests, the next is the question for the health, which has not been answered well
before, or it posts something to where events go, and the health has been. -/
def Allowed (before : List (Request × Reply ε)) (d : Request × Reply ε) : Prop :=
  (d.1 = healthRequest cfg ∧ ∀ reply, (healthRequest cfg, reply) ∈ before →
      reply.isSuccess = false) ∨
    (d.1.method = .post ∧ d.1.url = cfg.eventEndpoint ∧ d.1.headers = eventHeaders cfg) ∧
      ∃ reply, (healthRequest cfg, reply) ∈ before ∧ reply.isSuccess = true

theorem eq_ok_of_toOption {α β : Type} {x : Except α β} {b : β} (h : x.toOption = some b) :
    x = .ok b := by
  cases x with
  | error a => cases h
  | ok b' => exact congrArg Except.ok (Option.some.inj h)

/-- A post is a request as `post_event` makes it. -/
theorem exchange_posted {o : (μ × Reply ε) ⊕ (Status × Reply ε)} {d : Request × Reply ε}
    (h : exchange p toVec cfg (.inr o) = some d) :
    d.1.method = .post ∧ d.1.url = cfg.eventEndpoint ∧ d.1.headers = eventHeaders cfg := by
  have hrequest : ∃ ty message, eventRequest toVec cfg ty message = .ok d.1 := by
    rcases o with ⟨message, reply⟩ | ⟨status, reply⟩
    · obtain ⟨req, hreq, rfl⟩ := Option.map_eq_some_iff.mp h
      exact ⟨_, _, eq_ok_of_toOption hreq⟩
    · obtain ⟨req, hreq, rfl⟩ := Option.map_eq_some_iff.mp h
      exact ⟨_, _, eq_ok_of_toOption hreq⟩
  obtain ⟨ty, message, hrequest⟩ := hrequest
  obtain ⟨hmethod, hurl, hheaders, -⟩ := eventRequest_eq_ok toVec hrequest
  exact ⟨hmethod, hurl, hheaders⟩

/-- A request is made and accepted exactly if `post_event` succeeds with the reply. -/
theorem exists_request_iff (ty : String) (v : Value) (reply : Reply ε) :
    (∃ d, (eventRequest toVec cfg ty v).toOption.map (·, reply) = some d ∧ d.2.isSuccess = true) ↔
      postEvent toVec cfg (fun _ ↦ reply) ty v = .ok () := by
  rw [postEvent_eq_ok_iff]
  constructor
  · rintro ⟨d, hd, hsuccess⟩
    obtain ⟨req, hreq, rfl⟩ := Option.map_eq_some_iff.mp hd
    exact ⟨req, eq_ok_of_toOption hreq, hsuccess⟩
  · rintro ⟨req, hreq, hsuccess⟩
    refine ⟨(req, reply), ?_, hsuccess⟩
    rw [hreq]
    rfl

/-- **What is posted is accepted** exactly if `post_event` succeeds, with an event and with a
snapshot. -/
theorem exchange_accepted_iff (message : μ) (status : Status) (reply : Reply ε) :
    ((∃ d, exchange p toVec cfg (.inr (.inl (message, reply))) = some d ∧ d.2.isSuccess = true) ↔
        postEvent toVec cfg (fun _ ↦ reply) "event" (p.toValue message) = .ok ()) ∧
      ((∃ d, exchange p toVec cfg (.inr (.inr (status, reply))) = some d ∧ d.2.isSuccess = true) ↔
        postEvent toVec cfg (fun _ ↦ reply) "stats" status.toValue = .ok ()) :=
  ⟨exists_request_iff toVec cfg "event" _ reply, exists_request_iff toVec cfg "stats" _ reply⟩

/-- **Requests.**  In every run, nothing is posted before Swarmbot has been found healthy, its
health is not asked for again once it has, and everything goes to the endpoints of the
configuration, events and snapshots with the token if there is one. -/
theorem requests_allowed (inputs : List (Input ι η ε)) :
    Guarded (Allowed cfg) ((p.main inputs).2.filterMap (exchange p toVec cfg)) := by
  refine guarded_filterMap (guarded_gate Reply.isSuccess _ _ inputs) fun before o d h hd ↦ ?_
  cases o with
  | inl reply =>
      obtain rfl := Option.some.inj hd
      refine Or.inl ⟨rfl, fun reply' hmem ↦ ?_⟩
      obtain ⟨o', ho', heq⟩ := List.mem_filterMap.mp hmem
      cases o' with
      | inl reply'' =>
          obtain rfl : reply'' = reply' := congrArg Prod.snd (Option.some.inj heq)
          exact h _ ho'
      | inr o' => exact absurd (exchange_posted p toVec cfg heq).1 (by simp [healthRequest])
  | inr o =>
      obtain ⟨reply, hmem, hsuccess⟩ := h
      exact Or.inr ⟨exchange_posted p toVec cfg hd, reply,
        List.mem_filterMap.mpr ⟨_, hmem, rfl⟩, hsuccess⟩

end Requests

/-! ## Events and snapshots -/

/-- What the two tasks have done in a run, each by itself. -/
theorem main_eq (inputs : List (Input ι η ε)) :
    let tasks := rights (opened Reply.isSuccess inputs)
    let events := run (work p.read) (.idle p.start) (lefts tasks)
    let stats := run (work tick) (.idle ()) (rights tasks)
    (p.main inputs).1.2 = (events.1, stats.1) ∧ eventsPosted (p.main inputs).2 = events.2 ∧
      statsPosted (p.main inputs).2 = stats.2 := by
  intro tasks events stats
  obtain ⟨hevents, heventsPosted⟩ :=
    run_par_left (work p.read) (work tick) (.idle p.start, .idle ()) tasks
  obtain ⟨hstats, hstatsPosted⟩ :=
    run_par_right (work p.read) (work tick) (.idle p.start, .idle ()) tasks
  have hmain : p.main inputs = _ := run_gate Reply.isSuccess _ _ inputs
  have hposted : rights (p.main inputs).2 =
      (run (par (work p.read) (work tick)) (.idle p.start, .idle ()) tasks).2 := by
    rw [hmain, rights_append, rights_map_inl, rights_map_inr, List.nil_append]
  refine ⟨?_, ?_, ?_⟩
  · rw [hmain]
    exact Prod.ext hevents hstats
  · rw [eventsPosted, hposted, heventsPosted]
  · rw [statsPosted, hposted, hstatsPosted]

section Posted

variable {inputs : List (Input ι η ε)}

theorem isPrefix_eventsPosted :
    (eventsPosted (p.main inputs).2).map Prod.fst <+: (run p.read p.start (heard inputs)).2 := by
  rw [(main_eq p inputs).2.1]
  exact Worker.isPrefix_sent p.read p.start _

theorem eventsPosted_eq (h : (p.main inputs).1.2.1.Done) :
    (eventsPosted (p.main inputs).2).map Prod.fst = (run p.read p.start (heard inputs)).2 := by
  rw [(main_eq p inputs).1] at h
  rw [(main_eq p inputs).2.1]
  exact Worker.sent_eq p.read h

/-- What `tick` posts is what `status` has returned, but for the errors. -/
theorem run_tick (samples : List (Except η Status)) :
    (run tick () samples).2 = samples.filterMap Except.toOption := by
  induction samples with
  | nil => rfl
  | cons r samples ih =>
      rw [run_cons, List.filterMap_cons, ih]
      cases r <;> rfl

theorem isPrefix_statsPosted :
    (statsPosted (p.main inputs).2).map Prod.fst <+:
      (sampled inputs).filterMap Except.toOption := by
  rw [(main_eq p inputs).2.2, ← run_tick]
  exact Worker.isPrefix_sent tick () _

theorem statsPosted_eq (h : (p.main inputs).1.2.2.Done) :
    (statsPosted (p.main inputs).2).map Prod.fst =
      (sampled inputs).filterMap Except.toOption := by
  rw [(main_eq p inputs).1] at h
  rw [(main_eq p inputs).2.2, ← run_tick]
  exact Worker.sent_eq tick h

end Posted

/-- **Posts.**  In every run, whatever the replies are, the messages posted as events are the first
that the provider makes of what it reads, and the snapshots posted the first that `status` has
returned, each once and in order; and they are all of them when the task has nothing left to do. -/
theorem posts_in_order (inputs : List (Input ι η ε)) :
    let (_, events, stats) := (p.main inputs).1
    let messages := (run p.read p.start (heard inputs)).2
    let snapshots := (sampled inputs).filterMap Except.toOption
    let messagesPosted := (eventsPosted (p.main inputs).2).map Prod.fst
    let snapshotsPosted := (statsPosted (p.main inputs).2).map Prod.fst
    (messagesPosted <+: messages ∧ (events.Done → messagesPosted = messages)) ∧
      snapshotsPosted <+: snapshots ∧ (stats.Done → snapshotsPosted = snapshots) :=
  ⟨⟨isPrefix_eventsPosted p, eventsPosted_eq p⟩, isPrefix_statsPosted p, statsPosted_eq p⟩

/-! ## Progress -/

/-- The tasks go on with what they have, as long as posts are replied to. -/
def goOn (acts : List (Act ι (Reply ε))) (acts' : List (Act (Except η Status) (Reply ε))) :
    List (Input ι η ε) :=
  acts.map (fun a ↦ .inr (.inl a)) ++ acts'.map fun a ↦ .inr (.inr a)

theorem rights_goOn (acts : List (Act ι (Reply ε)))
    (acts' : List (Act (Except η Status) (Reply ε))) :
    rights (goOn acts acts') = acts.map .inl ++ acts'.map .inr := by
  have hmap : goOn acts acts' = (acts.map Sum.inl ++ acts'.map Sum.inr).map Sum.inr := by
    rw [goOn, List.map_append, List.map_map, List.map_map]
    rfl
  rw [hmap, rights_map_inr]

/-- **Nothing that Swarmbot replies stops the agent.**  Once Swarmbot has been found healthy, a run
can be continued, with the same reply to every post, be it an error, until all that has been read so
far has been posted. -/
theorem exists_all_posted (inputs : List (Input ι η ε)) (reply : Reply ε)
    (hhealthy : (p.main inputs).1.1 = true) :
    ∃ acts acts', (∀ a ∈ acts, a = .take ∨ a = .send reply) ∧
      (∀ a ∈ acts', a = .take ∨ a = .send reply) ∧
      (eventsPosted (p.main (inputs ++ goOn acts acts')).2).map Prod.fst =
        (run p.read p.start (heard inputs)).2 ∧
      (statsPosted (p.main (inputs ++ goOn acts acts')).2).map Prod.fst =
        (sampled inputs).filterMap Except.toOption := by
  obtain ⟨acts, harrivals, hacts, hdone⟩ :=
    Worker.exists_done p.read reply (p.main inputs).1.2.1
  obtain ⟨acts', harrivals', hacts', hdone'⟩ :=
    Worker.exists_done tick reply (p.main inputs).1.2.2
  have hopen : (attempts Reply.isSuccess inputs).any Reply.isSuccess = true := by
    rw [Provider.main, run_gate] at hhealthy
    exact hhealthy
  have htasks : rights (opened Reply.isSuccess (inputs ++ goOn acts acts')) =
      rights (opened Reply.isSuccess inputs) ++ (acts.map .inl ++ acts'.map .inr) := by
    rw [opened_append _ hopen, rights_append, rights_goOn]
  have hheard : heard (inputs ++ goOn acts acts') = heard inputs := by
    rw [heard, htasks, lefts_append, lefts_append, lefts_map_inl, lefts_map_inr, List.append_nil,
      arrivals_append, harrivals, List.append_nil]
    rfl
  have hsampled : sampled (inputs ++ goOn acts acts') = sampled inputs := by
    rw [sampled, htasks, rights_append, rights_append, rights_map_inl, rights_map_inr,
      List.nil_append, arrivals_append, harrivals', List.append_nil]
    rfl
  have hstate : (p.main (inputs ++ goOn acts acts')).1.2 =
      ((run (work p.read) (p.main inputs).1.2.1 acts).1,
        (run (work tick) (p.main inputs).1.2.2 acts').1) := by
    rw [(main_eq p _).1, (main_eq p inputs).1, htasks, lefts_append, lefts_append, lefts_map_inl,
      lefts_map_inr, List.append_nil, rights_append, rights_append, rights_map_inl, rights_map_inr,
      List.nil_append, run_append, run_append]
  refine ⟨acts, acts', hacts, hacts', ?_, ?_⟩
  · rw [← hheard]
    exact eventsPosted_eq p (by rw [hstate]; exact hdone)
  · rw [← hsampled]
    exact statsPosted_eq p (by rw [hstate]; exact hdone')

end Agent

/-- Swarmbot is well, and accepts what is posted. -/
def accepting : Reply Unit :=
  .ok { status := 200, statusText := "200 OK", text := .ok "", json := .error () }

/-- Swarmbot is gone after it was found healthy, with two events to be posted. -/
theorem exists_all_posted_gone :
    let p := dockerProvider Unit Unit (fun _ ↦ none) (.fromEnv fun _ ↦ none)
      Value.string
    let inputs : List (Input (Except Unit String) String Unit) :=
      [.inl accepting, .inr (.inl (.arrive (.ok "start"))), .inr (.inl (.arrive (.ok "die")))]
    ∃ acts acts', (∀ a ∈ acts, a = .take ∨ a = .send (.error ())) ∧
      (∀ a ∈ acts', a = .take ∨ a = .send (.error ())) ∧
      (eventsPosted (p.main (inputs ++ goOn acts acts')).2).map Prod.fst = ["start", "die"] ∧
      (statsPosted (p.main (inputs ++ goOn acts acts')).2).map Prod.fst = [] :=
  exists_all_posted _ _ (.error ()) rfl

end Swarmagent
