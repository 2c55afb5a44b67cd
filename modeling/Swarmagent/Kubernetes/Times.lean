import Swarmagent.Kubernetes.Key

/-!
# Event times

An event takes its time from one of two clocks: from the status that shows it (`startedAt` or
`finishedAt`), or, if there is nothing to take it from, from the agent's own clock `now`.  The two
agree only so far as a status is never ahead of the agent.  An event timed by the agent's clock
may therefore be later than an event after it which is timed by its status (`Overtaken`).

That is what happens at a missed restart: the `die` made up for it is stamped `now`, and the
`start` emitted right after it is stamped `startedAt`, which is earlier.  `times_iff` says that
the times of a container's events are in order exactly if no stamp is overtaken, in a call or
between calls, and no call shows a container's end after its next start.

`stampStep` says which of the two clocks is read at each emission.  It depends on what an
observation shows and on what was tracked before it, and on nothing emitted; `watchRun_times`
connects it to the events.
-/

namespace Swarmagent.Kubernetes

open Swarmagent.Json Swarmagent.Rust

/-! ## Stamps -/

/-- Where the time of an event comes from. -/
inductive Stamp where
  | /-- The agent's clock. -/
    clock (now : Int)
  | /-- The status that shows it. -/
    shown (t : Int)

def Stamp.time : Stamp → Int
  | .clock now => now
  | .shown t => t

@[simp] theorem time_clock (now : Int) : (Stamp.clock now).time = now := rfl

@[simp] theorem time_shown (t : Int) : (Stamp.shown t).time = t := rfl

/-- A stamp of the agent's clock, then an earlier one that a status shows. -/
def Overtaken : Stamp → Stamp → Prop
  | .clock now, .shown t => t < now
  | _, _ => False

/-- Two stamps which statuses show, the second earlier than the first. -/
def GoesBack : Stamp → Stamp → Prop
  | .shown t, .shown t' => t' < t
  | _, _ => False

/-- Two stamps are in order unless the second overtakes the first or goes back behind it, given
that the agent's clock runs forward and is never behind what a status shows. -/
theorem time_le_iff {r r' : Stamp}
    (hclock : ∀ now, r' = .clock now → r.time ≤ now) :
    r.time ≤ r'.time ↔ ¬Overtaken r r' ∧ ¬GoesBack r r' := by
  cases r' with
  | clock now =>
      refine iff_of_true (hclock now rfl) ⟨?_, ?_⟩ <;> cases r <;> exact id
  | shown t' => cases r <;> simp [Overtaken, GoesBack]

/-- No stamp is overtaken, and none goes back within one call. -/
structure InOrder (calls : List (List Stamp)) : Prop where
  across : calls.Pairwise fun c d ↦ ∀ r ∈ c, ∀ r' ∈ d, ¬Overtaken r r'
  within : ∀ c ∈ calls, c.Pairwise fun r r' ↦ ¬Overtaken r r' ∧ ¬GoesBack r r'

section Stamps

variable (timestampOf : String → Option Int)

/-- The stamp of an event whose status gives the time as `rfc3339`, if at all. -/
def stampOr (now : Int) (rfc3339 : Option String) : Stamp :=
  match rfc3339.bind timestampOf with
  | some t => .shown t
  | none => .clock now

@[simp] theorem time_stampOr (now : Int) (rfc3339 : Option String) :
    (stampOr timestampOf now rfc3339).time = tsOr timestampOf now rfc3339 := by
  rw [stampOr, tsOr]
  cases rfc3339.bind timestampOf <;> rfl

def statusFinishedAt (cs : Value) : Option String :=
  (statusTerminated cs).bind fun term ↦ (term.get "finishedAt").bind Value.asStr

/-- The stamps of the events of a terminated container. -/
def terminatedStamps (ns pod : String) (now : Int) (prev : Option TrackedContainer) (cs : Value) :
    List Stamp :=
  terminatedBranch (fun _ _ stamp ↦ stamp) (stampOr timestampOf now) ns pod prev cs

/-- The stamps of the events of a running container. -/
def runningStamps (ns pod : String) (now : Int) (prev : Option TrackedContainer) (cs : Value) :
    List Stamp :=
  runningBranch (fun _ _ stamp ↦ stamp) (.clock now) (stampOr timestampOf now) ns pod prev cs

/-- What a container's machine makes of an observation, with stamps for events. -/
def stampStep (prev : Option TrackedContainer) :
    Observation → Option TrackedContainer × List Stamp
  | .status ns pod now cs => (some (tracked cs),
      terminatedStamps timestampOf ns pod now prev cs ++
        runningStamps timestampOf ns pod now prev cs)
  | .deleted _ _ now => (none, if prev.isSome then [.clock now] else [])

/-- The stamps of the events that a call emits about the container with key `k`. -/
def callStamps (k : String) (prev : Option TrackedContainer) (c : WatchCall) :
    Option TrackedContainer × List Stamp :=
  Machine.run (stampStep timestampOf) prev (observationsOf k c.toWatchEvent)

/-- The stamps of the events that a run from the empty state emits about the container with key
`k`, call by call. -/
def runStamps (k : String) (calls : List WatchCall) : List (List Stamp) :=
  Machine.outputs (callStamps timestampOf k) none calls

/-! ### Events are timed by their stamps -/

theorem terminatedEvents_times (ns pod : String) (now : Int) (k : String)
    (prev : Option TrackedContainer) (cs : Value) :
    (terminatedEvents timestampOf ns pod now k prev cs).map (fun e ↦ e.time) =
      (terminatedStamps timestampOf ns pod now prev cs).map Stamp.time := by
  unfold terminatedEvents terminatedStamps terminatedBranch
  cases statusTerminated cs with
  | none => rfl
  | some term =>
      by_cases h : (wasRunning prev || missedRestart prev cs) = true
      · by_cases hoom : term.strAt ["reason"] = "OOMKilled" <;> simp [h, hoom]
      · simp [h]

theorem runningEvents_times (ns pod : String) (now : Int) (k : String)
    (prev : Option TrackedContainer) (cs : Value) :
    (runningEvents timestampOf ns pod now k prev cs).map (fun e ↦ e.time) =
      (runningStamps timestampOf ns pod now prev cs).map Stamp.time := by
  unfold runningEvents runningStamps runningBranch
  split
  · by_cases hmiss : (missedRestart prev cs && wasRunning prev) = true <;> simp [hmiss]
  · rfl

/-- A container's machine times its events by their stamps. -/
theorem containerStep_times (k : String) (prev : Option TrackedContainer) (o : Observation) :
    (containerStep timestampOf k prev o).1 = (stampStep timestampOf prev o).1 ∧
      (containerStep timestampOf k prev o).2.map (fun e ↦ e.time) =
        (stampStep timestampOf prev o).2.map Stamp.time := by
  cases o with
  | status ns pod now cs =>
      refine ⟨rfl, ?_⟩
      show (statusEvents timestampOf ns pod now k prev cs).map (fun e ↦ e.time) =
        (terminatedStamps timestampOf ns pod now prev cs ++
          runningStamps timestampOf ns pod now prev cs).map Stamp.time
      rw [statusEvents, List.map_append, List.map_append, terminatedEvents_times,
        runningEvents_times]
  | deleted ns pod now =>
      refine ⟨rfl, ?_⟩
      cases prev <;> rfl

/-- **Where event times come from.**  The times of the events emitted about a container are those
of its stamps. -/
theorem watchRun_times (calls : List WatchCall) (k : String) :
    ((watchRun timestampOf ∅ calls).2.filter (fun e ↦ e.actor.id = k)).map (fun e ↦ e.time) =
      (runStamps timestampOf k calls).flatten.map Stamp.time := by
  have hrun := (Machine.run_map (containerStep_times timestampOf k) none (observations k calls)).2
  rw [filter_watchRun, Finmap.lookup_empty, containerRun, hrun, observations, Machine.run_flatMap,
    runStamps, ← Machine.run_eq_flatten]
  rfl

/-! ## Runs in which time runs forward -/

/-- The timestamps a status shows. -/
def shownTimes (cs : Value) : List Int :=
  ((statusFinishedAt cs).bind timestampOf).toList ++ ((statusStartedAt cs).bind timestampOf).toList

/-- The event shows the timestamp `t` for the container with key `k`. -/
def ShownBy (k : String) (e : WatchEvent) (t : Int) : Prop :=
  ∃ p cs, Shows e p cs ∧ k = p.containerKey (statusName cs) ∧ t ∈ shownTimes timestampOf cs

/-- The clock never goes back, no timestamp is ahead of it, and the timestamps shown for a
container never go back from one call to a later one. -/
structure Timely (calls : List WatchCall) : Prop where
  clock : calls.Pairwise fun c d ↦ c.now ≤ d.now
  past : ∀ c ∈ calls, ∀ k t, ShownBy timestampOf k c.toWatchEvent t → t ≤ c.now
  forth : calls.Pairwise fun c d ↦ ∀ k t t', ShownBy timestampOf k c.toWatchEvent t →
    ShownBy timestampOf k d.toWatchEvent t' → t ≤ t'

/-- A stamp is the agent's clock or what was given. -/
theorem stampOr_cases (now : Int) (rfc3339 : Option String) :
    stampOr timestampOf now rfc3339 = .clock now ∨
      ∃ t ∈ (rfc3339.bind timestampOf).toList, stampOr timestampOf now rfc3339 = .shown t := by
  unfold stampOr
  cases rfc3339.bind timestampOf with
  | none => exact Or.inl rfl
  | some t => exact Or.inr ⟨t, by simp, rfl⟩

theorem mem_terminatedStamps {ns pod : String} {now : Int} {prev : Option TrackedContainer}
    {cs : Value} {r : Stamp} (h : r ∈ terminatedStamps timestampOf ns pod now prev cs) :
    r = stampOr timestampOf now (statusFinishedAt cs) := by
  obtain ⟨a, term, -, hterm, rfl⟩ := mem_terminatedBranch h
  rw [statusFinishedAt, hterm]
  rfl

theorem mem_runningStamps {ns pod : String} {now : Int} {prev : Option TrackedContainer}
    {cs : Value} {r : Stamp} (h : r ∈ runningStamps timestampOf ns pod now prev cs) :
    r = .clock now ∨ r = stampOr timestampOf now (statusStartedAt cs) :=
  mem_runningBranch h

/-- The stamps of a call show its clock or the timestamps of its statuses. -/
theorem mem_callStamps {k : String} {prev : Option TrackedContainer} {c : WatchCall} {r : Stamp}
    (h : r ∈ (callStamps timestampOf k prev c).2) :
    r = .clock c.now ∨ ∃ t, r = .shown t ∧ ShownBy timestampOf k c.toWatchEvent t := by
  obtain ⟨prev, o, ho, hr⟩ := Machine.exists_step_of_mem_run _ h
  rcases mem_observationsOf ho with ⟨p, rfl⟩ | ⟨p, cs, hshows, rfl, rfl⟩
  · refine Or.inl ?_
    cases prev with
    | none => simp [stampStep] at hr
    | some t => simpa [stampStep] using hr
  · have hshown : ∀ rfc3339,
        (∀ t ∈ (rfc3339.bind timestampOf).toList, t ∈ shownTimes timestampOf cs) →
        r = stampOr timestampOf c.now rfc3339 →
        r = .clock c.now ∨ ∃ t, r = .shown t ∧
          ShownBy timestampOf (p.containerKey (statusName cs)) c.toWatchEvent t := by
      rintro rfc3339 hmem rfl
      rcases stampOr_cases timestampOf c.now rfc3339 with h | ⟨t, ht, h⟩
      · exact Or.inl h
      · exact Or.inr ⟨t, h, p, cs, hshows, rfl, hmem t ht⟩
    rcases List.mem_append.mp hr with hr | hr
    · exact hshown _ (fun t ht ↦ List.mem_append_left _ ht) (mem_terminatedStamps timestampOf hr)
    · rcases mem_runningStamps timestampOf hr with hr | hr
      · exact Or.inl hr
      · exact hshown _ (fun t ht ↦ List.mem_append_right _ ht) hr

/-- Every stamp is at most the clock of its call. -/
theorem time_callStamps_le {k : String} {prev : Option TrackedContainer} {c : WatchCall}
    {r : Stamp} (hpast : ∀ t, ShownBy timestampOf k c.toWatchEvent t → t ≤ c.now)
    (h : r ∈ (callStamps timestampOf k prev c).2) : r.time ≤ c.now := by
  rcases mem_callStamps timestampOf h with rfl | ⟨t, rfl, ht⟩
  · exact le_refl c.now
  · exact hpast t ht

/-- A stamp of the agent's clock is the clock of its call. -/
theorem now_of_clock_mem {k : String} {prev : Option TrackedContainer} {c : WatchCall} {now : Int}
    (h : .clock now ∈ (callStamps timestampOf k prev c).2) : now = c.now := by
  rcases mem_callStamps timestampOf h with h | ⟨t, h, -⟩
  · exact Stamp.clock.inj h
  · cases h

/-- Within a call, times are in order unless a stamp is overtaken or goes back. -/
theorem pairwise_callStamps_iff {k : String} {prev : Option TrackedContainer} {c : WatchCall}
    (hpast : ∀ t, ShownBy timestampOf k c.toWatchEvent t → t ≤ c.now) :
    (callStamps timestampOf k prev c).2.Pairwise (fun r r' ↦ r.time ≤ r'.time) ↔
      (callStamps timestampOf k prev c).2.Pairwise
        fun r r' ↦ ¬Overtaken r r' ∧ ¬GoesBack r r' := by
  refine List.Pairwise.iff_of_mem fun hr hr' ↦ time_le_iff fun now hnow ↦ ?_
  rw [hnow] at hr'
  rw [now_of_clock_mem timestampOf hr']
  exact time_callStamps_le timestampOf hpast hr

/-- Between calls, times are in order unless a stamp is overtaken. -/
theorem callStamps_le_iff {k : String} {prev prev' : Option TrackedContainer} {c d : WatchCall}
    (hclock : c.now ≤ d.now) (hpast : ∀ t, ShownBy timestampOf k c.toWatchEvent t → t ≤ c.now)
    (hforth : ∀ t t', ShownBy timestampOf k c.toWatchEvent t →
      ShownBy timestampOf k d.toWatchEvent t' → t ≤ t') :
    (∀ r ∈ (callStamps timestampOf k prev c).2, ∀ r' ∈ (callStamps timestampOf k prev' d).2,
        r.time ≤ r'.time) ↔
      ∀ r ∈ (callStamps timestampOf k prev c).2, ∀ r' ∈ (callStamps timestampOf k prev' d).2,
        ¬Overtaken r r' := by
  refine forall₂_congr fun r hr ↦ forall₂_congr fun r' hr' ↦ ?_
  have hback : ¬GoesBack r r' := by
    intro h
    rcases mem_callStamps timestampOf hr with rfl | ⟨t, rfl, ht⟩
    · exact h
    · rcases mem_callStamps timestampOf hr' with rfl | ⟨t', rfl, ht'⟩
      · exact h
      · exact absurd (hforth t t' ht ht') (not_le.mpr h)
  rw [time_le_iff, and_iff_left hback]
  rintro now rfl
  rw [now_of_clock_mem timestampOf hr']
  exact (time_callStamps_le timestampOf hpast hr).trans hclock

/-! ## Runs -/

/-- **When event times follow event order.**  In a timely run from the empty state, the times of
the events emitted about each container are in order exactly if no stamp is overtaken, in a call
or between calls, and none goes back within a call. -/
theorem times_iff (calls : List WatchCall) (h : Timely timestampOf calls) :
    (∀ k, (((watchRun timestampOf ∅ calls).2.filter fun e ↦ e.actor.id = k).map
        fun e ↦ e.time).Pairwise (· ≤ ·)) ↔
      ∀ k, InOrder (runStamps timestampOf k calls) := by
  apply forall_congr'
  intro k
  rw [watchRun_times, List.pairwise_map, List.pairwise_flatten]
  have hwithin : (∀ out ∈ runStamps timestampOf k calls,
        out.Pairwise fun r r' ↦ r.time ≤ r'.time) ↔
      ∀ out ∈ runStamps timestampOf k calls,
        out.Pairwise fun r r' ↦ ¬Overtaken r r' ∧ ¬GoesBack r r' := by
    apply forall₂_congr
    intro out hout
    obtain ⟨prev, c, hc, rfl⟩ := Machine.exists_step_of_mem_outputs _ hout
    exact pairwise_callStamps_iff timestampOf (h.past c hc k)
  have hacross : (runStamps timestampOf k calls).Pairwise
        (fun out out' ↦ ∀ r ∈ out, ∀ r' ∈ out', r.time ≤ r'.time) ↔
      (runStamps timestampOf k calls).Pairwise
        fun out out' ↦ ∀ r ∈ out, ∀ r' ∈ out', ¬Overtaken r r' := by
    have hcalls := List.Pairwise.and_mem.mp (h.clock.and h.forth)
    have hiff : (runStamps timestampOf k calls).Pairwise fun out out' ↦
        ((∀ r ∈ out, ∀ r' ∈ out', r.time ≤ r'.time) ↔
          ∀ r ∈ out, ∀ r' ∈ out', ¬Overtaken r r') :=
      Machine.pairwise_outputs _ (fun prev c prev' d hcd ↦
        callStamps_le_iff timestampOf hcd.2.2.1 (h.past c hcd.1 k) (hcd.2.2.2 k)) hcalls
    exact ⟨fun hle ↦ (hiff.and hle).imp fun hr ↦ hr.1.mp hr.2,
      fun hlt ↦ (hiff.and hlt).imp fun hr ↦ hr.1.mpr hr.2⟩
  rw [hwithin, hacross]
  exact ⟨fun ⟨hw, ha⟩ ↦ ⟨ha, hw⟩, fun ⟨ha, hw⟩ ↦ ⟨hw, ha⟩⟩

/-- The timestamps shown by a pod with one container. -/
theorem shownBy_podObject {k ns name eventType : String} {cs : Value} {now t : Int}
    (h : ShownBy timestampOf k ⟨eventType, podObject ns name [cs], now⟩ t) :
    t ∈ shownTimes timestampOf cs := by
  obtain ⟨p, cs', ⟨-, -, hcs, -⟩, -, ht⟩ := h
  rwa [List.mem_singleton.mp hcs] at ht

/-- Two calls that show one timestamp each. -/
theorem timely_pair {c d : WatchCall} {t t' : Int}
    (hc : ∀ k s, ShownBy timestampOf k c.toWatchEvent s → s = t)
    (hd : ∀ k s, ShownBy timestampOf k d.toWatchEvent s → s = t')
    (hclock : c.now ≤ d.now) (hpast : t ≤ c.now ∧ t' ≤ d.now) (hforth : t ≤ t') :
    Timely timestampOf [c, d] where
  clock := List.pairwise_pair.mpr hclock
  past e he k s hs := by
    rcases List.mem_pair.mp he with rfl | rfl
    · exact (hc k s hs).trans_le hpast.1
    · exact (hd k s hs).trans_le hpast.2
  forth := List.pairwise_pair.mpr fun k s s' hs hs' ↦ by rwa [hc k s hs, hd k s' hs']

/-- A container that restarted while nobody was watching: its `die` is stamped with the agent's
clock, its `start` with the earlier time at which it started. -/
theorem missed_restart_out_of_order :
    let c : WatchCall := ⟨⟨"ADDED", podObject "prod" "web-1"
      [statusObject "web" 0 (runningSince "2026-07-13T09:00:00Z")], 1783933300⟩, .unspecified⟩
    let d : WatchCall := ⟨⟨"MODIFIED", podObject "prod" "web-1"
      [statusObject "web" 1 (runningSince "2026-07-13T10:00:00Z")], 1783936900⟩, .unspecified⟩
    Timely someTimestamps [c, d] ∧
      ¬∀ k, (((watchRun someTimestamps ∅ [c, d]).2.filter fun e ↦ e.actor.id = k).map
        fun e ↦ e.time).Pairwise (· ≤ ·) := by
  intro c d
  refine ⟨timely_pair someTimestamps
    (fun k s hs ↦ List.mem_singleton.mp (shownBy_podObject someTimestamps hs))
    (fun k s hs ↦ List.mem_singleton.mp (shownBy_podObject someTimestamps hs))
    (by decide) (by decide) (by decide), fun h ↦ ?_⟩
  exact absurd (h "prod/web-1/web") (by decide)

/-- A container that is seen to end is no such case. -/
theorem times_iff_terminated :
    let c : WatchCall := ⟨⟨"ADDED", podObject "prod" "web-1"
      [statusObject "web" 0 (runningSince "2026-07-13T09:00:00Z")], 1783933300⟩, .unspecified⟩
    let d : WatchCall := ⟨⟨"MODIFIED", podObject "prod" "web-1"
      [statusObject "web" 0 (terminatedAt 1 "Error" "2026-07-13T10:00:00Z")], 1783936900⟩,
      .unspecified⟩
    (∀ k, (((watchRun someTimestamps ∅ [c, d]).2.filter fun e ↦ e.actor.id = k).map
        fun e ↦ e.time).Pairwise (· ≤ ·)) ↔
      ∀ k, InOrder (runStamps someTimestamps k [c, d]) := by
  intro c d
  refine times_iff someTimestamps [c, d] (timely_pair someTimestamps
    (fun k s hs ↦ List.mem_singleton.mp (shownBy_podObject someTimestamps hs))
    (fun k s hs ↦ List.mem_singleton.mp (shownBy_podObject someTimestamps hs))
    (by decide) (by decide) (by decide))

end Stamps

end Swarmagent.Kubernetes
