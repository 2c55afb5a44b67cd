import Swarmagent.Kubernetes.Deletion
import Swarmagent.Kubernetes.Watch

/-!
# What a reconnect loses

The watch is opened without a resource version.  A session therefore begins with an `ADDED` event
for each pod that exists at that time, and says nothing of pods that were deleted while nobody was
watching.  The agent keeps its watch state across the gap, but never compares it with the pods
that are there when it comes back.

A container whose pod was deleted in the gap is thus tracked forever, or until a pod of the same
name is deleted, and its `destroy` is never emitted.  `synced_iff` says that this is the only
thing that goes wrong: the agent is in sync at the beginning of every session exactly if no gap
deletes a pod with a tracked container.

A pod is told from a later one of the same name by its uid, which the agent does not read.
-/

namespace Swarmagent.Kubernetes

open Swarmagent.Json Swarmagent.Rust

/-- One incarnation of a pod. -/
structure PodRef where
  uid : String
  id : PodId
deriving DecidableEq

/-- The pod an object is about, with its uid. -/
def refOf (pod : Value) : Option PodRef :=
  (podOf pod).map fun id ↦ ⟨pod.strAt ["metadata", "uid"], id⟩

/-- The key is that of a container of the pod. -/
def Owns (r : PodRef) (k : String) : Prop := ∃ container, k = r.id.containerKey container

theorem owns_iff {r : PodRef} {k : String} :
    Owns r k ↔ startsWith k r.id.keyPrefix = true := startsWith_iff.symm

/-- What a sequence of events says of the pods that exist: those that do before it, and those that
do after it. -/
inductive Reports : Finset PodRef → List WatchCall → Finset PodRef → Prop
  | nil {live : Finset PodRef} : Reports live [] live
  | added {live live' : Finset PodRef} {c : WatchCall} {calls : List WatchCall} {r : PodRef} :
      c.eventType = "ADDED" → refOf c.object = some r → Reports (insert r live) calls live' →
      Reports live (c :: calls) live'
  | modified {live live' : Finset PodRef} {c : WatchCall} {calls : List WatchCall} {r : PodRef} :
      c.eventType = "MODIFIED" → refOf c.object = some r → r ∈ live → Reports live calls live' →
      Reports live (c :: calls) live'
  | deleted {live live' : Finset PodRef} {c : WatchCall} {calls : List WatchCall} {r : PodRef} :
      c.eventType = "DELETED" → refOf c.object = some r → r ∈ live →
      Reports (live.erase r) calls live' → Reports live (c :: calls) live'
  | /-- An event about no pod. -/
    unnamed {live live' : Finset PodRef} {c : WatchCall} {calls : List WatchCall} :
      refOf c.object = none → Reports live calls live' → Reports live (c :: calls) live'

/-- One watch session, with what it is about. -/
structure WatchSession (ε : Type*) where
  /-- The attempts since the previous session, of which the last is this one. -/
  attempts : List (Connection ε)
  /-- The pods of the node when the watch is opened. -/
  existing : Finset PodRef
  /-- The calls for the events the session begins with. -/
  initial : List WatchCall
  /-- The calls for the events after these. -/
  later : List WatchCall
  /-- The pods of the node, as far as was reported, when the session breaks off. -/
  remaining : Finset PodRef

/-- What the API server promises: the session begins with an `ADDED` event for each pod that
exists and for no other, and then reports what changes. -/
structure WatchSession.Valid {ε : Type*} (fromSlice : Bytes → Option Value)
    (s : WatchSession ε) : Prop where
  calls : s.attempts.flatMap (Connection.calls fromSlice) = s.initial ++ s.later
  added : ∀ c ∈ s.initial, c.eventType = "ADDED" ∧ ∃ r ∈ s.existing, refOf c.object = some r
  listed : ∀ r ∈ s.existing, ∃ c ∈ s.initial, refOf c.object = some r
  reported : Reports s.existing s.later s.remaining

/-- The pods that exist, as far as was reported, when the last session breaks off. -/
def remainingAfter {ε : Type*} (sessions : List (WatchSession ε)) : Finset PodRef :=
  (sessions.getLast?.map fun s ↦ s.remaining).getD ∅

/-- Every key that is tracked belongs to one of the pods. -/
def Tracks (live : Finset PodRef) (state : WatchState) : Prop :=
  ∀ k ∈ state.keys, ∃ r ∈ live, Owns r k

section Run

variable (timestampOf : String → Option Int) (fromSlice : Bytes → Option Value)

section Calls

variable {live live' : Finset PodRef} {state : WatchState} {c : WatchCall} {r : PodRef}

theorem refOf_eq_none {pod : Value} : refOf pod = none ↔ podOf pod = none := Option.map_eq_none_iff

theorem podOf_of_refOf {pod : Value} (h : refOf pod = some r) : podOf pod = some r.id := by
  obtain ⟨id, hid, rfl⟩ := Option.map_eq_some_iff.mp h
  exact hid

/-- An event about a pod adds keys of this pod only. -/
theorem Tracks.about (h : Tracks live state) (hr : refOf c.object = some r) (hmem : r ∈ live) :
    Tracks live (watchStep timestampOf state c).1 := by
  intro k hk
  by_cases hown : Owns r k
  · exact ⟨r, hmem, hown⟩
  · have hsilent : observationsOf k c.toWatchEvent = [] := observationsOf_eq_nil fun p hp hk ↦ by
      rw [podOf_of_refOf hr, Option.some.injEq] at hp
      exact hown (owns_iff.mpr (hp ▸ hk))
    rw [mem_keys_iff, lookup_watchStep, hsilent, containerRun_nil] at hk
    exact h k (mem_keys_iff.mpr hk)

/-- A deletion removes the keys of its pod. -/
theorem Tracks.deleted (h : Tracks live state) (htype : c.eventType = "DELETED")
    (hr : refOf c.object = some r) : Tracks (live.erase r) (watchStep timestampOf state c).1 := by
  intro k hk
  rw [mem_keys_iff, lookup_watchStep_deletes timestampOf ⟨podOf_of_refOf hr, htype⟩] at hk
  split at hk
  · simp at hk
  · rename_i hpre
    obtain ⟨r', hr', hown⟩ := h k (mem_keys_iff.mpr hk)
    refine ⟨r', Finset.mem_erase.mpr ⟨?_, hr'⟩, hown⟩
    rintro rfl
    exact hpre (owns_iff.mp hown)

theorem Tracks.unnamed (h : Tracks live state) (hr : refOf c.object = none) :
    Tracks live (watchStep timestampOf state c).1 := by
  rw [watchStep, diffWatchEvent_unnamed _ (podOf_eq_none.mp (refOf_eq_none.mp hr))]
  exact h

theorem Tracks.mono (h : Tracks live state) (hsub : live ⊆ live') : Tracks live' state :=
  fun k hk ↦ (h k hk).imp fun _ hr ↦ ⟨hsub hr.1, hr.2⟩

/-- What is reported is what is tracked. -/
theorem Tracks.reports {calls : List WatchCall} (hreports : Reports live calls live')
    (h : Tracks live state) : Tracks live' (watchRun timestampOf state calls).1 := by
  induction hreports generalizing state with
  | nil => exact h
  | @added live live' c calls r _ hr _ ih =>
      have hlive : Tracks (insert r live) state := h.mono (Finset.subset_insert r live)
      exact ih (hlive.about timestampOf hr (Finset.mem_insert_self r live))
  | modified _ hr hmem _ ih => exact ih (h.about timestampOf hr hmem)
  | deleted htype hr _ _ ih => exact ih (h.deleted timestampOf htype hr)
  | unnamed hr _ ih => exact ih (h.unnamed timestampOf hr)

/-- Showing pods that exist tracks these pods only. -/
theorem Tracks.initial {calls : List WatchCall} (h : Tracks live state)
    (hcalls : ∀ c ∈ calls, c.eventType = "ADDED" ∧ ∃ r ∈ live, refOf c.object = some r) :
    Tracks live (watchRun timestampOf state calls).1 := by
  induction calls generalizing state with
  | nil => exact h
  | cons c calls ih =>
      obtain ⟨-, r, hmem, hr⟩ := hcalls c List.mem_cons_self
      exact ih (h.about timestampOf hr hmem) fun d hd ↦ hcalls d (List.mem_cons_of_mem c hd)

/-- Showing pods emits no `destroy`. -/
theorem action_ne_destroy {calls : List WatchCall} (hcalls : ∀ c ∈ calls, c.eventType = "ADDED")
    {e : AgentEvent} (he : e ∈ (watchRun timestampOf state calls).2) : e.action ≠ .destroy := by
  obtain ⟨state, c, hc, he⟩ := Machine.exists_step_of_mem_run _ he
  have htype : c.eventType ≠ "DELETED" := by rw [hcalls c hc]; decide
  by_cases hpod : podNamespace c.object = "" ∨ podName c.object = ""
  · rw [watchStep, diffWatchEvent_unnamed _ hpod] at he
    simp at he
  · rw [watchStep, diffWatchEvent_shown _ hpod htype] at he
    obtain ⟨state, cs, -, he⟩ := Machine.exists_step_of_mem_run _ he
    unfold statusStep at he
    split at he
    · simp at he
    · obtain ⟨a, attrs, t, ha, rfl⟩ := mem_statusEvents timestampOf he
      exact ha

end Calls

/-! ## Sessions -/

variable {ε : Type*}

/-- The watch state that a sequence of sessions leaves. -/
def stateAfter (sessions : List (WatchSession ε)) : WatchState :=
  (runEvents timestampOf fromSlice .init (sessions.flatMap fun s ↦ s.attempts)).1.state

/-- After its initial events the session is in sync: every key belongs to a pod that exists, and
of every container tracked before the gap whose pod was deleted in it one `destroy` was emitted. -/
def Synced (before : List (WatchSession ε)) (s : WatchSession ε) : Prop :=
  let state := stateAfter timestampOf fromSlice before
  let sync := watchRun timestampOf state s.initial
  Tracks s.existing sync.1 ∧
    ∀ k ∈ state.keys, ∀ r ∈ remainingAfter before, Owns r k → r ∉ s.existing →
      (sync.2.filter fun e ↦ e.actor.id = k ∧ e.action = .destroy).length = 1

/-- No pod with a tracked container was deleted in the gap before the session. -/
def KeepsTracked (before : List (WatchSession ε)) (s : WatchSession ε) : Prop :=
  ∀ k ∈ (stateAfter timestampOf fromSlice before).keys, ∀ r ∈ remainingAfter before,
    Owns r k → r ∈ s.existing

theorem stateAfter_concat (before : List (WatchSession ε)) {s : WatchSession ε}
    (hs : s.Valid fromSlice) :
    stateAfter timestampOf fromSlice (before ++ [s]) =
      (watchRun timestampOf (stateAfter timestampOf fromSlice before)
        (s.initial ++ s.later)).1 := by
  simp only [stateAfter, (runEvents_eq timestampOf fromSlice _ _).1, List.flatMap_append,
    List.flatMap_singleton, watchRun_append, hs.calls]

/-- A session after a gap that keeps what is tracked is in sync. -/
theorem tracks_initial {before : List (WatchSession ε)} {s : WatchSession ε}
    (hs : s.Valid fromSlice)
    (hbefore : Tracks (remainingAfter before) (stateAfter timestampOf fromSlice before))
    (hkeeps : KeepsTracked timestampOf fromSlice before s) :
    Tracks s.existing
      (watchRun timestampOf (stateAfter timestampOf fromSlice before) s.initial).1 := by
  refine Tracks.initial timestampOf (fun k hk ↦ ?_) hs.added
  obtain ⟨r, hr, hown⟩ := hbefore k hk
  exact ⟨r, hkeeps k hk r hr hown, hown⟩

/-- If no gap deletes a pod with a tracked container, the keys tracked belong to the pods that
remain. -/
theorem tracks_remaining {sessions : List (WatchSession ε)}
    (hsessions : ∀ s ∈ sessions, s.Valid fromSlice)
    (hkeeps : ∀ before s, before ++ [s] <+: sessions →
      KeepsTracked timestampOf fromSlice before s) :
    Tracks (remainingAfter sessions) (stateAfter timestampOf fromSlice sessions) := by
  induction sessions using List.reverseRecOn with
  | nil =>
      intro k hk
      simp [stateAfter, runEvents, EventLoop.init] at hk
  | append_singleton before s ih =>
      have hs : s.Valid fromSlice := hsessions s (by simp)
      have hbefore := ih (fun d hd ↦ hsessions d (List.mem_append_left _ hd)) fun l d hpre ↦
        hkeeps l d (hpre.trans (List.prefix_append _ _))
      have hsync := tracks_initial timestampOf fromSlice hs hbefore
        (hkeeps before s (List.prefix_refl _))
      have hremaining : remainingAfter (before ++ [s]) = s.remaining := by simp [remainingAfter]
      rw [stateAfter_concat timestampOf fromSlice before hs, watchRun_append, hremaining]
      exact hsync.reports timestampOf hs.reported

/-- **When nothing is lost across reconnects.**  In every run of `run_events`, each session is in
sync once its initial events have been applied exactly if no gap deletes a pod with a tracked
container. -/
theorem synced_iff (sessions : List (WatchSession ε))
    (hsessions : ∀ s ∈ sessions, s.Valid fromSlice) :
    (∀ before s, before ++ [s] <+: sessions → Synced timestampOf fromSlice before s) ↔
      ∀ before s, before ++ [s] <+: sessions → KeepsTracked timestampOf fromSlice before s := by
  constructor
  · intro h before s hpre k hk r hr hown
    by_contra hgone
    -- the `destroy` which is owed would have to come from an `ADDED` event
    have hone := (h before s hpre).2 k hk r hr hown hgone
    have hs : s.Valid fromSlice := hsessions s (hpre.subset (by simp))
    rw [List.filter_eq_nil_iff.mpr fun e he ↦ ?_] at hone
    · simp at hone
    · have hne := action_ne_destroy timestampOf (fun c hc ↦ (hs.added c hc).1) he
      simp [hne]
  · intro h before s hpre
    have hs : s.Valid fromSlice := hsessions s (hpre.subset (by simp))
    have hbefore := tracks_remaining timestampOf fromSlice
      (fun d hd ↦ hsessions d (hpre.subset (List.mem_append_left _ hd))) fun l d hl ↦
        h l d (hl.trans ((List.prefix_append _ _).trans hpre))
    refine ⟨tracks_initial timestampOf fromSlice hs hbefore (h before s hpre),
      fun k hk r hr hown hgone ↦ absurd (h before s hpre k hk r hr hown) hgone⟩

/-! ## A pod that is deleted while nobody is watching -/

/-- A pod with one running container. -/
def webPod : Value :=
  .object [
    ("metadata", .object [("namespace", .string "prod"), ("name", .string "web-1"),
      ("uid", .string "5f3a")]),
    ("status", .object [("containerStatuses",
      .array [statusObject "web" 0 (runningSince "2026-07-13T10:00:00Z")])])]

/-- A line of the watch that shows the pod, in pieces. -/
@[irreducible] def webLine : Bytes :=
  ["\x7b\"type\":", "\"ADDED\",", "\"object\":\x7b", "\"metadata\":\x7b", "\"namespace\":",
    "\"prod\",", "\"name\":", "\"web-1\",", "\"uid\":", "\"5f3a\"\x7d,", "\"status\":\x7b",
    "\"containerS", "tatuses\":[\x7b", "\"name\":", "\"web\",", "\"restartCo", "unt\":0,",
    "\"state\":\x7b", "\"running\":\x7b", "\"startedAt\":", "\"2026-07-13", "T10:00:00Z\"",
    "\x7d\x7d\x7d]\x7d\x7d\x7d"].flatMap fun piece ↦
      piece.toList.map fun c ↦ UInt8.ofNat c.toNat

/-- A parser that knows this line. -/
def parseWeb (line : Bytes) : Option Value :=
  if line = webLine then some (.object [("type", .string "ADDED"), ("object", webPod)]) else none

noncomputable def webAmbient : Ambient where
  now _ := 1783937000
  order _ := .unspecified

/-- A session that finds the pod, and breaks off. -/
noncomputable def webSession : WatchSession Unit where
  attempts := [⟨.ok [.ok (webLine ++ [newline])], webAmbient⟩]
  existing := {⟨"5f3a", ⟨"prod", "web-1"⟩⟩}
  initial := [⟨⟨"ADDED", webPod, 1783937000⟩, .unspecified⟩]
  later := []
  remaining := {⟨"5f3a", ⟨"prod", "web-1"⟩⟩}

/-- A session that finds no pod. -/
noncomputable def emptySession : WatchSession Unit where
  attempts := [⟨.ok [], webAmbient⟩]
  existing := ∅
  initial := []
  later := []
  remaining := ∅

/-- The line gives the call that shows the pod. -/
theorem lineCall_webLine :
    lineCall parseWeb webAmbient 0 webLine =
      some ⟨⟨"ADDED", webPod, 1783937000⟩, .unspecified⟩ := by
  have hblank : webLine.all isAsciiWhitespace = false := by decide +kernel
  have hparse : parseWeb webLine =
      some (.object [("type", .string "ADDED"), ("object", webPod)]) := if_pos rfl
  simp only [lineCall, hblank, hparse]
  rfl

theorem webSession_valid : webSession.Valid parseWeb where
  calls := by
    have hlines : Machine.lines newline (webLine ++ [newline]) = [webLine] :=
      Machine.lines_cons (by decide +kernel)
    show lineCalls parseWeb webAmbient 0 (Machine.lines newline (webLine ++ [newline] ++ [])) ++ []
      = _
    rw [List.append_nil, List.append_nil, hlines, lineCalls, List.zipIdx_singleton,
      List.filterMap_cons, lineCall_webLine]
    rfl
  added := by decide
  listed := by decide
  reported := .nil

theorem emptySession_valid : emptySession.Valid parseWeb where
  calls := rfl
  added := by decide
  listed := by decide
  reported := .nil

/-- A pod is deleted while nobody is watching: the agent goes on tracking its container, and has
emitted no `destroy` for it. -/
theorem deleted_in_gap_lost :
    (∀ s ∈ [webSession, emptySession], s.Valid parseWeb) ∧
      ¬∀ before s, before ++ [s] <+: [webSession, emptySession] →
        Synced someTimestamps parseWeb before s := by
  refine ⟨fun s hs ↦ ?_, fun h ↦ ?_⟩
  · rcases List.mem_pair.mp hs with rfl | rfl
    · exact webSession_valid
    · exact emptySession_valid
  · have hstate : stateAfter someTimestamps parseWeb [webSession] =
        (watchRun someTimestamps ∅ webSession.initial).1 :=
      stateAfter_concat someTimestamps parseWeb [] webSession_valid
    have hkey : "prod/web-1/web" ∈ (stateAfter someTimestamps parseWeb [webSession]).keys := by
      rw [hstate, mem_keys_iff]
      decide
    obtain ⟨r, hr, -⟩ := (h [webSession] emptySession (List.prefix_refl _)).1 _ hkey
    simp [emptySession] at hr

/-- A pod that is still there after the gap is not lost. -/
theorem synced_iff_web :
    (∀ before s, before ++ [s] <+: [webSession, webSession] →
        Synced someTimestamps parseWeb before s) ↔
      ∀ before s, before ++ [s] <+: [webSession, webSession] →
        KeepsTracked someTimestamps parseWeb before s := by
  apply synced_iff someTimestamps parseWeb [webSession, webSession]
  intro s hs
  rcases List.mem_pair.mp hs with rfl | rfl <;> exact webSession_valid

end Run

end Swarmagent.Kubernetes
