import Swarmagent.Kubernetes.Key

/-!
# Deletion is exact

When a pod is deleted the agent emits one `destroy` for every container it ever listed since the
pod was last deleted, and forgets exactly those.  The agent decides this by a prefix test on the
keys of its state, so the argument needs to know which keys a run can have put there.  That is
`tracksListed_watchRun`: a key is tracked exactly if it is that of a container listed since its
pod's last deletion.
-/

namespace Swarmagent.Kubernetes

open Swarmagent.Json Swarmagent.Rust

/-- The event deletes the pod. -/
def Deletes (e : WatchEvent) (p : PodId) : Prop :=
  podOf e.object = some p ∧ e.eventType = "DELETED"

/-- The event is about the pod, does not delete it and lists the container, which has a name. -/
def Lists (e : WatchEvent) (p : PodId) (container : String) : Prop :=
  podOf e.object = some p ∧ e.eventType ≠ "DELETED" ∧ container ∈ listedNames e.object

instance (e : WatchEvent) (p : PodId) : Decidable (Deletes e p) :=
  inferInstanceAs (Decidable (_ ∧ _))

instance (e : WatchEvent) (p : PodId) (container : String) : Decidable (Lists e p container) :=
  inferInstanceAs (Decidable (_ ∧ _ ∧ _))

/-- The container was listed since the pod's last deletion, or since the start of the run. -/
def ListedSince (p : PodId) (calls : List WatchCall) (container : String) : Prop :=
  ∃ before c after, calls = before ++ c :: after ∧ Lists c.toWatchEvent p container ∧
    ∀ d ∈ after, ¬Deletes d.toWatchEvent p

/-- The `destroy` of a container of a pod. -/
def destroyOf (p : PodId) (container : String) (now : Int) : AgentEvent :=
  event .destroy (p.containerKey container) (baseAttributes p.ns p.name container) now

theorem listedSince_nil (p : PodId) (container : String) : ¬ListedSince p [] container := by
  rintro ⟨before, c, after, h, -⟩
  simp at h

/-- A container is listed since the last deletion if the last event lists it, or if it was listed
before and the last event is no deletion. -/
theorem listedSince_concat {p : PodId} {calls : List WatchCall} {c : WatchCall}
    {container : String} :
    ListedSince p (calls ++ [c]) container ↔
      Lists c.toWatchEvent p container ∨
        ListedSince p calls container ∧ ¬Deletes c.toWatchEvent p := by
  constructor
  · rintro ⟨before, d, after, heq, hlists, hafter⟩
    rcases List.eq_nil_or_concat' after with rfl | ⟨after, d', rfl⟩
    · obtain ⟨-, hcd⟩ := List.append_inj' heq rfl
      rw [List.cons.injEq] at hcd
      exact Or.inl (hcd.1 ▸ hlists)
    · rw [← List.cons_append, ← List.append_assoc] at heq
      obtain ⟨rfl, hcd⟩ := List.append_inj' heq rfl
      rw [List.cons.injEq] at hcd
      exact Or.inr ⟨⟨before, d, after, rfl, hlists, fun x hx ↦
        hafter x (List.mem_append_left _ hx)⟩, hcd.1 ▸ hafter d' (by simp)⟩
  · rintro (hlists | ⟨⟨before, d, after, rfl, hlists, hafter⟩, hc⟩)
    · exact ⟨calls, c, [], rfl, hlists, by simp⟩
    · refine ⟨before, d, after ++ [c], by simp, hlists, fun x hx ↦ ?_⟩
      rcases List.mem_append.mp hx with hx | hx
      · exact hafter x hx
      · exact List.mem_singleton.mp hx ▸ hc

/-- Once a pod is deleted, none of its containers is listed until one is listed anew. -/
theorem not_listedSince_append {p : PodId} {calls others : List WatchCall} {d : WatchCall}
    (hd : Deletes d.toWatchEvent p)
    (hothers : ∀ c ∈ others, ∀ container, ¬Lists c.toWatchEvent p container) (container : String) :
    ¬ListedSince p (calls ++ [d] ++ others) container := by
  induction others using List.reverseRecOn with
  | nil =>
      rw [List.append_nil, listedSince_concat]
      rintro (h | h)
      · exact h.2.1 hd.2
      · exact h.2 hd
  | append_singleton others c ih =>
      rw [← List.append_assoc, listedSince_concat]
      rintro (h | h)
      · exact hothers c (by simp) container h
      · exact ih (fun x hx ↦ hothers x (List.mem_append_left _ hx)) h.1

section Run

variable (timestampOf : String → Option Int)

/-! ## Which keys a run can have put into the state -/

/-- A container that is shown statuses only is tracked if it was before, or if it is shown. -/
theorem isSome_containerRun {k : String} {prev : Option TrackedContainer} {ns pod : String}
    {now : Int} (statuses : List Value) :
    (containerRun timestampOf k prev
        (statuses.flatMap (statusObservation k ns pod now))).1.isSome = true ↔
      prev.isSome = true ∨
        ∃ cs ∈ statuses, statusName cs ≠ "" ∧ podPrefix ns pod ++ statusName cs = k := by
  induction statuses generalizing prev with
  | nil => simp
  | cons cs statuses ih =>
      rw [List.flatMap_cons, containerRun_append]
      simp only [ih, List.mem_cons, exists_eq_or_imp]
      by_cases hcs : statusName cs ≠ "" ∧ podPrefix ns pod ++ statusName cs = k
      · have hshown : (containerRun timestampOf k prev (statusObservation k ns pod now cs)).1 =
            some (tracked cs) := by
          rw [statusObservation, if_pos hcs]
          rfl
        simp [hshown, hcs]
      · have hsilent : (containerRun timestampOf k prev (statusObservation k ns pod now cs)).1 =
            prev := by
          rw [statusObservation, if_neg hcs]
          rfl
        simp only [hsilent, hcs, false_or]

/-- What one call does to a key of a pod that is still there. -/
theorem isSome_lookup_watchStep {state : WatchState} {c : WatchCall} {p : PodId} {k : String}
    (hp : podOf c.object = some p) (htype : c.eventType ≠ "DELETED") :
    ((watchStep timestampOf state c).1.lookup k).isSome = true ↔
      (state.lookup k).isSome = true ∨
        ∃ container ∈ listedNames c.object, p.containerKey container = k := by
  rw [lookup_watchStep, observationsOf_pod_shown hp htype, isSome_containerRun]
  refine or_congr_right ⟨?_, ?_⟩
  · rintro ⟨cs, hcs, hname, hk⟩
    exact ⟨statusName cs, List.mem_filter.mpr ⟨List.mem_map_of_mem hcs, by simpa using hname⟩, hk⟩
  · rintro ⟨container, hmem, hk⟩
    obtain ⟨hmap, hname⟩ := List.mem_filter.mp hmem
    obtain ⟨cs, hcs, rfl⟩ := List.mem_map.mp hmap
    exact ⟨cs, hcs, by simpa using hname, hk⟩

/-- A deletion forgets every key with the pod's prefix and no other. -/
theorem lookup_watchStep_deletes {state : WatchState} {c : WatchCall} {p : PodId}
    (hc : Deletes c.toWatchEvent p) (k : String) :
    (watchStep timestampOf state c).1.lookup k =
      if startsWith k p.keyPrefix then none else state.lookup k := by
  rw [lookup_watchStep, observationsOf_pod_deleted hc.1 hc.2]
  split <;> rfl

/-- The keys tracked are those of the containers listed since their pod's last deletion. -/
def TracksListed (calls : List WatchCall) (state : WatchState) : Prop :=
  ∀ k, (state.lookup k).isSome = true ↔
    ∃ p container, p.SlashFree ∧ SlashFree container ∧ k = p.containerKey container ∧
      ListedSince p calls container

section Step

variable {calls : List WatchCall} {state : WatchState} {c : WatchCall} {q : PodId}

/-- An object that is no pod is neither listed nor tracked. -/
theorem TracksListed.unnamed (h : TracksListed calls state) (hpod : podOf c.object = none) :
    TracksListed (calls ++ [c]) (watchStep timestampOf state c).1 := by
  have hdel : ∀ p, ¬Deletes c.toWatchEvent p := fun p hp ↦ by simp [Deletes, hpod] at hp
  have hlist : ∀ p n, ¬Lists c.toWatchEvent p n := fun p n hp ↦ by simp [Lists, hpod] at hp
  have hstep : (watchStep timestampOf state c).1 = state := by
    rw [watchStep, diffWatchEvent_unnamed _ (podOf_eq_none.mp hpod)]
  intro k
  simp only [hstep, h k, listedSince_concat, hdel, hlist, false_or, not_false_eq_true, and_true]

/-- A deletion drops the keys of its pod, whose containers are no longer listed. -/
theorem TracksListed.deleted (h : TracksListed calls state) (hpod : podOf c.object = some q)
    (hq : q.SlashFree) (htype : c.eventType = "DELETED") :
    TracksListed (calls ++ [c]) (watchStep timestampOf state c).1 := by
  have hdel : ∀ p, Deletes c.toWatchEvent p ↔ p = q := fun p ↦ by
    simp [Deletes, hpod, htype, eq_comm]
  have hlist : ∀ p n, ¬Lists c.toWatchEvent p n := fun p n hp ↦ hp.2.1 htype
  intro k
  rw [lookup_watchStep_deletes timestampOf ((hdel q).mpr rfl) k]
  simp only [listedSince_concat, hdel, hlist, false_or]
  split
  · rename_i hk
    simp only [Option.isSome_none, Bool.false_eq_true, false_iff]
    rintro ⟨p, n, hp, -, rfl, -, hne⟩
    exact hne (PodId.eq_of_startsWith hp hq (p.startsWith_containerKey n) hk)
  · rename_i hk
    rw [h k]
    refine exists_congr fun p ↦ exists_congr fun n ↦ and_congr_right fun _ ↦
      and_congr_right fun _ ↦ and_congr_right fun hkey ↦ ⟨fun hl ↦ ⟨hl, fun hpq ↦ hk ?_⟩, And.left⟩
    rw [hkey, hpq]
    exact q.startsWith_containerKey n

/-- Any other event tracks what it lists and keeps the rest. -/
theorem TracksListed.shown (h : TracksListed calls state) (hpod : podOf c.object = some q)
    (hslash : SlashFreeNames c.object) (htype : c.eventType ≠ "DELETED") :
    TracksListed (calls ++ [c]) (watchStep timestampOf state c).1 := by
  have hdel : ∀ p, ¬Deletes c.toWatchEvent p := fun p hp ↦ htype hp.2
  have hlist : ∀ p n, Lists c.toWatchEvent p n ↔ p = q ∧ n ∈ listedNames c.object :=
    fun p n ↦ by simp [Lists, hpod, htype, eq_comm]
  intro k
  rw [isSome_lookup_watchStep timestampOf hpod htype, h k]
  simp only [listedSince_concat, hdel, hlist, not_false_eq_true, and_true]
  constructor
  · rintro (⟨p, n, hp, hn, hkey, hl⟩ | ⟨n, hmem, rfl⟩)
    · exact ⟨p, n, hp, hn, hkey, Or.inr hl⟩
    · obtain ⟨cs, hcs, rfl⟩ := List.mem_map.mp (List.mem_filter.mp hmem).1
      exact ⟨q, statusName cs, hslash.1.podOf hpod, hslash.2 cs hcs, rfl, Or.inl ⟨rfl, hmem⟩⟩
  · rintro ⟨p, n, hp, hn, rfl, ⟨rfl, hmem⟩ | hl⟩
    · exact Or.inr ⟨n, hmem, rfl⟩
    · exact Or.inl ⟨p, n, hp, hn, rfl, hl⟩

end Step

/-- **What is tracked.**  After a run from the empty state, the keys tracked are those of the
containers listed since their pod's last deletion. -/
theorem tracksListed_watchRun {calls : List WatchCall}
    (hslash : ∀ c ∈ calls, SlashFreeNames c.object) :
    TracksListed calls (watchRun timestampOf ∅ calls).1 := by
  induction calls using List.reverseRecOn with
  | nil =>
      intro k
      simp only [watchRun_nil, Finmap.lookup_empty, Option.isSome_none, Bool.false_eq_true,
        false_iff]
      rintro ⟨p, container, -, -, -, h⟩
      exact listedSince_nil p container h
  | append_singleton calls c ih =>
      have hc := hslash c (by simp)
      have ih := ih fun d hd ↦ hslash d (List.mem_append_left _ hd)
      rw [watchRun_concat]
      cases hpod : podOf c.object with
      | none => exact ih.unnamed timestampOf hpod
      | some q =>
          by_cases htype : c.eventType = "DELETED"
          · exact ih.deleted timestampOf hpod (hc.1.podOf hpod) htype
          · exact ih.shown timestampOf hpod hc htype

/-- The tracked keys with the prefix of a pod are those of its listed containers. -/
theorem mem_deletedKeys_iff {calls : List WatchCall} (hslash : ∀ c ∈ calls, SlashFreeNames c.object)
    {p : PodId} (hp : p.SlashFree) (order : KeyOrder) (k : String) :
    k ∈ deletedKeys order (watchRun timestampOf ∅ calls).1 p.keyPrefix ↔
      ∃ container, SlashFree container ∧ k = p.containerKey container ∧
        ListedSince p calls container := by
  rw [mem_deletedKeys, tracksListed_watchRun timestampOf hslash k]
  constructor
  · rintro ⟨⟨q, n, hq, hn, rfl, hl⟩, hk⟩
    obtain rfl := PodId.eq_of_startsWith hq hp (q.startsWith_containerKey n) hk
    exact ⟨n, hn, rfl, hl⟩
  · rintro ⟨n, hn, rfl, hl⟩
    exact ⟨⟨p, n, hp, hn, rfl, hl⟩, p.startsWith_containerKey n⟩

/-! ## What a deletion emits -/

/-- The `destroy` emitted for a key of the pod names the container. -/
theorem destroyed_containerKey (p : PodId) {container : String} (hc : SlashFree container)
    (now : Int) :
    destroyed p.ns p.name now (p.containerKey container) = destroyOf p container now := by
  rw [destroyed, p.rsplitNext_containerKey hc]
  rfl

/-- What a deletion emits, in terms of the keys it visits. -/
theorem watchStep_deletes {state : WatchState} {c : WatchCall} {p : PodId}
    (hc : Deletes c.toWatchEvent p) :
    (watchStep timestampOf state c).2 =
      (deletedKeys c.order state p.keyPrefix).map (destroyed p.ns p.name c.now) := by
  obtain ⟨hpod, hns, hname⟩ := podOf_eq_some.mp hc.1
  rw [watchStep, diffWatchEvent_deleted _ hpod hc.2, destroyRun_output, hns, hname]
  rfl

/-- A deletion after a run emits exactly the `destroy`s of the containers listed. -/
theorem mem_watchStep_deletes {calls : List WatchCall}
    (hslash : ∀ c ∈ calls, SlashFreeNames c.object) {d : WatchCall} {p : PodId} (hp : p.SlashFree)
    (hd : Deletes d.toWatchEvent p) (e : AgentEvent) :
    e ∈ (watchStep timestampOf (watchRun timestampOf ∅ calls).1 d).2 ↔
      ∃ container, SlashFree container ∧ ListedSince p calls container ∧
        e = destroyOf p container d.now := by
  rw [watchStep_deletes timestampOf hd, List.mem_map]
  simp only [mem_deletedKeys_iff timestampOf hslash hp]
  constructor
  · rintro ⟨k, ⟨n, hn, rfl, hl⟩, rfl⟩
    exact ⟨n, hn, hl, destroyed_containerKey p hn d.now⟩
  · rintro ⟨n, hn, hl, rfl⟩
    exact ⟨p.containerKey n, ⟨n, hn, rfl, hl⟩, destroyed_containerKey p hn d.now⟩

/-- A listed container is named without `/` if all are. -/
theorem ListedSince.slashFree {calls : List WatchCall}
    (hslash : ∀ c ∈ calls, SlashFreeNames c.object) {p : PodId} {container : String}
    (h : ListedSince p calls container) : SlashFree container := by
  obtain ⟨before, c, after, rfl, ⟨-, -, hmem⟩, -⟩ := h
  obtain ⟨cs, hcs, rfl⟩ := List.mem_map.mp (List.mem_filter.mp hmem).1
  exact (hslash c (by simp)).2 cs hcs

/-- No two events of a deletion are equal. -/
theorem nodup_watchStep_deletes {state : WatchState} {d : WatchCall} {p : PodId}
    (hd : Deletes d.toWatchEvent p) : (watchStep timestampOf state d).2.Nodup := by
  rw [watchStep_deletes timestampOf hd]
  apply (nodup_deletedKeys d.order state p.keyPrefix).map
  intro k k' h
  exact congrArg (fun e ↦ e.actor.id) h

/-- The keys a deletion removes. -/
theorem mem_keys_deletes_iff {calls : List WatchCall}
    (hslash : ∀ c ∈ calls, SlashFreeNames c.object) {d : WatchCall} {p : PodId} (hp : p.SlashFree)
    (hd : Deletes d.toWatchEvent p) (k : String) :
    k ∈ (watchRun timestampOf ∅ calls).1.keys ∧
        k ∉ (watchStep timestampOf (watchRun timestampOf ∅ calls).1 d).1.keys ↔
      ∃ container, ListedSince p calls container ∧ k = p.containerKey container := by
  rw [mem_keys_iff, mem_keys_iff, lookup_watchStep_deletes timestampOf hd]
  constructor
  · rintro ⟨hbefore, hgone⟩
    have hk : startsWith k p.keyPrefix = true := by
      by_contra hk
      rw [if_neg hk] at hgone
      exact hgone hbefore
    obtain ⟨q, n, hq, -, rfl, hl⟩ := (tracksListed_watchRun timestampOf hslash k).mp hbefore
    obtain rfl := PodId.eq_of_startsWith hq hp (q.startsWith_containerKey n) hk
    exact ⟨n, hl, rfl⟩
  · rintro ⟨n, hl, rfl⟩
    refine ⟨(tracksListed_watchRun timestampOf hslash _).mpr
      ⟨p, n, hp, hl.slashFree hslash, rfl, hl⟩, ?_⟩
    rw [if_pos (p.startsWith_containerKey n)]
    simp

/-- A deletion of a pod none of whose containers is listed does nothing. -/
theorem watchStep_deletes_silent {calls : List WatchCall}
    (hslash : ∀ c ∈ calls, SlashFreeNames c.object) {d : WatchCall} {p : PodId} (hp : p.SlashFree)
    (hd : Deletes d.toWatchEvent p) (hnone : ∀ container, ¬ListedSince p calls container) :
    watchStep timestampOf (watchRun timestampOf ∅ calls).1 d =
      ((watchRun timestampOf ∅ calls).1, []) := by
  obtain ⟨hpod, hns, hname⟩ := podOf_eq_some.mp hd.1
  have hkeys : deletedKeys d.order (watchRun timestampOf ∅ calls).1 p.keyPrefix = [] := by
    apply List.eq_nil_iff_forall_not_mem.mpr
    intro k hk
    obtain ⟨n, -, -, hl⟩ := (mem_deletedKeys_iff timestampOf hslash hp d.order k).mp hk
    exact hnone n hl
  rw [watchStep, diffWatchEvent_deleted _ hpod hd.2, hns, hname]
  change Machine.run _ _ (deletedKeys d.order _ p.keyPrefix) = _
  rw [hkeys, Machine.run_nil]

/-- **Deletion is exact.**  In every run from the empty state over events whose namespace, pod and
container names have no `/`, a deletion of a pod

* emits one `destroy`, and nothing else, for each container listed since the pod's previous
  deletion, with the container's key as `Actor.ID` and its name as `name` attribute;
* removes the keys of exactly these containers and changes no other entry;
* leaves the entries of every other pod as they are;
* makes any further deletion of the pod, before a container of it is listed again, emit nothing
  and change nothing. -/
theorem watchRun_deletion_exact (calls : List WatchCall) (d : WatchCall) (p : PodId)
    (hslash : ∀ c ∈ calls ++ [d], SlashFreeNames c.object) (hd : Deletes d.toWatchEvent p) :
    let before := (watchRun timestampOf ∅ calls).1
    let step := watchStep timestampOf before d
    (step.2.Nodup ∧
        ∀ e, e ∈ step.2 ↔
          ∃ container, ListedSince p calls container ∧ e = destroyOf p container d.now) ∧
      (∀ container, (destroyOf p container d.now).actor.id =
          p.ns ++ "/" ++ p.name ++ "/" ++ container ∧
        (destroyOf p container d.now).actor.attributes.lookup "name" = some container) ∧
      (∀ k, k ∈ before.keys ∧ k ∉ step.1.keys ↔
        ∃ container, ListedSince p calls container ∧ k = p.containerKey container) ∧
      (∀ k ∈ step.1.keys, step.1.lookup k = before.lookup k) ∧
      (∀ q : PodId, q.SlashFree → q ≠ p →
        ∀ container, step.1.lookup (q.containerKey container) =
          before.lookup (q.containerKey container)) ∧
      ∀ others : List WatchCall, (∀ c ∈ others, SlashFreeNames c.object) →
        (∀ c ∈ others, ∀ container, ¬Lists c.toWatchEvent p container) →
        ∀ d' : WatchCall, Deletes d'.toWatchEvent p →
          let after := (watchRun timestampOf step.1 others).1
          watchStep timestampOf after d' = (after, []) := by
  have hcalls : ∀ c ∈ calls, SlashFreeNames c.object :=
    fun c hc ↦ hslash c (List.mem_append_left _ hc)
  have hp : p.SlashFree := (hslash d (by simp)).1.podOf hd.1
  have hlookup : ∀ k, (watchStep timestampOf (watchRun timestampOf ∅ calls).1 d).1.lookup k =
      if startsWith k p.keyPrefix then none else (watchRun timestampOf ∅ calls).1.lookup k :=
    lookup_watchStep_deletes timestampOf hd
  intro before step
  refine ⟨⟨nodup_watchStep_deletes timestampOf hd, fun e ↦ ?_⟩, fun n ↦ ⟨rfl, ?_⟩,
    mem_keys_deletes_iff timestampOf hcalls hp hd, fun k hk ↦ ?_, fun q hq hne n ↦ ?_,
    fun others hothers hquiet d' hd' ↦ ?_⟩
  · rw [mem_watchStep_deletes timestampOf hcalls hp hd]
    exact exists_congr fun n ↦ ⟨fun h ↦ h.2, fun h ↦ ⟨h.1.slashFree hcalls, h⟩⟩
  · exact (lookup_baseAttributes _ _ _ _).trans (by simp)
  · rw [mem_keys_iff] at hk
    rw [hlookup] at hk ⊢
    split at hk
    · simp at hk
    · rename_i hpre
      rw [if_neg hpre]
  · rw [hlookup, if_neg]
    exact fun hk ↦ hne (PodId.eq_of_startsWith hq hp (q.startsWith_containerKey n) hk)
  · have hafter : (watchRun timestampOf step.1 others).1 =
        (watchRun timestampOf ∅ (calls ++ [d] ++ others)).1 := by
      rw [watchRun_append, watchRun_concat]
    have hall : ∀ c ∈ calls ++ [d] ++ others, SlashFreeNames c.object := fun c hc ↦
      (List.mem_append.mp hc).elim (hslash c) (hothers c)
    rw [hafter]
    exact watchStep_deletes_silent timestampOf hall hp hd' (not_listedSince_append hd hquiet)

/-- `web-1` is deleted while `web-10`, whose name extends it, stays. -/
theorem watchRun_deletion_exact_web :
    let web := [statusObject "web" 0 (runningSince "2026-07-13T10:00:00Z")]
    let c : WatchCall := ⟨⟨"ADDED", podObject "prod" "web-1" web, 1783937000⟩, .unspecified⟩
    let c' : WatchCall := ⟨⟨"ADDED", podObject "prod" "web-10" web, 1783937001⟩, .unspecified⟩
    let d : WatchCall := ⟨⟨"DELETED", podObject "prod" "web-1" web, 1783937002⟩, .unspecified⟩
    let before := (watchRun someTimestamps ∅ [c, c']).1
    destroyOf ⟨"prod", "web-1"⟩ "web" 1783937002 ∈ (watchStep someTimestamps before d).2 ∧
      (watchStep someTimestamps before d).1.lookup "prod/web-10/web" =
        before.lookup "prod/web-10/web" := by
  intro web c c' d before
  have hd : Deletes d.toWatchEvent ⟨"prod", "web-1"⟩ := by decide
  obtain ⟨⟨-, hemits⟩, -, -, -, hothers, -⟩ :=
    watchRun_deletion_exact someTimestamps [c, c'] d ⟨"prod", "web-1"⟩ (by decide) hd
  refine ⟨(hemits _).mpr ⟨"web", ⟨[], c, [c'], rfl, by decide, by decide⟩, rfl⟩, ?_⟩
  exact hothers ⟨"prod", "web-10"⟩ (by decide) (by decide) "web"

end Run

end Swarmagent.Kubernetes
