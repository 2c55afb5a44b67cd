import Swarmagent.Kubernetes.Key

/-!
# Pods do not interfere

The watch stream interleaves the events of all pods of a node.  Which interleaving the API server
happens to send makes no difference to the agent: a container sees the events of its own pod only
(`observations_eq_perPod`), so two streams that agree pod by pod leave the same watch state and
emit the same events about every container.

The map order `KeyOrder` is not part of what has to agree.  It may differ from call to call and
between the two runs, which is how Rust's `HashMap` behaves.
-/

namespace Swarmagent.Kubernetes

open Swarmagent.Json Swarmagent.Rust

/-- The events of a pod, in order. -/
def perPod (p : PodId) (calls : List WatchCall) : List WatchEvent :=
  (calls.map fun c ↦ c.toWatchEvent).filter fun e ↦ podOf e.object = some p

theorem perPod_cons (p : PodId) (c : WatchCall) (calls : List WatchCall) :
    perPod p (c :: calls) =
      if podOf c.object = some p then c.toWatchEvent :: perPod p calls else perPod p calls := by
  unfold perPod
  rw [List.map_cons, List.filter_cons]
  by_cases h : podOf c.object = some p <;> simp [h]

/-- Exchanging neighbouring events of different pods changes no pod's sequence. -/
theorem perPod_swap {c d : WatchCall} (h : podOf c.object ≠ podOf d.object) (p : PodId)
    (calls : List WatchCall) : perPod p (c :: d :: calls) = perPod p (d :: c :: calls) := by
  simp only [perPod_cons]
  by_cases hc : podOf c.object = some p
  · have hd : podOf d.object ≠ some p := fun hd ↦ h (hc.trans hd.symm)
    simp [hc, hd]
  · simp [hc]

/-- What a run shows of a container is what the events of its pod show of it. -/
theorem observations_eq_perPod {k : String} {p : PodId} (hk : startsWith k p.keyPrefix = true)
    (hp : p.SlashFree) {calls : List WatchCall} (hslash : ∀ c ∈ calls, SlashFreePod c.object) :
    observations k calls = (perPod p calls).flatMap (observationsOf k) := by
  induction calls with
  | nil => rfl
  | cons c calls ih =>
      have hc := hslash c List.mem_cons_self
      rw [observations_cons, perPod_cons, ih fun d hd ↦ hslash d (List.mem_cons_of_mem c hd)]
      split
      · rw [List.flatMap_cons]
      · rename_i hne
        rw [observationsOf_other hk hp (fun q hq ↦ hc.podOf hq) hne, List.nil_append]

/-- A key without the prefix of any pod of the run is shown nothing. -/
theorem observations_eq_nil {k : String} {calls : List WatchCall}
    (h : ∀ c ∈ calls, ∀ p, podOf c.object = some p → ¬startsWith k p.keyPrefix = true) :
    observations k calls = [] :=
  List.flatMap_eq_nil_iff.mpr fun c hc ↦ observationsOf_eq_nil (h c hc)

/-- Two streams that agree pod by pod show the same of every container. -/
theorem observations_congr {calls calls' : List WatchCall}
    (hslash : ∀ c ∈ calls, SlashFreePod c.object) (hslash' : ∀ c ∈ calls', SlashFreePod c.object)
    (hsame : ∀ p, perPod p calls = perPod p calls') (k : String) :
    observations k calls = observations k calls' := by
  by_cases h : ∃ p : PodId, p.SlashFree ∧ startsWith k p.keyPrefix = true
  · obtain ⟨p, hp, hk⟩ := h
    rw [observations_eq_perPod hk hp hslash, observations_eq_perPod hk hp hslash', hsame]
  · have hnone : ∀ l : List WatchCall, (∀ c ∈ l, SlashFreePod c.object) →
        observations k l = [] := fun l hl ↦
      observations_eq_nil fun c hc p hp hk ↦ h ⟨p, (hl c hc).podOf hp, hk⟩
    rw [hnone calls hslash, hnone calls' hslash']

section Run

variable (timestampOf : String → Option Int)

/-- **Independence of interleaving.**  Two streams which are interleavings of the same per-pod
sequences, read from the same watch state, end in the same watch state, and the events emitted
about any one container are the same in both, in the same order. -/
theorem watchRun_interleaving (state : WatchState) (calls calls' : List WatchCall)
    (hslash : ∀ c ∈ calls, SlashFreePod c.object) (hslash' : ∀ c ∈ calls', SlashFreePod c.object)
    (hsame : ∀ p, perPod p calls = perPod p calls') :
    (watchRun timestampOf state calls).1 = (watchRun timestampOf state calls').1 ∧
      ∀ id, (watchRun timestampOf state calls).2.filter (fun e ↦ e.actor.id = id) =
        (watchRun timestampOf state calls').2.filter (fun e ↦ e.actor.id = id) := by
  have hobs := observations_congr hslash hslash' hsame
  constructor
  · apply Finmap.ext_lookup
    intro k
    rw [lookup_watchRun, lookup_watchRun, hobs k]
  · intro id
    rw [filter_watchRun, filter_watchRun, hobs id]

/-- The same container of `web-1` and of `web-10`, shown in either order. -/
theorem watchRun_interleaving_web :
    let web := [statusObject "web" 0 (runningSince "2026-07-13T10:00:00Z")]
    let c : WatchCall := ⟨⟨"ADDED", podObject "prod" "web-1" web, 1783937000⟩, .unspecified⟩
    let d : WatchCall := ⟨⟨"ADDED", podObject "prod" "web-10" web, 1783937001⟩, .unspecified⟩
    (watchRun someTimestamps ∅ [c, d]).1 = (watchRun someTimestamps ∅ [d, c]).1 ∧
      ∀ id, (watchRun someTimestamps ∅ [c, d]).2.filter (fun e ↦ e.actor.id = id) =
        (watchRun someTimestamps ∅ [d, c]).2.filter (fun e ↦ e.actor.id = id) :=
  watchRun_interleaving someTimestamps ∅ _ _ (by decide) (by decide)
    fun p ↦ perPod_swap (by decide) p []

end Run

end Swarmagent.Kubernetes
