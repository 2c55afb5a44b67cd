import Swarmagent.Docker.EventStream
import Swarmagent.Kubernetes.Watch
import Swarmagent.Machine.Backoff

/-!
# Reconnecting

Both providers wait before they connect again, and twice as long each time, for a minute at most.
The delay belongs to the loop of `run_events` and not to a connection.  It is not set back when a
connection has worked well, so how long the agent waits depends on nothing but how often it has
(`waits`), and from the seventh time on it is a minute, even after a connection that stood for days.
-/

namespace Swarmagent

open Machine

/-- So long is waited the `n`-th time, in seconds. -/
def wait (n : ℕ) : ℕ := min (2 ^ n) 60

/-- What the first `n` waits are. -/
def firstWaits (n : ℕ) : List ℕ := (List.range n).map wait

theorem wait_eq_iterate (n : ℕ) : (double 60)^[n] 1 = wait n := by
  rw [iterate_double (by decide), one_mul, wait]

/-- From the seventh on, every wait is a minute. -/
theorem wait_of_le {n : ℕ} (h : 6 ≤ n) : wait n = 60 := by
  have hpow : 2 ^ 6 ≤ 2 ^ n := Nat.pow_le_pow_right (by decide) h
  exact min_eq_right (by omega)

theorem sum_firstWaits_le (n : ℕ) : (firstWaits n).sum ≤ n * 60 := by
  have hsum := sum_le_of_le_cap 60 (firstWaits n) fun d hd ↦ by
    obtain ⟨m, -, rfl⟩ := List.mem_map.mp hd
    exact min_le_right _ _
  simpa [firstWaits] using hsum

/-- **How long the agent waits.**  Whatever the streams and connections are and whatever they come
to, the waits of either provider are 1, 2, 4, … seconds and a minute from the seventh on. -/
theorem waits :
    (∀ {ε μ π : Type} (rounds : List (Docker.Round ε μ π)),
      (Docker.runEvents rounds).2.map (fun a ↦ a.slept) = firstWaits rounds.length) ∧
    (∀ {ε : Type} (timestampOf : String → Option Int)
      (fromSlice : Kubernetes.Bytes → Option Json.Value) (conns : List (Kubernetes.Connection ε)),
      (Kubernetes.runEvents timestampOf fromSlice .init conns).2.map (fun a ↦ a.slept) =
        firstWaits conns.length) ∧
    (∀ n, 6 ≤ n → wait n = 60) ∧ ∀ n, (firstWaits n).sum ≤ n * 60 := by
  refine ⟨fun rounds ↦ ?_, fun timestampOf fromSlice conns ↦ ?_, fun n ↦ wait_of_le,
    sum_firstWaits_le⟩
  · rw [Docker.runEvents, map_run_of_view id (double 60) id (fun _ _ ↦ rfl) (fun _ _ ↦ rfl)]
    simp only [id, wait_eq_iterate, firstWaits]
  · rw [Kubernetes.runEvents, map_run_of_view Kubernetes.EventLoop.delay (double 60) id
      (fun _ _ ↦ rfl) (fun _ _ ↦ rfl)]
    simp only [id, Kubernetes.EventLoop.init, wait_eq_iterate, firstWaits]

end Swarmagent
