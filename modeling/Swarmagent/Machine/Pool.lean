import Mathlib.Algebra.Order.Group.Multiset
import Mathlib.Logic.Relation
import Mathlib.Tactic.Abel

/-!
# A pool of tasks under a semaphore

A loop spawns one task for each job.  A task waits for one of a fixed number of permits, does its
job, gives the permit back and is finished; once all are spawned, another loop takes the outcomes of
the finished tasks one after the other, in whatever order they come.  The tasks run concurrently
with each other and with both loops, so a pool is a transition system, and a run of it is any
interleaving.

* Every step makes the work left smaller by one (`Step.work`), so no run is longer than that.
* Permits are neither lost nor created, and no task is (`Inv`, `inv_of_reaches`).
* If there is a permit at all, a run that has not finished can go on (`exists_step`), and once it
  has finished there is one outcome for each job (`Finished.covers`).  Without one, no job is ever
  done (`joined_of_no_permit`).
* Which outcomes a pool can end with, and in which order, does not depend on the number of permits
  (`outcomes_iff`).

A task whose outcome is `none` has been lost: its job was not done, but its permit is returned.
-/

universe u v

namespace Machine

open Relation

/-! ## Runs of a transition system -/

section Reaches

variable {σ : Type u} {Step : σ → σ → Prop}

/-- What every step preserves is preserved by every run. -/
theorem inv_of_reflTransGen {Inv : σ → Prop} (hstep : ∀ s s', Inv s → Step s s' → Inv s') {s s' : σ}
    (h : ReflTransGen Step s s') (hs : Inv s) : Inv s' := by
  induction h with
  | refl => exact hs
  | tail _ hlast ih => exact hstep _ _ ih hlast

/-- If every step makes a measure smaller, some run cannot go on. -/
theorem exists_stuck {μ : σ → ℕ} (hμ : ∀ s s', Step s s' → μ s' < μ s) (s : σ) :
    ∃ s', ReflTransGen Step s s' ∧ ∀ s'', ¬Step s' s'' := by
  induction hn : μ s using Nat.strongRecOn generalizing s with
  | ind n ih =>
      by_cases hstuck : ∀ s'', ¬Step s s''
      · exact ⟨s, .refl, hstuck⟩
      · obtain ⟨t, ht⟩ := not_forall_not.mp hstuck
        obtain ⟨s', hreach, hstuck'⟩ := ih (μ t) (hn ▸ hμ s t ht) t rfl
        exact ⟨s', .head ht hreach, hstuck'⟩

/-- Then no run goes on forever. -/
theorem not_forever {μ : σ → ℕ} (hμ : ∀ s s', Step s s' → μ s' < μ s) (f : ℕ → σ) :
    ¬∀ n, Step (f n) (f (n + 1)) := by
  intro hf
  have hle : ∀ n, μ (f n) + n ≤ μ (f 0) := by
    intro n
    induction n with
    | zero => exact le_rfl
    | succ n ih => have := hμ _ _ (hf n); omega
  have := hle (μ (f 0) + 1)
  omega

end Reaches

/-! ## Pools -/

variable {ι : Type u} {ρ : Type v}

/-- A pool of tasks.  A task is named by its job, so there may be several of one name. -/
structure Pool (ι : Type u) (ρ : Type v) where
  /-- The jobs for which no task has been spawned yet. -/
  toSpawn : List ι
  /-- The permits that are free. -/
  permits : ℕ
  /-- The tasks that wait for a permit. -/
  waiting : Multiset ι
  /-- The tasks that hold one. -/
  running : Multiset ι
  /-- The tasks that have finished, with their outcomes. -/
  finished : Multiset (ι × Option ρ)
  /-- Those whose outcomes have been taken, in that order. -/
  joined : List (ι × Option ρ)

namespace Pool

/-- What a pool begins with. -/
def init (jobs : List ι) (permits : ℕ) : Pool ι ρ where
  toSpawn := jobs
  permits := permits
  waiting := 0
  running := 0
  finished := 0
  joined := []

/-- One step, where doing a job may have several outcomes. -/
inductive Step (Outcome : ι → Option ρ → Prop) : Pool ι ρ → Pool ι ρ → Prop
  | spawn {s : Pool ι ρ} {i : ι} {jobs : List ι} : s.toSpawn = i :: jobs →
      Step Outcome s { s with toSpawn := jobs, waiting := i ::ₘ s.waiting }
  | acquire {s : Pool ι ρ} {i : ι} {waiting : Multiset ι} {permits : ℕ} :
      s.waiting = i ::ₘ waiting → s.permits = permits + 1 →
      Step Outcome s
        { s with waiting := waiting, permits := permits, running := i ::ₘ s.running }
  | finish {s : Pool ι ρ} {i : ι} {running : Multiset ι} {r : Option ρ} :
      s.running = i ::ₘ running → Outcome i r →
      Step Outcome s
        { s with
          running := running
          permits := s.permits + 1
          finished := (i, r) ::ₘ s.finished }
  | /-- Nothing is joined before all is spawned. -/
    join {s : Pool ι ρ} {x : ι × Option ρ} {finished : Multiset (ι × Option ρ)} :
      s.toSpawn = [] → s.finished = x ::ₘ finished →
      Step Outcome s { s with finished := finished, joined := s.joined ++ [x] }

/-- The pool gets from one state to another. -/
abbrev Reaches (Outcome : ι → Option ρ → Prop) : Pool ι ρ → Pool ι ρ → Prop :=
  ReflTransGen (Step Outcome)

/-- The outcomes of all tasks have been taken. -/
def Finished (s : Pool ι ρ) : Prop :=
  s.toSpawn = [] ∧ s.waiting = 0 ∧ s.running = 0 ∧ s.finished = 0

/-- What the joining loop has collected.  Of a lost task there is nothing. -/
def collected (s : Pool ι ρ) : List ρ := s.joined.filterMap Prod.snd

/-! ### The work left -/

/-- How many steps are left. -/
def work (s : Pool ι ρ) : ℕ :=
  4 * s.toSpawn.length + 3 * s.waiting.card + 2 * s.running.card + s.finished.card

variable {Outcome : ι → Option ρ → Prop} {s s' : Pool ι ρ}

/-- Every step does some of the work. -/
theorem Step.work (h : Step Outcome s s') : s'.work + 1 = s.work := by
  cases h with
  | spawn hspawn =>
      simp only [Pool.work, hspawn, List.length_cons, Multiset.card_cons]
      omega
  | acquire hwaiting _ =>
      simp only [Pool.work, hwaiting, Multiset.card_cons]
      omega
  | finish hrunning _ =>
      simp only [Pool.work, hrunning, Multiset.card_cons]
      omega
  | join _ hfinished =>
      simp only [Pool.work, hfinished, Multiset.card_cons]
      omega

theorem Step.work_lt (h : Step Outcome s s') : s'.work < s.work := by
  have := h.work
  omega

/-! ### What no step changes -/

/-- The permits there are, free or held. -/
def allPermits (s : Pool ι ρ) : ℕ := s.permits + s.running.card

/-- The tasks there are, in whatever state. -/
def allTasks (s : Pool ι ρ) : Multiset ι :=
  s.toSpawn + s.waiting + s.running + s.finished.map Prod.fst +
    (s.joined.map Prod.fst : List ι)

theorem Step.allPermits (h : Step Outcome s s') : s'.allPermits = s.allPermits := by
  cases h with
  | spawn => rfl
  | acquire _ hfree =>
      simp only [Pool.allPermits, hfree, Multiset.card_cons]
      omega
  | finish hrunning _ =>
      simp only [Pool.allPermits, hrunning, Multiset.card_cons]
      omega
  | join => rfl

theorem Step.allTasks (h : Step Outcome s s') : s'.allTasks = s.allTasks := by
  cases h with
  | spawn hspawn =>
      simp only [Pool.allTasks, hspawn, ← Multiset.cons_coe, Multiset.add_cons, Multiset.cons_add]
  | acquire hwaiting _ =>
      simp only [Pool.allTasks, hwaiting, Multiset.add_cons, Multiset.cons_add]
  | finish hrunning _ =>
      simp only [Pool.allTasks, hrunning, Multiset.map_cons, Multiset.add_cons, Multiset.cons_add]
  | join _ hfinished =>
      simp only [Pool.allTasks, hfinished, List.map_append, List.map_singleton, ← Multiset.coe_add,
        Multiset.coe_singleton, ← Multiset.singleton_add, Multiset.map_add, Multiset.map_singleton]
      abel

/-- Permits and tasks are accounted for, and what is done is done right. -/
structure Inv (Outcome : ι → Option ρ → Prop) (jobs : List ι) (cap : ℕ) (s : Pool ι ρ) : Prop where
  permits : s.allPermits = cap
  tasks : s.allTasks = jobs
  finished : ∀ x ∈ s.finished, Outcome x.1 x.2
  joined : ∀ x ∈ s.joined, Outcome x.1 x.2

section Inv

variable {jobs : List ι} {cap : ℕ}

theorem inv_init (jobs : List ι) (cap : ℕ) : (init jobs cap : Pool ι ρ).Inv Outcome jobs cap where
  permits := rfl
  tasks := by simp [init, allTasks]
  finished := by simp [init]
  joined := by simp [init]

/-- **One step** keeps the accounts. -/
theorem Inv.step (hs : s.Inv Outcome jobs cap) (h : Step Outcome s s') :
    s'.Inv Outcome jobs cap := by
  have hpermits : s'.allPermits = cap := h.allPermits.trans hs.permits
  have htasks : s'.allTasks = jobs := h.allTasks.trans hs.tasks
  cases h with
  | spawn => exact ⟨hpermits, htasks, hs.finished, hs.joined⟩
  | acquire => exact ⟨hpermits, htasks, hs.finished, hs.joined⟩
  | finish _ hr =>
      exact ⟨hpermits, htasks, Multiset.forall_mem_cons.mpr ⟨hr, hs.finished⟩, hs.joined⟩
  | join _ hx =>
      obtain ⟨hr, hfinished⟩ := Multiset.forall_mem_cons.mp (hx ▸ hs.finished)
      refine ⟨hpermits, htasks, hfinished, fun y hy ↦ ?_⟩
      rcases List.mem_append.mp hy with hy | hy
      · exact hs.joined y hy
      · exact List.mem_singleton.mp hy ▸ hr

/-- **A whole run** keeps them, so they hold whenever the tasks have come to be what they are. -/
theorem inv_of_reaches (h : Reaches Outcome (init jobs cap) s) : s.Inv Outcome jobs cap :=
  inv_of_reflTransGen (fun _ _ hs hstep ↦ hs.step hstep) h (inv_init jobs cap)

/-- **The bound**: at no time more tasks run than there are permits. -/
theorem running_le (h : Reaches Outcome (init jobs cap) s) : s.running.card ≤ cap := by
  rw [← (inv_of_reaches h).permits]
  exact Nat.le_add_left _ _

/-! ### Progress -/

/-- **No deadlock**: as long as there is work, and a permit for it, there is a step. -/
theorem exists_step (hOutcome : ∀ i ∈ jobs, ∃ r, Outcome i r) (hcap : 0 < cap)
    (hs : s.Inv Outcome jobs cap) (hwork : ¬s.Finished) : ∃ s', Step Outcome s s' := by
  rcases hspawn : s.toSpawn with _ | ⟨i, jobs'⟩
  swap
  · exact ⟨_, .spawn hspawn⟩
  rcases s.finished.empty_or_exists_mem with hfinished | ⟨x, hx⟩
  swap
  · obtain ⟨finished, hfinished⟩ := Multiset.exists_cons_of_mem hx
    exact ⟨_, .join hspawn hfinished⟩
  rcases s.running.empty_or_exists_mem with hrunning | ⟨i, hi⟩
  swap
  · have hmem : i ∈ (jobs : Multiset ι) := by
      rw [← hs.tasks]
      simp [allTasks, hi]
    obtain ⟨r, hr⟩ := hOutcome i (Multiset.mem_coe.mp hmem)
    obtain ⟨running, hrunning⟩ := Multiset.exists_cons_of_mem hi
    exact ⟨_, .finish hrunning hr⟩
  -- nobody holds a permit, so all are free
  rcases s.waiting.empty_or_exists_mem with hwaiting | ⟨i, hi⟩
  · exact absurd ⟨hspawn, hwaiting, hrunning, hfinished⟩ hwork
  · obtain ⟨waiting, hwaiting⟩ := Multiset.exists_cons_of_mem hi
    have hpermits := hs.permits
    rw [allPermits, hrunning, Multiset.card_zero, Nat.add_zero] at hpermits
    obtain ⟨permits, rfl⟩ := Nat.exists_eq_succ_of_ne_zero hcap.ne'
    exact ⟨_, .acquire hwaiting hpermits⟩

/-- Without a permit no job is ever done. -/
theorem joined_of_no_permit (h : Reaches Outcome (init jobs 0) s) :
    s.running = 0 ∧ s.finished = 0 ∧ s.joined = [] := by
  have hkeep : ∀ t t' : Pool ι ρ, (t.permits = 0 ∧ t.running = 0 ∧ t.finished = 0 ∧ t.joined = []) →
      Step Outcome t t' → t'.permits = 0 ∧ t'.running = 0 ∧ t'.finished = 0 ∧ t'.joined = [] := by
    rintro t t' ⟨hpermits, hrunning, hfinished, hjoined⟩ hstep
    cases hstep with
    | spawn => exact ⟨hpermits, hrunning, hfinished, hjoined⟩
    | acquire _ hfree => omega
    | finish hi _ => exact absurd (hrunning.symm.trans hi) (Multiset.zero_ne_cons)
    | join _ hx => exact absurd (hfinished.symm.trans hx) (Multiset.zero_ne_cons)
  exact (inv_of_reflTransGen hkeep h ⟨rfl, rfl, rfl, rfl⟩).2

end Inv

/-! ## What a pool comes to -/

/-- One outcome for each job, in any order. -/
structure Covers (Outcome : ι → Option ρ → Prop) (jobs : List ι) (l : List (ι × Option ρ)) :
    Prop where
  perm : (l.map Prod.fst).Perm jobs
  outcome : ∀ x ∈ l, Outcome x.1 x.2

section Covers

variable {jobs : List ι} {cap : ℕ}

/-- When a pool has finished, there is one outcome for each job. -/
theorem Finished.covers (hs : s.Finished) (h : Reaches Outcome (init jobs cap) s) :
    Covers Outcome jobs s.joined := by
  have hinv := inv_of_reaches h
  obtain ⟨hspawn, hwaiting, hrunning, hfinished⟩ := hs
  have htasks := hinv.tasks
  rw [allTasks, hspawn, hwaiting, hrunning, hfinished] at htasks
  exact ⟨Multiset.coe_eq_coe.mp (by simpa using htasks), hinv.joined⟩

/-- Spawning all that is left. -/
theorem reaches_spawned (s : Pool ι ρ) :
    Reaches Outcome s { s with toSpawn := [], waiting := s.waiting + s.toSpawn } := by
  obtain ⟨toSpawn, permits, waiting, running, finished, joined⟩ := s
  induction toSpawn generalizing waiting with
  | nil =>
      show Reaches Outcome _ ⟨[], permits, waiting + ↑([] : List ι), running, finished, joined⟩
      rw [Multiset.coe_nil, add_zero]
  | cons i jobs ih =>
      refine .head (.spawn rfl) ?_
      have hsplit : waiting + ((i :: jobs : List ι) : Multiset ι) = (i ::ₘ waiting) + jobs := by
        rw [← Multiset.cons_coe, Multiset.add_cons, Multiset.cons_add]
      show Reaches Outcome ⟨jobs, permits, i ::ₘ waiting, running, finished, joined⟩
        ⟨[], permits, waiting + ((i :: jobs : List ι) : Multiset ι), running, finished, joined⟩
      rw [hsplit]
      exact ih (i ::ₘ waiting)

/-- Doing the jobs that wait one after the other, with one permit out of some. -/
theorem reaches_joined {l : List (ι × Option ρ)} (hl : ∀ x ∈ l, Outcome x.1 x.2) (permits : ℕ)
    (joined : List (ι × Option ρ)) :
    Reaches Outcome
      ⟨[], permits + 1, (l.map Prod.fst : List ι), 0, 0, joined⟩
      ⟨[], permits + 1, 0, 0, 0, joined ++ l⟩ := by
  induction l generalizing joined with
  | nil =>
      rw [List.append_nil]
      exact .refl
  | cons x l ih =>
      obtain ⟨hx, hl⟩ := List.forall_mem_cons.mp hl
      let waiting : Multiset ι := (l.map Prod.fst : List ι)
      have hacquire : Step Outcome ⟨[], permits + 1, x.1 ::ₘ waiting, 0, 0, joined⟩
          ⟨[], permits, waiting, x.1 ::ₘ 0, 0, joined⟩ := .acquire rfl rfl
      have hfinish : Step Outcome ⟨[], permits, waiting, x.1 ::ₘ 0, 0, joined⟩
          ⟨[], permits + 1, waiting, 0, x ::ₘ 0, joined⟩ := .finish rfl hx
      have hjoin : Step Outcome ⟨[], permits + 1, waiting, 0, x ::ₘ 0, joined⟩
          ⟨[], permits + 1, waiting, 0, 0, joined ++ [x]⟩ := .join rfl rfl
      rw [List.append_cons]
      exact .head hacquire (.head hfinish (.head hjoin (ih hl (joined ++ [x]))))

/-- **What a pool can come to**: one outcome for each job, in any order.  The number of permits
makes no difference, as long as there is one. -/
theorem outcomes_iff (hcap : 0 < cap) {l : List (ι × Option ρ)} :
    (∃ s, Reaches Outcome (init jobs cap) s ∧ s.Finished ∧ s.joined = l) ↔
      Covers Outcome jobs l := by
  constructor
  · rintro ⟨s, hreach, hfinished, rfl⟩
    exact hfinished.covers hreach
  · rintro ⟨hperm, hl⟩
    obtain ⟨permits, rfl⟩ := Nat.exists_eq_succ_of_ne_zero hcap.ne'
    have hspawned : Reaches Outcome (init jobs (permits + 1)) _ := reaches_spawned _
    have hwaiting : (0 : Multiset ι) + jobs = (l.map Prod.fst : List ι) := by
      rw [zero_add, Multiset.coe_eq_coe]
      exact hperm.symm
    have hjoined := reaches_joined hl permits []
    rw [← hwaiting] at hjoined
    exact ⟨_, hspawned.trans hjoined, ⟨rfl, rfl, rfl, rfl⟩, rfl⟩

end Covers

end Pool

end Machine
