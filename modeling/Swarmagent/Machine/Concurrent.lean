import Swarmagent.Machine.Log

/-!
# Concurrent machines

Machines that run at the same time are one machine, whose inputs say which of them moves next: a
list of inputs is a schedule, and a statement about every list of inputs is one about every
interleaving.

* `par` puts two machines side by side.  Each sees its own inputs only, and its own outputs are what
  it would emit if it were alone (`run_par_left`, `run_par_right`).
* `gate` keeps a machine waiting until an input opens the gate.  Nothing comes out before, and the
  gate is not tried again afterwards (`guarded_gate`).
* `work` is a machine whose inputs arrive whenever they do and whose outputs are sent one at a time,
  with a reply for each.  However arrivals and sends are interleaved, what has been sent and what is
  still to be sent are what the machine emits on the inputs it has taken (`Worker.keeps`), and all
  that has arrived can be dealt with (`Worker.exists_done`).
-/

universe u v w

namespace Machine

variable {σ τ : Type u} {ι κ : Type v} {ο π : Type w}

/-! ## Side by side -/

/-- What is on the left in a list. -/
def lefts {α β : Type*} (l : List (α ⊕ β)) : List α := l.filterMap Sum.getLeft?

/-- What is on the right in a list. -/
def rights {α β : Type*} (l : List (α ⊕ β)) : List β := l.filterMap Sum.getRight?

section Sides

variable {α β : Type*}

@[simp] theorem lefts_nil : lefts ([] : List (α ⊕ β)) = [] := rfl

@[simp] theorem rights_nil : rights ([] : List (α ⊕ β)) = [] := rfl

@[simp] theorem lefts_inl (a : α) (l : List (α ⊕ β)) : lefts (.inl a :: l) = a :: lefts l := rfl

@[simp] theorem lefts_inr (b : β) (l : List (α ⊕ β)) : lefts (.inr b :: l) = lefts l := rfl

@[simp] theorem rights_inl (a : α) (l : List (α ⊕ β)) : rights (.inl a :: l) = rights l := rfl

@[simp] theorem rights_inr (b : β) (l : List (α ⊕ β)) : rights (.inr b :: l) = b :: rights l := rfl

theorem lefts_append (l l' : List (α ⊕ β)) : lefts (l ++ l') = lefts l ++ lefts l' :=
  List.filterMap_append

theorem rights_append (l l' : List (α ⊕ β)) : rights (l ++ l') = rights l ++ rights l' :=
  List.filterMap_append

@[simp] theorem lefts_map_inl (l : List α) : lefts (l.map .inl : List (α ⊕ β)) = l := by
  induction l with
  | nil => rfl
  | cons a l ih => rw [List.map_cons, lefts_inl, ih]

@[simp] theorem lefts_map_inr (l : List β) : lefts (l.map .inr : List (α ⊕ β)) = [] := by
  induction l with
  | nil => rfl
  | cons b l ih => rw [List.map_cons, lefts_inr, ih]

@[simp] theorem rights_map_inl (l : List α) : rights (l.map .inl : List (α ⊕ β)) = [] := by
  induction l with
  | nil => rfl
  | cons a l ih => rw [List.map_cons, rights_inl, ih]

@[simp] theorem rights_map_inr (l : List β) : rights (l.map .inr : List (α ⊕ β)) = l := by
  induction l with
  | nil => rfl
  | cons b l ih => rw [List.map_cons, rights_inr, ih]

end Sides

/-- Two machines side by side. -/
def par (step : σ → ι → σ × List ο) (step' : τ → κ → τ × List π) (s : σ × τ) :
    ι ⊕ κ → (σ × τ) × List (ο ⊕ π)
  | .inl i => (((step s.1 i).1, s.2), (step s.1 i).2.map .inl)
  | .inr k => ((s.1, (step' s.2 k).1), (step' s.2 k).2.map .inr)

section Par

variable (step : σ → ι → σ × List ο) (step' : τ → κ → τ × List π)

/-- **The left machine** moves and emits as if it were alone. -/
theorem run_par_left (s : σ × τ) (l : List (ι ⊕ κ)) :
    (run (par step step') s l).1.1 = (run step s.1 (lefts l)).1 ∧
      lefts (run (par step step') s l).2 = (run step s.1 (lefts l)).2 := by
  induction l generalizing s with
  | nil => exact ⟨rfl, rfl⟩
  | cons x l ih =>
      obtain ⟨hstate, hout⟩ := ih (par step step' s x).1
      rw [run_cons]
      constructor
      · rw [hstate]
        cases x <;> rfl
      · rw [lefts_append, hout]
        cases x with
        | inl i => rw [par, lefts_map_inl, lefts_inl, run_cons]
        | inr k => rw [par, lefts_map_inr, lefts_inr, List.nil_append]

/-- **The right machine** does. -/
theorem run_par_right (s : σ × τ) (l : List (ι ⊕ κ)) :
    (run (par step step') s l).1.2 = (run step' s.2 (rights l)).1 ∧
      rights (run (par step step') s l).2 = (run step' s.2 (rights l)).2 := by
  induction l generalizing s with
  | nil => exact ⟨rfl, rfl⟩
  | cons x l ih =>
      obtain ⟨hstate, hout⟩ := ih (par step step' s x).1
      rw [run_cons]
      constructor
      · rw [hstate]
        cases x <;> rfl
      · rw [rights_append, hout]
        cases x with
        | inl i => rw [par, rights_map_inl, rights_inl, List.nil_append]
        | inr k => rw [par, rights_map_inr, rights_inr, run_cons]

end Par

/-! ## Behind a gate -/

/-- A machine behind a gate.  Attempts to open the gate are emitted. -/
def gate (opens : κ → Bool) (step : σ → ι → σ × List ο) (s : Bool × σ) :
    κ ⊕ ι → (Bool × σ) × List (κ ⊕ ο)
  | .inl k => if s.1 then (s, []) else ((opens k, s.2), [.inl k])
  | .inr i => if s.1 then ((true, (step s.2 i).1), (step s.2 i).2.map .inr) else (s, [])

/-- The inputs behind the first that opens the gate. -/
def opened (opens : κ → Bool) : List (κ ⊕ ι) → List (κ ⊕ ι)
  | [] => []
  | .inl k :: l => if opens k then l else opened opens l
  | .inr _ :: l => opened opens l

/-- The attempts up to the first that opens the gate. -/
def attempts (opens : κ → Bool) : List (κ ⊕ ι) → List κ
  | [] => []
  | .inl k :: l => k :: if opens k then [] else attempts opens l
  | .inr _ :: l => attempts opens l

section Gate

variable (opens : κ → Bool) (step : σ → ι → σ × List ο)

/-- Behind an open gate the machine runs as it would without one. -/
theorem run_gate_open (s : σ) (l : List (κ ⊕ ι)) :
    run (gate opens step) (true, s) l =
      ((true, (run step s (rights l)).1), (run step s (rights l)).2.map .inr) := by
  induction l generalizing s with
  | nil => rfl
  | cons x l ih =>
      cases x with
      | inl k =>
          have hstep : gate opens step (true, s) (.inl k) = ((true, s), []) := rfl
          rw [run_cons, hstep, ih]
          rfl
      | inr i =>
          have hstep : gate opens step (true, s) (.inr i) =
              ((true, (step s i).1), (step s i).2.map .inr) := rfl
          rw [run_cons, hstep, ih, rights_inr, run_cons, List.map_append]

/-- **A run behind a gate**: attempts until one opens it, and then a run of the machine. -/
theorem run_gate (s : σ) (l : List (κ ⊕ ι)) :
    run (gate opens step) (false, s) l =
      (((attempts opens l).any opens, (run step s (rights (opened opens l))).1),
        (attempts opens l).map .inl ++ (run step s (rights (opened opens l))).2.map .inr) := by
  induction l with
  | nil => rfl
  | cons x l ih =>
      cases x with
      | inl k =>
          have hstep : gate opens step (false, s) (.inl k) = ((opens k, s), [.inl k]) := rfl
          rw [run_cons, hstep, attempts, opened]
          by_cases hk : opens k = true
          · rw [if_pos hk, if_pos hk, hk, run_gate_open]
            simp [hk]
          · rw [if_neg hk, if_neg hk, Bool.eq_false_iff.mpr hk, ih]
            simp [hk]
      | inr i =>
          have hstep : gate opens step (false, s) (.inr i) = ((false, s), []) := rfl
          rw [run_cons, hstep, ih]
          rfl

/-- Only the last attempt opens the gate. -/
theorem not_opens_of_attempts {l : List (κ ⊕ ι)} {before : List κ} {k : κ} {after : List κ}
    (h : attempts opens l = before ++ k :: after) : ∀ k' ∈ before, opens k' = false := by
  induction l generalizing before with
  | nil => simp [attempts] at h
  | cons x l ih =>
      cases x with
      | inr i => exact ih h
      | inl k₀ =>
          rw [attempts] at h
          cases before with
          | nil => simp
          | cons b before =>
              rw [List.cons_append] at h
              obtain ⟨rfl, hrest⟩ := List.cons.inj h
              by_cases hk₀ : opens k₀ = true
              · rw [if_pos hk₀] at hrest
                simp at hrest
              · rw [if_neg hk₀] at hrest
                exact List.forall_mem_cons.mpr ⟨Bool.eq_false_iff.mpr hk₀, ih hrest⟩

/-- If nothing is behind the gate, no input has opened it. -/
theorem opened_eq_nil {l : List (κ ⊕ ι)} (h : (attempts opens l).any opens = false) :
    opened opens l = [] := by
  induction l with
  | nil => rfl
  | cons x l ih =>
      cases x with
      | inr i => exact ih h
      | inl k =>
          rw [attempts, List.any_cons, Bool.or_eq_false_iff] at h
          obtain ⟨hk, h⟩ := h
          rw [if_neg (by simp [hk])] at h
          rw [opened, if_neg (by simp [hk])]
          exact ih h

/-- Once the gate is open, all that follows is behind it. -/
theorem opened_append {l l' : List (κ ⊕ ι)} (h : (attempts opens l).any opens = true) :
    opened opens (l ++ l') = opened opens l ++ l' := by
  induction l with
  | nil => cases h
  | cons x l ih =>
      cases x with
      | inr i => exact ih h
      | inl k =>
          rw [List.cons_append, opened, opened]
          by_cases hk : opens k = true
          · rw [if_pos hk, if_pos hk]
          · rw [if_neg hk, if_neg hk]
            refine ih ?_
            rw [attempts, if_neg hk, List.any_cons, Bool.or_eq_true] at h
            exact h.resolve_left hk

/-- **What a gate guarantees.**  The machine emits nothing unless the gate has been opened, and
once it has, no attempt is made to open it. -/
theorem guarded_gate (s : σ) (l : List (κ ⊕ ι)) :
    Guarded (fun before d ↦ match d with
      | .inl _ => ∀ k, .inl k ∈ before → opens k = false
      | .inr _ => ∃ k, .inl k ∈ before ∧ opens k = true)
      (run (gate opens step) (false, s) l).2 := by
  rw [run_gate]
  refine guarded_append.mpr ⟨?_, ?_⟩
  · rintro before d after heq
    obtain ⟨before', rest, hsplit, rfl, hrest⟩ := List.map_eq_append_iff.mp heq
    obtain ⟨k, after', rfl, rfl, rfl⟩ := List.map_eq_cons_iff.mp hrest
    intro k' hk'
    obtain ⟨k'', hk'', hinl⟩ := List.mem_map.mp hk'
    rw [← Sum.inl.inj hinl]
    exact not_opens_of_attempts opens hsplit k'' hk''
  · rintro before d after heq
    obtain ⟨before', rest, -, rfl, hrest⟩ := List.map_eq_append_iff.mp heq
    obtain ⟨o, after', rfl, rfl, rfl⟩ := List.map_eq_cons_iff.mp hrest
    by_cases hopen : (attempts opens l).any opens = true
    · obtain ⟨k, hk, hopens⟩ := List.any_eq_true.mp hopen
      exact ⟨k, List.mem_append_left _ (List.mem_map_of_mem hk), hopens⟩
    · rw [opened_eq_nil opens (Bool.eq_false_iff.mpr hopen)] at heq
      simp at heq

end Gate

/-! ## Workers -/

/-- A machine at work. -/
structure Worker (σ : Type u) (ι : Type v) (ο : Type w) where
  state : σ
  /-- The inputs that have arrived and have not been taken. -/
  inbox : List ι
  /-- The outputs that are still to be sent. -/
  pending : List ο

/-- A worker before anything has happened. -/
def Worker.idle (s : σ) : Worker σ ι ο := { state := s, inbox := [], pending := [] }

/-- Nothing is left to do. -/
def Worker.Done (w : Worker σ ι ο) : Prop := w.inbox = [] ∧ w.pending = []

/-- What happens to a worker. -/
inductive Act (ι ρ : Type*) where
  | arrive (i : ι)
  /-- The worker has time for the next input. -/
  | take
  /-- The next output is sent, with this reply. -/
  | send (reply : ρ)

/-- What has arrived. -/
def arrivals {ι ρ : Type*} (acts : List (Act ι ρ)) : List ι :=
  acts.filterMap fun
    | .arrive i => some i
    | _ => none

theorem arrivals_append {ι ρ : Type*} (acts acts' : List (Act ι ρ)) :
    arrivals (acts ++ acts') = arrivals acts ++ arrivals acts' := List.filterMap_append

/-- A worker takes the next input when it has sent everything.  What it cannot do, it does not
do. -/
def work {ρ : Type*} (step : σ → ι → σ × List ο) (w : Worker σ ι ο) :
    Act ι ρ → Worker σ ι ο × List (ο × ρ)
  | .arrive i => ({ w with inbox := w.inbox ++ [i] }, [])
  | .take => match w.pending, w.inbox with
    | [], i :: inbox =>
        ({ state := (step w.state i).1, inbox, pending := (step w.state i).2 }, [])
    | _, _ => (w, [])
  | .send reply => match w.pending with
    | [] => (w, [])
    | o :: pending => ({ w with pending }, [(o, reply)])

namespace Worker

variable {ρ : Type*} (step : σ → ι → σ × List ο)

/-- What the worker has taken of what has arrived accounts for its state and for what it has
sent. -/
structure Accounts (s : σ) (arrived : List ι) (sent : List (ο × ρ)) (w : Worker σ ι ο)
    (taken : List ι) : Prop where
  arrived : arrived = taken ++ w.inbox
  state : w.state = (run step s taken).1
  sent : sent.map Prod.fst ++ w.pending = (run step s taken).2

/-- **One action** keeps the accounts. -/
theorem Accounts.act {s : σ} {arrived : List ι} {sent : List (ο × ρ)} {w : Worker σ ι ο}
    {taken : List ι} (h : Accounts step s arrived sent w taken) (a : Act ι ρ) :
    ∃ taken', Accounts step s (arrived ++ arrivals [a]) (sent ++ (work step w a).2)
      (work step w a).1 taken' := by
  cases a with
  | arrive i =>
      refine ⟨taken, ?_, h.state, ?_⟩
      · show arrived ++ [i] = taken ++ (w.inbox ++ [i])
        rw [h.arrived, List.append_assoc]
      · show (sent ++ []).map Prod.fst ++ w.pending = _
        rw [List.append_nil, h.sent]
  | take =>
      unfold work
      simp only [arrivals, List.filterMap_cons, List.filterMap_nil, List.append_nil]
      split
      · next i inbox hpending hinbox =>
          refine ⟨taken ++ [i], ?_, ?_, ?_⟩
          · rw [h.arrived, hinbox, List.append_assoc, List.singleton_append]
          · rw [run_concat, h.state]
          · have hsent := h.sent
            rw [hpending, List.append_nil] at hsent
            rw [run_concat, List.append_nil, hsent, h.state]
      · rw [List.append_nil]
        exact ⟨taken, h⟩
  | send reply =>
      unfold work
      simp only [arrivals, List.filterMap_cons, List.filterMap_nil, List.append_nil]
      split
      · rw [List.append_nil]
        exact ⟨taken, h⟩
      · next o pending hpending =>
          refine ⟨taken, h.arrived, h.state, ?_⟩
          rw [← h.sent, hpending, List.map_append, List.append_assoc]
          rfl

/-- **A whole run** keeps the accounts, whatever the interleaving. -/
theorem keeps (s : σ) (acts : List (Act ι ρ)) :
    ∃ taken, Accounts step s (arrivals acts) (run (work step) (.idle s) acts).2
      (run (work step) (.idle s) acts).1 taken := by
  induction acts using List.reverseRecOn with
  | nil => exact ⟨[], rfl, rfl, rfl⟩
  | append_singleton acts a ih =>
      obtain ⟨taken, h⟩ := ih
      obtain ⟨taken', h'⟩ := h.act step a
      rw [run_concat, arrivals, List.filterMap_append]
      exact ⟨taken', h'⟩

/-- What has been sent is the beginning of what the machine emits on all that has arrived. -/
theorem isPrefix_sent (s : σ) (acts : List (Act ι ρ)) :
    (run (work step) (.idle s) acts).2.map Prod.fst <+: (run step s (arrivals acts)).2 := by
  obtain ⟨taken, h⟩ := keeps step s acts
  rw [h.arrived, run_append, ← h.sent, List.append_assoc]
  exact List.prefix_append _ _

/-- Once nothing is left to do, it is all of it. -/
theorem sent_eq {s : σ} {acts : List (Act ι ρ)} (hdone : (run (work step) (.idle s) acts).1.Done) :
    (run (work step) (.idle s) acts).2.map Prod.fst = (run step s (arrivals acts)).2 := by
  obtain ⟨taken, h⟩ := keeps step s acts
  have harrived := h.arrived
  have hsent := h.sent
  rw [hdone.1, List.append_nil] at harrived
  rw [hdone.2, List.append_nil] at hsent
  rw [harrived, hsent]

/-- And the state is the one that the machine is in then. -/
theorem state_eq {s : σ} {acts : List (Act ι ρ)} (hdone : (run (work step) (.idle s) acts).1.Done) :
    (run (work step) (.idle s) acts).1.state = (run step s (arrivals acts)).1 := by
  obtain ⟨taken, h⟩ := keeps step s acts
  have harrived := h.arrived
  rw [hdone.1, List.append_nil] at harrived
  rw [harrived, h.state]

/-! ### Progress -/

/-- Sending all that is pending. -/
theorem run_sends (r : ρ) (w : Worker σ ι ο) :
    (run (work step) w (List.replicate w.pending.length (.send r))).1 =
      { w with pending := [] } := by
  obtain ⟨state, inbox, pending⟩ := w
  induction pending with
  | nil => rfl
  | cons o pending ih =>
      rw [List.length_cons, List.replicate_succ, run_cons]
      exact ih

/-- **Progress**: nothing keeps a worker from dealing with all that has arrived, whatever the
replies are. -/
theorem exists_done (r : ρ) (w : Worker σ ι ο) :
    ∃ acts, arrivals acts = [] ∧ (∀ a ∈ acts, a = .take ∨ a = .send r) ∧
      (run (work step) w acts).1.Done := by
  obtain ⟨state, inbox, pending⟩ := w
  induction inbox generalizing state pending with
  | nil =>
      refine ⟨List.replicate pending.length (.send r), ?_, ?_, ?_⟩
      · simp [arrivals]
      · exact fun a ha ↦ Or.inr (List.eq_of_mem_replicate ha)
      · rw [run_sends]
        exact ⟨rfl, rfl⟩
  | cons i inbox ih =>
      obtain ⟨acts, harrivals, hacts, hdone⟩ := ih (step state i).1 (step state i).2
      refine ⟨List.replicate pending.length (.send r) ++ .take :: acts, ?_, ?_, ?_⟩
      · rw [arrivals, List.filterMap_append, List.filterMap_cons]
        simpa [arrivals] using harrivals
      · intro a ha
        rcases List.mem_append.mp ha with ha | ha
        · exact Or.inr (List.eq_of_mem_replicate ha)
        · rcases List.mem_cons.mp ha with rfl | ha
          · exact Or.inl rfl
          · exact hacts a ha
      · rw [run_append, run_sends, run_cons]
        exact hdone

end Worker

end Machine
