import Mathlib.Data.Finmap

/-!
# Collecting into a map

A loop over a list inserts into a map what it makes of each item, if it makes anything of it.  When
several items give an entry for the same key, the last of them wins.
-/

namespace Machine

/-! ## The last of its kind -/

/-- Of the items of the list with the property, this is the last. -/
def IsLast {α : Type*} (p : α → Prop) (x : α) (l : List α) : Prop :=
  ∃ pre post, l = pre ++ x :: post ∧ p x ∧ ∀ y ∈ post, ¬p y

section IsLast

variable {α : Type*} {p : α → Prop} {x : α} {l : List α}

theorem IsLast.mem (h : IsLast p x l) : x ∈ l := by
  obtain ⟨pre, post, rfl, -, -⟩ := h
  exact List.mem_append_right pre List.mem_cons_self

theorem IsLast.prop (h : IsLast p x l) : p x := by
  obtain ⟨pre, post, -, hx, -⟩ := h
  exact hx

theorem isLast_congr {q : α → Prop} (h : ∀ y, p y ↔ q y) : IsLast p x l ↔ IsLast q x l := by
  rw [funext fun y ↦ propext (h y)]

/-- There is a last one if there is any. -/
theorem exists_isLast (h : ∃ x ∈ l, p x) : ∃ x, IsLast p x l := by
  classical
  induction l with
  | nil => simp at h
  | cons y l ih =>
      by_cases hrest : ∃ x ∈ l, p x
      · obtain ⟨x, pre, post, rfl, hx, hpost⟩ := ih hrest
        exact ⟨x, y :: pre, post, rfl, hx, hpost⟩
      · obtain ⟨x, hmem, hx⟩ := h
        rcases List.mem_cons.mp hmem with rfl | hmem
        · exact ⟨x, [], l, rfl, hx, fun z hz hpz ↦ hrest ⟨z, hz, hpz⟩⟩
        · exact absurd ⟨x, hmem, hx⟩ hrest

end IsLast

/-! ## The loop -/

variable {α κ β : Type*} [DecidableEq κ] (entry : α → Option (κ × β))

/-- Insert the entry made of an item. -/
def collectStep (m : Finmap fun _ : κ ↦ β) (x : α) : Finmap fun _ : κ ↦ β :=
  match entry x with
  | some (k, b) => m.insert k b
  | none => m

/-- The map of the entries made of the items. -/
def collect (l : List α) : Finmap fun _ : κ ↦ β := l.foldl (collectStep entry) ∅

section Collect

variable {entry} {m m' : Finmap fun _ : κ ↦ β} {x : α} {l pre post : List α} {k : κ} {b : β}

/-- The item gives an entry for the key. -/
def Gives (entry : α → Option (κ × β)) (k : κ) (x : α) : Prop := ∃ b, entry x = some (k, b)

theorem lookup_collectStep_self (h : entry x = some (k, b)) :
    (collectStep entry m x).lookup k = some b := by
  rw [collectStep, h]
  exact Finmap.lookup_insert m

theorem lookup_collectStep_of_not (h : ¬Gives entry k x) :
    (collectStep entry m x).lookup k = m.lookup k := by
  unfold collectStep
  split
  · next k' b' hx =>
      apply Finmap.lookup_insert_of_ne
      rintro rfl
      exact h ⟨b', hx⟩
  · rfl

/-- What follows, and gives nothing for the key, does not matter. -/
theorem lookup_foldl_collectStep (h : ∀ y ∈ l, ¬Gives entry k y) :
    (l.foldl (collectStep entry) m).lookup k = m.lookup k := by
  induction l generalizing m with
  | nil => rfl
  | cons y l ih =>
      rw [List.foldl_cons, ih fun z hz ↦ h z (List.mem_cons_of_mem y hz),
        lookup_collectStep_of_not (h y List.mem_cons_self)]

/-- Under one key, the loop depends on what was there under the key. -/
theorem lookup_foldl_congr (h : m.lookup k = m'.lookup k) :
    (l.foldl (collectStep entry) m).lookup k = (l.foldl (collectStep entry) m').lookup k := by
  induction l generalizing m m' with
  | nil => exact h
  | cons y l ih =>
      rw [List.foldl_cons, List.foldl_cons]
      apply ih
      by_cases hy : Gives entry k y
      · obtain ⟨b, hb⟩ := hy
        rw [lookup_collectStep_self hb, lookup_collectStep_self hb]
      · rw [lookup_collectStep_of_not hy, lookup_collectStep_of_not hy, h]

/-- **The last entry wins.** -/
theorem lookup_collect_of_isLast (h : IsLast (Gives entry k) x l) (hx : entry x = some (k, b)) :
    (collect entry l).lookup k = some b := by
  obtain ⟨pre, post, rfl, -, hpost⟩ := h
  rw [collect, List.foldl_append, List.foldl_cons, lookup_foldl_collectStep hpost,
    lookup_collectStep_self hx]

theorem lookup_collect_eq_none (h : ∀ x ∈ l, ¬Gives entry k x) :
    (collect entry l).lookup k = none := by
  rw [collect, lookup_foldl_collectStep h]
  exact Finmap.lookup_empty k

/-- What is there was given by one of the items. -/
theorem exists_of_lookup_collect (h : (collect entry l).lookup k = some b) :
    ∃ x ∈ l, entry x = some (k, b) := by
  by_cases hgives : ∃ x ∈ l, Gives entry k x
  · obtain ⟨x, hlast⟩ := exists_isLast hgives
    obtain ⟨b', hb'⟩ := hlast.prop
    rw [lookup_collect_of_isLast hlast hb', Option.some.injEq] at h
    exact ⟨x, hlast.mem, h ▸ hb'⟩
  · rw [lookup_collect_eq_none fun x hx hx' ↦ hgives ⟨x, hx, hx'⟩] at h
    cases h

/-- An item that gives nothing for a key does not matter to it. -/
theorem lookup_collect_insert (h : ¬Gives entry k x) :
    (collect entry (pre ++ x :: post)).lookup k = (collect entry (pre ++ post)).lookup k := by
  rw [collect, collect, List.foldl_append, List.foldl_cons, List.foldl_append]
  exact lookup_foldl_congr (lookup_collectStep_of_not h)

end Collect

end Machine
