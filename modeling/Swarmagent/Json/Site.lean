import Swarmagent.Json.Schema

/-!
# Fields in documents

A field of a struct occurs in a document wherever the document is read as that struct, at any
depth.  `Site s p fields` says that reading a document by the schema `s` comes, at the path `p`, to
a struct with these fields, and `Value.Occurs` that the document has an object there with a member
of a given name.

Two changes are made at such a place: the member is set to `null`, or it is removed.  Of a field
whose type is an `Option` the reader cannot tell which.  For any other it can:
`map_decode_null_eq_remove_iff` is the exact statement.
-/

namespace Swarmagent.Json

/-! ## Places in a document -/

/-- One step down into a document. -/
inductive Step where
  | member (key : String)
  | elem (i : ℕ)
deriving DecidableEq

namespace Value

/-- The value at a path. -/
def at? : List Step → Value → Option Value
  | [], v => some v
  | .member key :: path, v => (v.get key).bind (at? path)
  | .elem i :: path, v => (v.asArray.bind fun elems ↦ elems[i]?).bind (at? path)

theorem at?_member {key : String} {path : List Step} {v w : Value}
    (h : v.at? (.member key :: path) = some w) :
    ∃ members x, v = .object members ∧ members.lookup key = some x ∧ x.at? path = some w := by
  obtain ⟨x, hx, hat⟩ := Option.bind_eq_some_iff.mp h
  cases v with
  | object members => exact ⟨members, x, rfl, hx, hat⟩
  | _ => cases hx

theorem at?_elem {i : ℕ} {path : List Step} {v w : Value}
    (h : v.at? (.elem i :: path) = some w) :
    ∃ elems x, v = .array elems ∧ elems[i]? = some x ∧ x.at? path = some w := by
  obtain ⟨x, hx, hat⟩ := Option.bind_eq_some_iff.mp h
  cases v with
  | array elems => exact ⟨elems, x, rfl, hx, hat⟩
  | _ => cases hx

/-- Replace the value of a member. -/
def onMember (g : Value → Value) (key : String) (members : List (String × Value)) :
    List (String × Value) :=
  members.map fun m ↦ if m.1 = key then (m.1, g m.2) else m

/-- Replace the value at a path.  If the path leads nowhere, nothing changes. -/
def modify (g : Value → Value) : List Step → Value → Value
  | [], v => g v
  | step :: path, v => match step, v with
    | .member key, .object members => .object (onMember (modify g path) key members)
    | .elem i, .array elems => .array (elems.modify i (modify g path))
    | _, v => v

/-- Set a member of an object to `null`. -/
def nullMember (key : String) : Value → Value
  | .object members => .object (onMember (fun _ ↦ .null) key members)
  | v => v

/-- Remove a member of an object. -/
def removeMember (key : String) : Value → Value
  | .object members => .object (members.filter fun m ↦ m.1 ≠ key)
  | v => v

/-- There is an object at the path, and it has the member. -/
def Occurs (v : Value) (path : List Step) (key : String) : Prop :=
  ∃ members, v.at? path = some (.object members) ∧ (members.lookup key).isSome = true

theorem lookup_onMember (g : Value → Value) (key k : String) (members : List (String × Value)) :
    (onMember g key members).lookup k =
      if k = key then (members.lookup k).map g else members.lookup k := by
  induction members with
  | nil => simp [onMember]
  | cons m members ih =>
      obtain ⟨k', w⟩ := m
      unfold onMember at ih ⊢
      by_cases hkey : k' = key
      · rw [List.map_cons, if_pos hkey, lookup_cons_ite, lookup_cons_ite, ih, hkey]
        by_cases hk : k = key <;> simp [hk]
      · rw [List.map_cons, if_neg hkey, lookup_cons_ite, lookup_cons_ite, ih]
        by_cases hk : k = k'
        · simp [hk, hkey]
        · rw [if_neg hk, if_neg hk]

theorem lookup_filter_ne (key k : String) (members : List (String × Value)) :
    (members.filter fun m ↦ m.1 ≠ key).lookup k =
      if k = key then none else members.lookup k := by
  induction members with
  | nil => simp
  | cons m members ih =>
      obtain ⟨k', w⟩ := m
      by_cases hkey : k' = key
      · rw [List.filter_cons_of_neg (by simpa using hkey), ih, lookup_cons_ite, hkey]
        by_cases hk : k = key <;> simp [hk]
      · rw [List.filter_cons_of_pos (by simpa using hkey), lookup_cons_ite, ih, lookup_cons_ite]
        by_cases hk : k = k'
        · simp [hk, hkey]
        · rw [if_neg hk, if_neg hk]

/-- What is done at a path does not matter to whether the whole is `null`. -/
theorem modify_eq_null_iff {g g' : Value → Value} (h : ∀ v, g v = .null ↔ g' v = .null)
    (path : List Step) (v : Value) : v.modify g path = .null ↔ v.modify g' path = .null := by
  cases path with
  | nil => exact h v
  | cons step path => cases step <;> cases v <;> simp [modify]

/-- A value with a place in it is not `null`, whatever is put there. -/
theorem modify_ne_null {g : Value → Value} {path : List Step} {v w : Value}
    (h : v.at? path = some w) (hg : g w ≠ .null) : v.modify g path ≠ .null := by
  cases path with
  | nil =>
      obtain rfl : v = w := Option.some.inj h
      exact hg
  | cons step path =>
      cases step <;> cases v <;> simp_all [modify, at?, get, asArray]

end Value

/-! ## Where a struct is read -/

/-- Reading a document by the schema comes, at the path, to a struct with the fields. -/
inductive Site : Schema → List Step → List (FieldDecl Schema) → Prop
  | here {fields : List (FieldDecl Schema)} : Site (.struct fields) [] fields
  | option {s : Schema} {path : List Step} {fields : List (FieldDecl Schema)} :
      Site s path fields → Site (.option s) path fields
  | elem {s : Schema} {path : List Step} {fields : List (FieldDecl Schema)} (i : ℕ) :
      Site s path fields → Site (.vec s) (.elem i :: path) fields
  | /-- The struct is read from an object. -/
    member {outer fields : List (FieldDecl Schema)} {path : List Step} {f : FieldDecl Schema} :
      f ∈ outer → Site f.type path fields → Site (.struct outer) (.member f.key :: path) fields
  | /-- The struct is read from an array. -/
    position {outer fields : List (FieldDecl Schema)} {path : List Step} {f : FieldDecl Schema}
      {i : ℕ} :
      outer[i]? = some f → Site f.type path fields → Site (.struct outer) (.elem i :: path) fields

mutual

/-- No struct has two fields of the same name. -/
def Schema.distinct : Schema → Bool
  | .string => true
  | .u64 => true
  | .option s => s.distinct
  | .vec s => s.distinct
  | .struct fields => fieldsDistinct fields

def fieldsDistinct : List (FieldDecl Schema) → Bool
  | [] => true
  | ⟨key, _, s⟩ :: fields =>
      s.distinct && fieldsDistinct fields && !(fields.any fun f ↦ f.key = key)

end

theorem fieldsDistinct_cons {f : FieldDecl Schema} {fields : List (FieldDecl Schema)} :
    fieldsDistinct (f :: fields) = true ↔
      f.type.distinct = true ∧ fieldsDistinct fields = true ∧ ∀ f' ∈ fields, f'.key ≠ f.key := by
  obtain ⟨key, hasDefault, s⟩ := f
  show (s.distinct && fieldsDistinct fields && !(fields.any fun f ↦ f.key = key)) = true ↔ _
  simp [and_assoc]

/-- In a struct of distinct fields, a field is known by its name. -/
theorem eq_of_key_eq {fields : List (FieldDecl Schema)} (h : fieldsDistinct fields = true)
    {f f' : FieldDecl Schema} (hf : f ∈ fields) (hf' : f' ∈ fields) (hkey : f.key = f'.key) :
    f = f' := by
  induction fields with
  | nil => simp at hf
  | cons f₀ fields ih =>
      obtain ⟨-, hfields, hne⟩ := fieldsDistinct_cons.mp h
      rw [List.mem_cons] at hf hf'
      rcases hf with rfl | hf <;> rcases hf' with rfl | hf'
      · rfl
      · exact absurd hkey.symm (hne f' hf')
      · exact absurd hkey (hne f hf)
      · exact ih hfields hf hf'

theorem distinct_of_mem {fields : List (FieldDecl Schema)} (h : fieldsDistinct fields = true)
    {f : FieldDecl Schema} (hf : f ∈ fields) : f.type.distinct = true := by
  induction fields with
  | nil => simp at hf
  | cons f₀ fields ih =>
      obtain ⟨hf₀, hfields, -⟩ := fieldsDistinct_cons.mp h
      rcases List.mem_cons.mp hf with rfl | hf
      · exact hf₀
      · exact ih hfields hf

theorem Site.distinct {s : Schema} {path : List Step} {fields : List (FieldDecl Schema)}
    (h : Site s path fields) (hs : s.distinct = true) : fieldsDistinct fields = true := by
  induction h with
  | here => exact hs
  | option _ ih => exact ih hs
  | elem i _ ih => exact ih hs
  | member hf _ ih => exact ih (distinct_of_mem hs hf)
  | position hf _ ih => exact ih (distinct_of_mem hs (List.mem_of_getElem? hf))

/-! ## Reading a struct depends on its fields only -/

section Fields

variable {fields : List (FieldDecl Schema)}

theorem decodeMembers_congr {members members' : List (String × Value)}
    (h : ∀ f ∈ fields, readMember f members = readMember f members') :
    decodeMembers fields members = decodeMembers fields members' := by
  induction fields with
  | nil => rfl
  | cons f fields ih =>
      exact decodeMembers_cons_congr (h f List.mem_cons_self)
        (ih fun f' hf' ↦ h f' (List.mem_cons_of_mem f hf'))

/-- One field that cannot be read is enough. -/
theorem decodeMembers_eq_none {members : List (String × Value)} {f : FieldDecl Schema}
    (hf : f ∈ fields) (h : readMember f members = none) : decodeMembers fields members = none := by
  rw [← Option.not_isSome_iff_eq_none] at h ⊢
  induction fields with
  | nil => simp at hf
  | cons f₀ fields ih =>
      rw [isSome_decodeMembers_cons, Bool.and_eq_true]
      rintro ⟨hread, hreads⟩
      rcases List.mem_cons.mp hf with rfl | hf
      · exact h hread
      · exact ih hf hreads

theorem decodeElems_modify_congr {g g' : Value → Value} {i : ℕ}
    (h : ∀ f, fields[i]? = some f → ∀ w, f.type.decode (g w) = f.type.decode (g' w))
    (elems : List Value) :
    decodeElems fields (elems.modify i g) = decodeElems fields (elems.modify i g') := by
  induction fields generalizing i elems with
  | nil => cases elems <;> cases i <;> rfl
  | cons f fields ih =>
      cases elems with
      | nil => cases i <;> rfl
      | cons w elems =>
          cases i with
          | zero => exact decodeElems_cons_congr (h f rfl w) rfl
          | succ i => exact decodeElems_cons_congr rfl (ih (fun f' hf' ↦ h f' hf') elems)

theorem decodeElems_eq_none {elems : List Value} {i : ℕ} {f : FieldDecl Schema} {w : Value}
    (hf : fields[i]? = some f) (hw : elems[i]? = some w) (h : f.type.decode w = none) :
    decodeElems fields elems = none := by
  rw [← Option.not_isSome_iff_eq_none] at h ⊢
  induction fields generalizing i elems with
  | nil => simp at hf
  | cons f₀ fields ih =>
      cases elems with
      | nil => simp at hw
      | cons w₀ elems =>
          rw [isSome_decodeElems_cons, Bool.and_eq_true]
          rintro ⟨hread, hreads⟩
          cases i with
          | zero =>
              obtain rfl : f₀ = f := Option.some.inj hf
              obtain rfl : w₀ = w := Option.some.inj hw
              exact h hread
          | succ i => exact ih hf hw hreads

end Fields

theorem mapM_modify_congr {α β : Type} {r : α → Option β} {g g' : α → α}
    (h : ∀ x, r (g x) = r (g' x)) (l : List α) (i : ℕ) :
    (l.modify i g).mapM r = (l.modify i g').mapM r := by
  induction l generalizing i with
  | nil => cases i <;> rfl
  | cons x l ih =>
      cases i with
      | zero => simp only [List.modify_zero_cons, List.mapM_cons, h]
      | succ i => simp only [List.modify_succ_cons, List.mapM_cons, ih]

/-! ## Changes at a site -/

/-- **Changes that a struct does not notice** are not noticed by anything it is part of. -/
theorem decode_modify_congr {s : Schema} {path : List Step} {fields : List (FieldDecl Schema)}
    (h : Site s path fields) (hs : s.distinct = true) {g g' : Value → Value}
    (hnull : ∀ v, g v = .null ↔ g' v = .null)
    (hg : ∀ v, (Schema.struct fields).decode (g v) = (Schema.struct fields).decode (g' v))
    (v : Value) : s.decode (v.modify g path) = s.decode (v.modify g' path) := by
  induction h generalizing v with
  | here => exact hg v
  | @option s path _ _ ih =>
      exact decode_option_congr (Value.modify_eq_null_iff hnull path v) (ih hs hg v)
  | elem i _ ih =>
      cases v with
      | array elems => exact decode_array_congr (mapM_modify_congr (ih hs hg) elems i)
      | _ => rfl
  | @member outer _ path f hf _ ih =>
      cases v with
      | object members =>
          apply decode_object_congr
          apply decodeMembers_congr
          intro f' hf'
          unfold readMember
          rw [Value.lookup_onMember, Value.lookup_onMember]
          by_cases hkey : f'.key = f.key
          · obtain rfl := eq_of_key_eq hs hf' hf hkey
            rw [if_pos rfl, if_pos rfl]
            cases members.lookup f'.key with
            | none => rfl
            | some w => exact ih (distinct_of_mem hs hf) hg w
          · rw [if_neg hkey, if_neg hkey]
      | _ => rfl
  | @position outer _ path f i hf _ ih =>
      cases v with
      | array elems =>
          apply decode_elems_congr
          apply decodeElems_modify_congr
          intro f' hf'
          obtain rfl : f = f' := Option.some.inj (hf.symm.trans hf')
          exact ih (distinct_of_mem hs (List.mem_of_getElem? hf)) hg
      | _ => rfl

theorem getElem?_modify_some {g : Value → Value} {elems : List Value} {i : ℕ} {x : Value}
    (hx : elems[i]? = some x) : (elems.modify i g)[i]? = some (g x) := by
  rw [List.getElem?_modify_eq, hx]
  rfl

/-- **A change that a struct cannot be read after** is one that nothing it is part of can be read
after. -/
theorem decode_modify_eq_none {s : Schema} {path : List Step} {fields : List (FieldDecl Schema)}
    (h : Site s path fields) {g : Value → Value} {v w : Value} (hw : v.at? path = some w)
    (hnull : g w ≠ .null) (hg : (Schema.struct fields).decode (g w) = none) :
    s.decode (v.modify g path) = none := by
  induction h generalizing v with
  | here =>
      obtain rfl : v = w := Option.some.inj hw
      exact hg
  | option _ ih =>
      rw [← Option.not_isSome_iff_eq_none, isSome_decode_option (Value.modify_ne_null hw hnull),
        ih hw hg]
      exact Bool.false_ne_true
  | @elem _ path _ i _ ih =>
      obtain ⟨elems, x, rfl, hx, hat⟩ := Value.at?_elem hw
      rw [← Option.not_isSome_iff_eq_none, Value.modify, isSome_decode_array, isSome_mapM_iff]
      intro hall
      have hread := hall _ (List.mem_of_getElem? (getElem?_modify_some hx))
      rw [ih hat hg] at hread
      exact Bool.false_ne_true hread
  | @member outer _ path f hf _ ih =>
      obtain ⟨members, x, rfl, hx, hat⟩ := Value.at?_member hw
      apply decodeMembers_eq_none hf
      unfold readMember
      rw [Value.lookup_onMember, if_pos rfl, hx]
      exact ih hat hg
  | @position outer _ path f i hf _ ih =>
      obtain ⟨elems, x, rfl, hx, hat⟩ := Value.at?_elem hw
      exact decodeElems_eq_none hf (getElem?_modify_some hx) (ih hat hg)

/-! ## `null` and absence -/

/-- `null` is read as an `Option` and as nothing else. -/
theorem isSome_decode_null_iff (s : Schema) : (s.decode .null).isSome = true ↔ s.IsOption := by
  cases s with
  | option s => exact iff_of_true rfl trivial
  | _ => exact iff_of_false Bool.false_ne_true id

/-- A field that is an `Option` is read from `null` as from nothing. -/
theorem readMember_null_eq_remove {f : FieldDecl Schema} (hf : f.type.IsOption)
    (members : List (String × Value)) :
    readMember f (Value.onMember (fun _ ↦ .null) f.key members) =
      readMember f (members.filter fun m ↦ m.1 ≠ f.key) := by
  obtain ⟨key, hasDefault, s⟩ := f
  unfold readMember
  rw [Value.lookup_onMember, Value.lookup_filter_ne, if_pos rfl, if_pos rfl]
  cases s with
  | option s => cases members.lookup key <;> cases hasDefault <;> rfl
  | _ => exact hf.elim

/-- A struct does not tell `null` from absence in a field that is an `Option`. -/
theorem decode_nullMember_eq {fields : List (FieldDecl Schema)} (hs : fieldsDistinct fields = true)
    {f : FieldDecl Schema} (hf : f ∈ fields) (hopt : f.type.IsOption) (v : Value) :
    (Schema.struct fields).decode (v.nullMember f.key) =
      (Schema.struct fields).decode (v.removeMember f.key) := by
  cases v with
  | object members =>
      apply decode_object_congr
      apply decodeMembers_congr
      intro f' hf'
      by_cases hkey : f'.key = f.key
      · obtain rfl := eq_of_key_eq hs hf' hf hkey
        exact readMember_null_eq_remove hopt members
      · unfold readMember
        rw [Value.lookup_onMember, Value.lookup_filter_ne, if_neg hkey, if_neg hkey]
  | _ => rfl

/-- A struct cannot be read if a field that is no `Option` is `null`. -/
theorem decode_nullMember_eq_none {fields : List (FieldDecl Schema)} {f : FieldDecl Schema}
    (hf : f ∈ fields) (hopt : ¬f.type.IsOption) {members : List (String × Value)}
    (hocc : (members.lookup f.key).isSome = true) :
    (Schema.struct fields).decode ((Value.object members).nullMember f.key) = none := by
  have hread : readMember f (Value.onMember (fun _ ↦ .null) f.key members) = none := by
    obtain ⟨w, hw⟩ := Option.isSome_iff_exists.mp hocc
    unfold readMember
    rw [Value.lookup_onMember, if_pos rfl, hw]
    exact Option.not_isSome_iff_eq_none.mp fun h ↦ hopt ((isSome_decode_null_iff f.type).mp h)
  exact decodeMembers_eq_none hf hread

section Null

variable {s : Schema} {path : List Step} {fields : List (FieldDecl Schema)} {f : FieldDecl Schema}

/-- An `Option` is read from `null` as from nothing, wherever it occurs. -/
theorem decode_null_eq_remove (hs : s.distinct = true) (h : Site s path fields) (hf : f ∈ fields)
    (hopt : f.type.IsOption) (v : Value) :
    s.decode (v.modify (Value.nullMember f.key) path) =
      s.decode (v.modify (Value.removeMember f.key) path) := by
  have hnull : ∀ w, Value.nullMember f.key w = .null ↔ Value.removeMember f.key w = .null := by
    intro w
    cases w <;> simp [Value.nullMember, Value.removeMember]
  exact decode_modify_congr h hs hnull (decode_nullMember_eq (h.distinct hs) hf hopt) v

/-- Nothing else is read from `null`, wherever it occurs. -/
theorem decode_null_eq_none (h : Site s path fields) (hf : f ∈ fields) (hopt : ¬f.type.IsOption)
    {v : Value} (hocc : v.Occurs path f.key) :
    s.decode (v.modify (Value.nullMember f.key) path) = none := by
  obtain ⟨members, hat, hmember⟩ := hocc
  exact decode_modify_eq_none h hat (by simp [Value.nullMember])
    (decode_nullMember_eq_none hf hopt hmember)

/-- **`null` and absence.**  Wherever a field occurs, reading the document with `null` in its place
is the same as reading it without the field, in success and in what is made of the result, exactly
if the field is an `Option` or the document is malformed without the field too. -/
theorem map_decode_null_eq_remove_iff {α : Type} (g : s.Val → α) (hs : s.distinct = true)
    (h : Site s path fields) (hf : f ∈ fields) {v : Value} (hocc : v.Occurs path f.key) :
    (s.decode (v.modify (Value.nullMember f.key) path)).map g =
        (s.decode (v.modify (Value.removeMember f.key) path)).map g ↔
      f.type.IsOption ∨ ¬s.Conforms (v.modify (Value.removeMember f.key) path) := by
  rw [← s.isSome_decode_iff, Option.not_isSome_iff_eq_none]
  by_cases hopt : f.type.IsOption
  · rw [decode_null_eq_remove hs h hf hopt]
    exact iff_of_true rfl (Or.inl hopt)
  · rw [decode_null_eq_none h hf hopt hocc, or_iff_right hopt, Option.map_none, eq_comm,
      Option.map_eq_none_iff]

end Null

end Swarmagent.Json
