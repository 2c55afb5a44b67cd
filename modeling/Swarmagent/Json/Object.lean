import Swarmagent.Json.Value
import Swarmagent.Rust.F64
import Mathlib.Data.Finmap
import Mathlib.Data.Finset.Sort
import Mathlib.Data.String.Basic

/-!
# Writing values

What `serde_json` makes of a value that derives `Serialize`.  A struct becomes an object, with a
member for each of its fields that is not skipped; a map of strings becomes an object with a member
for each entry.  Objects are kept sorted by their keys, so the order in which the members are
written makes no difference to what is read from them (`get_ofFields`), and a member is there
exactly if its field was not skipped (`mem_keys_ofFields`).

Numbers are kept in three forms, so each of the types of numbers is written and read in its own way.
There is no infinity among them.  An `f64` that is not finite is written as `null`, and not read
back (`asF64_ofF64`).
-/

namespace Swarmagent.Json

open Rust (F64)

/-! ## Objects -/

/-- `Map::insert`, where the members are sorted by their keys. -/
def insertMember (key : String) (v : Value) : List (String × Value) → List (String × Value)
  | [] => [(key, v)]
  | (k, w) :: members =>
      if key < k then (key, v) :: (k, w) :: members
      else if key = k then (key, v) :: members
      else (k, w) :: insertMember key v members

theorem lookup_insertMember (key key' : String) (v : Value) (members : List (String × Value)) :
    (insertMember key v members).lookup key' =
      if key' = key then some v else members.lookup key' := by
  induction members with
  | nil => rw [insertMember, lookup_cons_ite]
  | cons m members ih =>
      obtain ⟨k, w⟩ := m
      rw [insertMember]
      split
      · rw [lookup_cons_ite]
      · split
        · next hk =>
            rw [lookup_cons_ite, lookup_cons_ite, hk]
            split <;> rfl
        · next hk =>
            rw [lookup_cons_ite, lookup_cons_ite, ih]
            by_cases h : key' = k
            · rw [if_pos h, if_pos h, if_neg (h ▸ Ne.symm hk)]
            · rw [if_neg h, if_neg h]

theorem mem_keys_insertMember (key key' : String) (v : Value) (members : List (String × Value)) :
    key' ∈ (insertMember key v members).map Prod.fst ↔
      key' = key ∨ key' ∈ members.map Prod.fst := by
  induction members with
  | nil => simp [insertMember]
  | cons m members ih =>
      obtain ⟨k, w⟩ := m
      rw [insertMember]
      split
      · simp
      · split
        · next hk =>
            subst hk
            simp
        · rw [List.map_cons, List.mem_cons, ih, List.map_cons, List.mem_cons]
          exact or_left_comm

/-- Write a field, if it is not skipped. -/
def writeField (members : List (String × Value)) (f : String × Option Value) :
    List (String × Value) :=
  match f.2 with
  | some v => insertMember f.1 v members
  | none => members

/-- The object of a struct with the given fields.  One that is skipped has no value. -/
def Value.ofFields (fields : List (String × Option Value)) : Value :=
  .object (fields.foldl writeField [])

theorem lookup_foldl_writeField {fields : List (String × Option Value)}
    (hfields : (fields.map Prod.fst).Nodup) (members : List (String × Value)) (key : String) :
    (fields.foldl writeField members).lookup key =
      ((fields.lookup key).join).or (members.lookup key) := by
  induction fields generalizing members with
  | nil => rfl
  | cons f fields ih =>
      obtain ⟨k, v⟩ := f
      obtain ⟨hk, hfields⟩ := List.nodup_cons.mp hfields
      rw [List.foldl_cons, ih hfields, lookup_cons_ite]
      by_cases h : key = k
      · have hnone : fields.lookup key = none :=
          List.lookup_eq_none_iff.mpr fun p hp ↦
            bne_iff_ne.mpr fun heq ↦ hk (List.mem_map.mpr ⟨p, hp, heq.symm.trans h⟩)
        rw [hnone, if_pos h]
        cases v with
        | none => rfl
        | some v => exact (lookup_insertMember k key v members).trans (if_pos h)
      · rw [if_neg h]
        cases v with
        | none => rfl
        | some v => rw [writeField, lookup_insertMember, if_neg h]

/-- **Reading a member** of a struct gives the field, as long as no two have the same name. -/
theorem get_ofFields {fields : List (String × Option Value)}
    (hfields : (fields.map Prod.fst).Nodup) (key : String) :
    (Value.ofFields fields).get key = (fields.lookup key).join := by
  show (fields.foldl writeField []).lookup key = _
  rw [lookup_foldl_writeField hfields, List.lookup_nil, Option.or_none]

/-- The keys of an object, none of anything else. -/
def Value.keys : Value → List String
  | .object members => members.map Prod.fst
  | _ => []

/-- **The members** are those of the fields that are not skipped. -/
theorem mem_keys_ofFields {fields : List (String × Option Value)} {key : String} :
    key ∈ (Value.ofFields fields).keys ↔ ∃ v, (key, some v) ∈ fields := by
  have hfold : ∀ members : List (String × Value),
      key ∈ (fields.foldl writeField members).map Prod.fst ↔
        (∃ v, (key, some v) ∈ fields) ∨ key ∈ members.map Prod.fst := by
    induction fields with
    | nil => simp
    | cons f fields ih =>
        intro members
        obtain ⟨k, v⟩ := f
        rw [List.foldl_cons, ih]
        cases v with
        | none => simp [writeField]
        | some v =>
            rw [writeField, mem_keys_insertMember]
            simp only [List.mem_cons, Prod.mk.injEq, Option.some.injEq]
            constructor
            · rintro (⟨w, hw⟩ | rfl | hmem)
              · exact Or.inl ⟨w, Or.inr hw⟩
              · exact Or.inl ⟨v, Or.inl ⟨rfl, rfl⟩⟩
              · exact Or.inr hmem
            · rintro (⟨w, ⟨rfl, rfl⟩ | hw⟩ | hmem)
              · exact Or.inr (Or.inl rfl)
              · exact Or.inl ⟨w, hw⟩
              · exact Or.inr (Or.inr hmem)
  show key ∈ (fields.foldl writeField []).map Prod.fst ↔ _
  rw [hfold []]
  simp

/-! ## Numbers -/

namespace Value

def ofU64 (n : UInt64) : Value := .number (.posInt n)

/-- The numbers of an `i64`. -/
def IsI64 (n : Int) : Prop := -2 ^ 63 ≤ n ∧ n < 2 ^ 63

/-- An `i64` is written as a natural number if it is one. -/
def ofI64 (n : Int) : Value :=
  if 0 ≤ n then .number (.posInt (.ofNat n.toNat)) else .number (.negInt (.ofInt n))

def ofF64 : F64 → Value
  | .finite x _ => .number (.float x)
  | .inf _ | .nan => .null

/-- `Value::as_f64`. -/
def asF64 : Value → Option F64
  | .number (.posInt n) => some n.toNat
  | .number (.negInt n) => some (.ofRat n.toInt)
  | .number (.float x) => some (.ofRat x)
  | _ => none

@[simp] theorem asU64_ofU64 (n : UInt64) : (ofU64 n).asU64 = some n := rfl

theorem asF64_ofF64 (x : F64) : (ofF64 x).asF64 = if x.isFinite then some x else none := by
  cases x with
  | finite x h => exact congrArg some (F64.ofRat_value rfl)
  | inf negative => rfl
  | nan => rfl

theorem asI64_ofI64 {n : Int} (h : IsI64 n) : (ofI64 n).asI64 = some n := by
  obtain ⟨hmin, hmax⟩ := h
  unfold ofI64
  split
  · next hpos =>
      have hlt : n.toNat < UInt64.size := by
        rw [UInt64.size, Int.toNat_lt hpos]
        omega
      have hnat : (UInt64.ofNat n.toNat).toNat = n.toNat := UInt64.toNat_ofNat_of_lt' hlt
      rw [asI64, hnat, if_pos (by omega), Int.toNat_of_nonneg hpos]
  · rw [asI64, Int64.toInt_ofInt_of_le hmin hmax]

end Value

/-! ## Maps -/

/-- The members of a map of strings, sorted by their keys. -/
def mapMembers (m : Finmap fun _ : String ↦ String) : List (String × Value) :=
  (m.keys.sort (· ≤ ·)).map fun k ↦ (k, .string ((m.lookup k).getD ""))

/-- The object of a map of strings. -/
def Value.ofMap (m : Finmap fun _ : String ↦ String) : Value := .object (mapMembers m)

/-- An entry of a map of strings. -/
def readEntry (m : String × Value) : Option (Sigma fun _ : String ↦ String) :=
  m.2.asStr.map fun s ↦ ⟨m.1, s⟩

/-- Read a map of strings. -/
def Value.asMap : Value → Option (Finmap fun _ : String ↦ String)
  | .object members => (members.mapM readEntry).map List.toFinmap
  | _ => none

/-- Reading the members of a map gives its entries. -/
theorem mapM_readEntry (f : String → String) (l : List String) :
    (l.map fun k ↦ (k, Value.string (f k))).mapM readEntry = some (l.map fun k ↦ ⟨k, f k⟩) := by
  induction l with
  | nil => rfl
  | cons k l ih =>
      rw [List.map_cons, List.mapM_cons, ih]
      rfl

theorem dlookup_map_keys (f : String → String) (l : List String) (k : String) :
    List.dlookup (β := fun _ : String ↦ String) k (l.map fun k ↦ ⟨k, f k⟩) =
      if k ∈ l then some (f k) else none := by
  induction l with
  | nil => rfl
  | cons k' l ih =>
      rw [List.map_cons]
      by_cases h : k = k'
      · subst h
        rw [List.dlookup_cons_eq, if_pos List.mem_cons_self]
      · rw [List.dlookup_cons_ne _ _ h, ih]
        simp [h]

/-- **A map is read back** as it was written. -/
theorem asMap_ofMap (m : Finmap fun _ : String ↦ String) : (Value.ofMap m).asMap = some m := by
  rw [Value.ofMap, Value.asMap, mapMembers, mapM_readEntry fun k ↦ (m.lookup k).getD "",
    Option.map_some, Option.some.injEq]
  refine Finmap.ext_lookup fun k ↦ ?_
  rw [Finmap.dlookup_list_toFinmap, dlookup_map_keys fun k ↦ (m.lookup k).getD ""]
  split
  · next hk =>
      obtain ⟨v, hv⟩ := Finmap.mem_iff.mp (Finmap.mem_keys.mp ((Finset.mem_sort _).mp hk))
      rw [hv, Option.getD_some]
  · next hk =>
      rw [Finset.mem_sort, Finmap.mem_keys] at hk
      exact (Finmap.lookup_eq_none.mpr hk).symm

end Swarmagent.Json
