import Swarmagent.Json.Value

/-!
# Schemas

A type that derives `Deserialize` says which documents it is read from and what becomes of them.
Its declaration is a `Schema`: what the fields are called, which of them have a default, and what
they are read as.  This file has the values a schema stands for (`Schema.Val`), the derived reader
(`Schema.decode`), and the documents it accepts, which can be said without it (`Schema.Conforms`,
`Schema.isSome_decode_iff`).

What `serde` and `serde_json` do, as far as these types go:

* `Option` is read from `null` and from what its content is read from; a field of this type may be
  missing, with or without a default;
* `Vec` is read from an array and from nothing else, `String` from a string, `u64` from a natural
  number that fits, and none of the three from `null`;
* a struct is read from an object, of which unknown members are ignored, or from the array of its
  fields in their order, of which only fields with a default may be left out, at the end.
-/

namespace Swarmagent.Json

/-- The declaration of a field.  `hasDefault` is the attribute `#[serde(default)]`. -/
structure FieldDecl (σ : Type) where
  key : String
  hasDefault : Bool
  type : σ

/-- A type that a document can be read as. -/
inductive Schema where
  | string
  | u64
  | option (s : Schema)
  | vec (s : Schema)
  | struct (fields : List (FieldDecl Schema))

mutual

/-- The values of the type. -/
def Schema.Val : Schema → Type
  | .string => String
  | .u64 => UInt64
  | .option s => Option s.Val
  | .vec s => List s.Val
  | .struct fields => FieldsVal fields

/-- The values of the fields of a struct. -/
def FieldsVal : List (FieldDecl Schema) → Type
  | [] => Unit
  | ⟨_, _, s⟩ :: fields => s.Val × FieldsVal fields

end

mutual

/-- `Default::default()`. -/
def Schema.default : (s : Schema) → s.Val
  | .string => ""
  | .u64 => (0 : UInt64)
  | .option _ => none
  | .vec _ => []
  | .struct fields => fieldsDefault fields

def fieldsDefault : (fields : List (FieldDecl Schema)) → FieldsVal fields
  | [] => ()
  | ⟨_, _, s⟩ :: fields => (s.default, fieldsDefault fields)

end

/-- The value of a field without a default when it is missing from an object. -/
def Schema.absent : (s : Schema) → Option s.Val
  | .option _ => some none
  | _ => none

/-- Two parts are read one after the other. -/
def readPair {α β : Type} (x : Option α) (y : Option β) : Option (α × β) :=
  x.bind fun a ↦ y.map fun b ↦ (a, b)

theorem isSome_readPair {α β : Type} (x : Option α) (y : Option β) :
    (readPair x y).isSome = (x.isSome && y.isSome) := by
  cases x <;> cases y <;> rfl

mutual

/-- Read a document. -/
def Schema.decode : (s : Schema) → Value → Option s.Val
  | .string, v => v.asStr
  | .u64, v => v.asU64
  | .option s, v => match v with
    | .null => some none
    | v => (s.decode v).map some
  | .vec s, v => match v with
    | .array elems => elems.mapM fun w ↦ s.decode w
    | _ => none
  | .struct fields, v => match v with
    | .object members => decodeMembers fields members
    | .array elems => decodeElems fields elems
    | _ => none

/-- Read the fields of a struct from the members of an object. -/
def decodeMembers : (fields : List (FieldDecl Schema)) → List (String × Value) →
    Option (FieldsVal fields)
  | [], _ => some ()
  | ⟨key, hasDefault, s⟩ :: fields, members =>
      readPair (match members.lookup key with
        | some w => s.decode w
        | none => if hasDefault then some s.default else s.absent) (decodeMembers fields members)

/-- Read the fields of a struct from the elements of an array. -/
def decodeElems : (fields : List (FieldDecl Schema)) → List Value → Option (FieldsVal fields)
  | [], [] => some ()
  | [], _ :: _ => none
  | ⟨_, _, s⟩ :: fields, w :: elems =>
      readPair (s.decode w) (decodeElems fields elems)
  | ⟨_, hasDefault, s⟩ :: fields, [] =>
      readPair (if hasDefault then some s.default else none) (decodeElems fields [])

end

/-- What a field is read as from the members of an object. -/
def readMember (f : FieldDecl Schema) (members : List (String × Value)) : Option f.type.Val :=
  match members.lookup f.key with
  | some w => f.type.decode w
  | none => if f.hasDefault then some f.type.default else f.type.absent

/-! ### One step of reading

The values of a schema are a type computed from it, so it is said of a step when it succeeds and
when two documents are read alike, but not what is returned. -/

section Decode

variable {s : Schema} {f : FieldDecl Schema} {fields : List (FieldDecl Schema)}

/-- Anything but `null` is read as the content of an `Option`. -/
theorem decode_option {v : Value} (h : v ≠ .null) :
    s.option.decode v = ((s.decode v).map some : Option (Option s.Val)) := by
  cases v with
  | null => exact absurd rfl h
  | _ => rfl

theorem isSome_decode_option {v : Value} (h : v ≠ .null) :
    (s.option.decode v).isSome = (s.decode v).isSome := by
  rw [decode_option h]
  exact Option.isSome_map

theorem decode_option_congr {v v' : Value} (hnull : v = .null ↔ v' = .null)
    (h : s.decode v = s.decode v') : s.option.decode v = s.option.decode v' := by
  by_cases hv : v = .null
  · rw [hv, hnull.mp hv]
  · rw [decode_option hv, decode_option fun hv' ↦ hv (hnull.mpr hv'), h]

theorem isSome_decode_array {elems : List Value} :
    (s.vec.decode (.array elems)).isSome = (elems.mapM fun w ↦ s.decode w).isSome := rfl

theorem decode_array_congr {elems elems' : List Value}
    (h : (elems.mapM fun w ↦ s.decode w) = elems'.mapM fun w ↦ s.decode w) :
    s.vec.decode (.array elems) = s.vec.decode (.array elems') := h

theorem isSome_decode_object {members : List (String × Value)} :
    ((Schema.struct fields).decode (.object members)).isSome =
      (decodeMembers fields members).isSome := rfl

theorem decode_object_congr {members members' : List (String × Value)}
    (h : decodeMembers fields members = decodeMembers fields members') :
    (Schema.struct fields).decode (.object members) =
      (Schema.struct fields).decode (.object members') := h

theorem isSome_decode_elems {elems : List Value} :
    ((Schema.struct fields).decode (.array elems)).isSome = (decodeElems fields elems).isSome := rfl

theorem decode_elems_congr {elems elems' : List Value}
    (h : decodeElems fields elems = decodeElems fields elems') :
    (Schema.struct fields).decode (.array elems) =
      (Schema.struct fields).decode (.array elems') := h

theorem isSome_decodeMembers_cons {members : List (String × Value)} :
    (decodeMembers (f :: fields) members).isSome =
      ((readMember f members).isSome && (decodeMembers fields members).isSome) :=
  isSome_readPair (readMember f members) (decodeMembers fields members)

theorem decodeMembers_cons_congr {members members' : List (String × Value)}
    (hf : readMember f members = readMember f members')
    (h : decodeMembers fields members = decodeMembers fields members') :
    decodeMembers (f :: fields) members = decodeMembers (f :: fields) members' :=
  congrArg₂ readPair hf h

theorem isSome_decodeElems_cons {w : Value} {elems : List Value} :
    (decodeElems (f :: fields) (w :: elems)).isSome =
      ((f.type.decode w).isSome && (decodeElems fields elems).isSome) :=
  isSome_readPair (f.type.decode w) (decodeElems fields elems)

theorem decodeElems_cons_congr {w w' : Value} {elems elems' : List Value}
    (hw : f.type.decode w = f.type.decode w')
    (h : decodeElems fields elems = decodeElems fields elems') :
    decodeElems (f :: fields) (w :: elems) = decodeElems (f :: fields) (w' :: elems') :=
  congrArg₂ readPair hw h

theorem isSome_decodeElems_cons_nil :
    (decodeElems (f :: fields) []).isSome = (f.hasDefault && (decodeElems fields []).isSome) := by
  obtain ⟨key, hasDefault, s⟩ := f
  cases hasDefault with
  | false => rfl
  | true => exact isSome_readPair (some s.default) (decodeElems fields [])

end Decode

/-! ## What is accepted -/

/-- The schema is that of an `Option`. -/
def Schema.IsOption : Schema → Prop
  | .option _ => True
  | _ => False

instance (s : Schema) : Decidable s.IsOption := by
  cases s <;> unfold Schema.IsOption <;> infer_instance

mutual

/-- The document has the shape that the schema asks for. -/
def Schema.Conforms : Schema → Value → Prop
  | .string, v => ∃ x, v = .string x
  | .u64, v => ∃ n, v = .number (.posInt n)
  | .option s, v => v = .null ∨ s.Conforms v
  | .vec s, v => ∃ elems, v = .array elems ∧ ∀ w ∈ elems, s.Conforms w
  | .struct fields, v =>
      (∃ members, v = .object members ∧ MembersConform fields members) ∨
        ∃ elems, v = .array elems ∧ ElemsConform fields elems

/-- Every member that is a field has the shape asked for, and only fields that are optional or
have a default are missing. -/
def MembersConform : List (FieldDecl Schema) → List (String × Value) → Prop
  | [], _ => True
  | ⟨key, hasDefault, s⟩ :: fields, members =>
      (match members.lookup key with
        | some w => s.Conforms w
        | none => hasDefault = true ∨ s.IsOption) ∧ MembersConform fields members

/-- Every element has the shape asked for by the field in its place, and only fields with a
default are left out. -/
def ElemsConform : List (FieldDecl Schema) → List Value → Prop
  | [], elems => elems = []
  | ⟨_, _, s⟩ :: fields, w :: elems => s.Conforms w ∧ ElemsConform fields elems
  | ⟨_, hasDefault, _⟩ :: fields, [] => hasDefault = true ∧ ElemsConform fields []

end

theorem Schema.isSome_absent_iff (s : Schema) : s.absent.isSome = true ↔ s.IsOption := by
  cases s with
  | option s => exact iff_of_true rfl trivial
  | _ => exact iff_of_false Bool.false_ne_true id

theorem isSome_mapM_iff {α β : Type} {f : α → Option β} {l : List α} :
    (l.mapM f).isSome = true ↔ ∀ x ∈ l, (f x).isSome = true := by
  induction l with
  | nil => simp
  | cons x l ih =>
      rw [List.mapM_cons, List.forall_mem_cons, ← ih]
      cases f x <;> cases l.mapM f <;> simp

mutual

/-- **What is accepted**: the documents of the shape that the schema asks for. -/
theorem Schema.isSome_decode_iff : ∀ (s : Schema) (v : Value),
    (s.decode v).isSome = true ↔ s.Conforms v
  | .string, v => by
      show v.asStr.isSome = true ↔ ∃ x, v = .string x
      cases v <;> simp [Value.asStr]
  | .u64, v => by
      show v.asU64.isSome = true ↔ ∃ n, v = .number (.posInt n)
      cases v with
      | number n => cases n <;> simp [Value.asU64]
      | _ => simp [Value.asU64]
  | .option s, v => by
      show _ ↔ v = .null ∨ s.Conforms v
      by_cases hv : v = .null
      · rw [hv]
        exact iff_of_true rfl (Or.inl rfl)
      · rw [isSome_decode_option hv, s.isSome_decode_iff v, or_iff_right hv]
  | .vec s, v => by
      show _ ↔ ∃ elems, v = .array elems ∧ ∀ w ∈ elems, s.Conforms w
      cases v with
      | array elems =>
          rw [isSome_decode_array, isSome_mapM_iff]
          simp only [Value.array.injEq, exists_eq_left']
          exact forall₂_congr fun w _ ↦ s.isSome_decode_iff w
      | _ => exact iff_of_false Bool.false_ne_true (by simp)
  | .struct fields, v => by
      show _ ↔ (∃ members, v = .object members ∧ MembersConform fields members) ∨
        ∃ elems, v = .array elems ∧ ElemsConform fields elems
      cases v with
      | object members =>
          rw [isSome_decode_object, isSome_decodeMembers_iff fields members]
          simp
      | array elems =>
          rw [isSome_decode_elems, isSome_decodeElems_iff fields elems]
          simp
      | _ => exact iff_of_false Bool.false_ne_true (by simp)

theorem isSome_decodeMembers_iff : ∀ (fields : List (FieldDecl Schema))
    (members : List (String × Value)),
    (decodeMembers fields members).isSome = true ↔ MembersConform fields members
  | [], members => iff_of_true rfl trivial
  | ⟨key, hasDefault, s⟩ :: fields, members => by
      rw [isSome_decodeMembers_cons, Bool.and_eq_true, isSome_decodeMembers_iff fields members]
      apply and_congr_left
      intro _
      unfold readMember
      cases members.lookup key with
      | some w => exact s.isSome_decode_iff w
      | none =>
          cases hasDefault with
          | false => simpa using s.isSome_absent_iff
          | true => simp

theorem isSome_decodeElems_iff : ∀ (fields : List (FieldDecl Schema)) (elems : List Value),
    (decodeElems fields elems).isSome = true ↔ ElemsConform fields elems
  | [], [] => iff_of_true rfl rfl
  | [], w :: elems => iff_of_false Bool.false_ne_true fun h ↦ List.cons_ne_nil w elems h
  | ⟨key, hasDefault, s⟩ :: fields, w :: elems => by
      rw [isSome_decodeElems_cons, Bool.and_eq_true, isSome_decodeElems_iff fields elems,
        s.isSome_decode_iff w]
      rfl
  | ⟨key, hasDefault, s⟩ :: fields, [] => by
      rw [isSome_decodeElems_cons_nil, Bool.and_eq_true, isSome_decodeElems_iff fields []]
      rfl

end

end Swarmagent.Json
