import Mathlib.Algebra.Group.Nat.Defs

/-!
# JSON values

The agent reads every Kubernetes object as an untyped `serde_json::Value` and takes from it
what it needs with `get`, `pointer` and the `as_*` conversions.  This file has the values and
those readers.  An object is the list of its members, of which `get` takes the first with the
key asked for.

A pointer is given as the list of its unescaped reference tokens, `/state/running` being
`["state", "running"]`.  No pointer of the agent has a token that is an array index, so a pointer
leads nowhere inside an array.
-/

namespace Swarmagent.Json

/-- A JSON number, in one of the three forms `serde_json` keeps numbers in.  A float is finite,
hence a rational. -/
inductive Number where
  | posInt (n : UInt64)
  | negInt (n : Int64)
  | float (x : Rat)
deriving DecidableEq

/-- A JSON value, `serde_json::Value`. -/
inductive Value where
  | null
  | bool (b : Bool)
  | number (n : Number)
  | string (s : String)
  | array (elems : List Value)
  | object (members : List (String × Value))

/-- A member is looked up by its key. -/
theorem lookup_cons_ite {α : Type} (k k' : String) (w : α) (members : List (String × α)) :
    ((k', w) :: members).lookup k = if k = k' then some w else members.lookup k := by
  by_cases hk : k = k'
  · rw [if_pos hk, hk, List.lookup_cons_self]
  · rw [if_neg hk, List.lookup_cons, beq_false_of_ne hk]

namespace Value

/-- `Value::get` with a string key: the member of an object, nothing of any other value. -/
def get (v : Value) (key : String) : Option Value :=
  match v with
  | .object members => members.lookup key
  | _ => none

/-- `Value::pointer`, with the pointer split into its reference tokens. -/
def pointer (v : Value) : List String → Option Value
  | [] => some v
  | token :: tokens => (v.get token).bind fun w ↦ w.pointer tokens

/-- `Value::as_str`. -/
def asStr : Value → Option String
  | .string s => some s
  | _ => none

/-- `Value::as_array`. -/
def asArray : Value → Option (List Value)
  | .array elems => some elems
  | _ => none

/-- `Value::as_i64`: an integer in the range of `i64`. -/
def asI64 : Value → Option Int
  | .number (.posInt n) => if n.toNat < 2 ^ 63 then some n.toNat else none
  | .number (.negInt n) => some n.toInt
  | _ => none

/-- `Value::as_u64`. -/
def asU64 : Value → Option UInt64
  | .number (.posInt n) => some n
  | _ => none

/-- `Value::as_bool`. -/
def asBool : Value → Option Bool
  | .bool b => some b
  | _ => none

/-- `v.pointer(path).and_then(Value::as_str).unwrap_or_default()`. -/
def strAt (v : Value) (path : List String) : String := ((v.pointer path).bind asStr).getD ""

section Conversions

variable {v : Option Value}

theorem bind_asStr_eq_some_iff {s : String} : v.bind asStr = some s ↔ v = some (.string s) := by
  constructor
  · intro h
    obtain ⟨v, rfl, hstr⟩ := Option.bind_eq_some_iff.mp h
    cases v with
    | string s => rw [Option.some.inj hstr]
    | _ => cases hstr
  · rintro rfl
    rfl

theorem bind_asBool_eq_some_iff {b : Bool} : v.bind asBool = some b ↔ v = some (.bool b) := by
  constructor
  · intro h
    obtain ⟨v, rfl, hbool⟩ := Option.bind_eq_some_iff.mp h
    cases v with
    | bool b => rw [Option.some.inj hbool]
    | _ => cases hbool
  · rintro rfl
    rfl

end Conversions

end Value

end Swarmagent.Json
