import Mathlib.Tactic.Common

/-!
# JSON values

`serde_json::Value`, and what is read of it. The members of an object stand in the order of their
keys, as the map of an object lists them.

* `required`, `optional`: how a structure is read from an object, field by field.
* `Conforms`: the objects that have all the fields; those and no others can be read.
-/

namespace OxmlMcp.Json

/-- `serde_json::Value`. A number that is no integer is kept as it is written. -/
inductive Value where
  | null
  | bool (b : Bool)
  | int (n : Int)
  | float (text : String)
  | string (s : String)
  | array (values : List Value)
  | object (members : List (String × Value))

/-- The members of an object. -/
abbrev Object := List (String × Value)

/-- `Value::get`. -/
def Value.get (v : Value) (key : String) : Option Value :=
  match v with
  | .object members => members.lookup key
  | _ => none

/-- `String`, as it is read from a value. -/
def Value.asString : Value → Option String
  | .string s => some s
  | _ => none

/-- `u8`. -/
def Value.asU8 : Value → Option (Fin 256)
  | .int n => if h : 0 ≤ n ∧ n < 256 then some ⟨n.toNat, by omega⟩ else none
  | _ => none

/-- `Option<T>`: the null value is no value. -/
def Value.asOption {α : Type} (read : Value → Option α) : Value → Option (Option α)
  | .null => some none
  | v => (read v).map some

/-- `BTreeMap<String, String>`. -/
def Value.asStringMap : Value → Option (List (String × String))
  | .object members => members.mapM fun e => e.2.asString.map (e.1, ·)
  | _ => none

/-- A field that a value must have. -/
def required {α : Type} (read : Value → Option α) (key : String) (o : Object) : Option α :=
  (o.lookup key).bind read

/-- A field with a default, `#[serde(default)]`. -/
def optional {α : Type} (read : Value → Option α) (default : α) (key : String) (o : Object) :
    Option α :=
  match o.lookup key with
  | some v => read v
  | none => some default

/-- What a field may hold. -/
inductive FieldType where
  | string
  | stringMap
  | optionString
  | optionU8
deriving DecidableEq

/-- The values of a type. -/
def FieldType.Holds : FieldType → Value → Prop
  | .string, v => ∃ s, v = .string s
  | .stringMap, v => ∃ members, v = .object members ∧ ∀ e ∈ members, ∃ s, e.2 = .string s
  | .optionString, v => v = .null ∨ ∃ s, v = .string s
  | .optionU8, v => v = .null ∨ ∃ n : Nat, n < 256 ∧ v = .int n

/-- A field of an object. -/
structure Field where
  key : String
  type : FieldType
  required : Bool
deriving DecidableEq

/-- The object has a value of the type of the field, or may do without. -/
def Field.Accepts (f : Field) (o : Object) : Prop :=
  match o.lookup f.key with
  | some v => f.type.Holds v
  | none => f.required = false

/-- The object has all the fields. -/
def Conforms (fields : List Field) (o : Object) : Prop :=
  ∀ f ∈ fields, f.Accepts o

lemma asString_isSome {v : Value} : v.asString.isSome ↔ FieldType.string.Holds v := by
  cases v <;> simp [Value.asString, FieldType.Holds]

lemma asU8_isSome {v : Value} : v.asU8.isSome ↔ ∃ n : Nat, n < 256 ∧ v = .int n := by
  cases v with
  | int n =>
    simp only [Value.asU8, Value.int.injEq]
    constructor
    · intro h
      split at h
      · exact ⟨n.toNat, by omega, by omega⟩
      · cases h
    · rintro ⟨m, lt, rfl⟩
      rw [dif_pos (by omega)]
      rfl
  | _ => simp [Value.asU8]

lemma asOption_isSome {α : Type} {read : Value → Option α} {v : Value} :
    (v.asOption read).isSome ↔ v = .null ∨ (read v).isSome := by
  cases v <;> simp [Value.asOption]

lemma mapM_isSome {α β : Type} {f : α → Option β} {l : List α} :
    (l.mapM f).isSome ↔ ∀ a ∈ l, (f a).isSome := by
  induction l with
  | nil => simp
  | cons a l ih =>
    rw [List.mapM_cons, List.forall_mem_cons, ← ih]
    cases f a with
    | none => simp
    | some b =>
      cases l.mapM f with
      | none => simp
      | some bs => simp

lemma asStringMap_isSome {v : Value} : v.asStringMap.isSome ↔ FieldType.stringMap.Holds v := by
  cases v with
  | object members =>
    simp only [Value.asStringMap, mapM_isSome, Option.isSome_map, asString_isSome]
    simp [FieldType.Holds]
  | _ => simp [Value.asStringMap, FieldType.Holds]

lemma optionString_isSome {v : Value} :
    (v.asOption Value.asString).isSome ↔ FieldType.optionString.Holds v := by
  rw [asOption_isSome, asString_isSome]
  rfl

lemma optionU8_isSome {v : Value} :
    (v.asOption Value.asU8).isSome ↔ FieldType.optionU8.Holds v := by
  rw [asOption_isSome, asU8_isSome]
  rfl

/-- A field can be read exactly when the object has it. -/
lemma required_isSome {α : Type} {read : Value → Option α} {type : FieldType} {key : String}
    {o : Object} (reads : ∀ {v}, (read v).isSome ↔ type.Holds v) :
    (required read key o).isSome ↔ (⟨key, type, true⟩ : Field).Accepts o := by
  rw [required, Field.Accepts]
  cases o.lookup key with
  | none => simp
  | some v => exact reads

lemma optional_isSome {α : Type} {read : Value → Option α} (default : α) {type : FieldType}
    {key : String} {o : Object} (reads : ∀ {v}, (read v).isSome ↔ type.Holds v) :
    (optional read default key o).isSome ↔ (⟨key, type, false⟩ : Field).Accepts o := by
  rw [optional, Field.Accepts]
  cases o.lookup key with
  | none => simp
  | some v => exact reads

end OxmlMcp.Json
