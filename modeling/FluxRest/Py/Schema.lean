import FluxRest.Py.Json

/-! The part of JSON Schema that the API document uses. -/
namespace Py.Json

inductive Schema where
  | any
  | string
  /-- A string, and this one. -/
  | const (s : Str)
  | integer (minimum : Option ℤ)
  | array (items : Schema) (minItems : ℕ)
  /-- `additional` is for the members that `properties` does not list. -/
  | object (required : List Str) (properties : List (Str × Schema)) (additional : Schema)

namespace Schema

mutual
/-- Whether a value conforms to a schema; a float is no integer here. -/
def accepts : Schema → Json → Bool
  | any, _ => true
  | string, .str _ => true
  | const c, .str s => s = c
  | integer minimum, .int i => minimum.all (· ≤ i)
  | array items minItems, .arr vs => minItems ≤ vs.length && vs.all fun v => items.accepts v
  | object required properties additional, .obj fields =>
    required.all (fun k => fields.any (·.1 = k)) && acceptsProperties properties fields &&
      fields.all fun e => properties.any (·.1 = e.1) || additional.accepts e.2
  | _, _ => false

/-- Each property is absent or conforms to its own schema. -/
def acceptsProperties : List (Str × Schema) → List (Str × Json) → Bool
  | [], _ => true
  | (k, s) :: properties, fields =>
    (match lookup k fields with
      | some v => s.accepts v
      | none => true) && acceptsProperties properties fields
end

theorem acceptsProperties_iff {properties : List (Str × Schema)} {fields : List (Str × Json)} :
    acceptsProperties properties fields = true ↔
      ∀ p ∈ properties, ∀ v, lookup p.1 fields = some v → p.2.accepts v = true := by
  induction properties with
  | nil => simp [acceptsProperties]
  | cons p properties ih =>
    rw [acceptsProperties, Bool.and_eq_true, ih, List.forall_mem_cons]
    refine and_congr ?_ Iff.rfl
    cases lookup p.1 fields with
    | none => simp
    | some v => simp

/-- An object, where any further member will do. -/
theorem accepts_object {required : List Str} {properties : List (Str × Schema)}
    {fields : List (Str × Json)} : (object required properties any).accepts (.obj fields) = true ↔
      (∀ k ∈ required, ∃ v, lookup k fields = some v) ∧
        ∀ p ∈ properties, ∀ v, lookup p.1 fields = some v → p.2.accepts v = true := by
  have hany : (fields.all fun e => properties.any (·.1 = e.1) || any.accepts e.2) = true := by
    rw [List.all_eq_true]
    intro e _
    simp [accepts]
  have hrequired : required.all (fun k => fields.any (·.1 = k)) = true ↔
      ∀ k ∈ required, ∃ v, lookup k fields = some v := by
    rw [List.all_eq_true]
    refine forall_congr' fun k => forall_congr' fun _ => ?_
    rw [← Option.isSome_iff_exists, isSome_lookup]
    simp
  rw [accepts, hany, Bool.and_true, Bool.and_eq_true, hrequired, acceptsProperties_iff]

theorem accepts_array {items : Schema} {minItems : ℕ} {vs : List Json} :
    (array items minItems).accepts (.arr vs) = true ↔
      minItems ≤ vs.length ∧ ∀ v ∈ vs, items.accepts v = true := by
  rw [accepts, Bool.and_eq_true, decide_eq_true_eq, List.all_eq_true]

theorem accepts_string {v : Json} : string.accepts v = true ↔ ∃ s, v = .str s := by
  cases v <;> simp [accepts]

end Schema
end Py.Json
