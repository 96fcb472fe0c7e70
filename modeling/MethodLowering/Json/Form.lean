import MethodLowering.Json.Value

/-!
# Records and variants in JSON

How the library's own data is written as JSON values.

* `Json.fields?` -- a record is an object by field names, or an array of its fields in order;
* `Json.variant?` -- a variant is its name, or an object from its name to what it carries;
* `Json.required`, `Json.withDefault`, `Json.nullable` -- fields that must be there, may be left off, may be null;
* `Json.bool?`, `Json.string?`, `Json.int?`, `Json.nat?`, `Json.array?`, `Json.object?` -- plain values.
-/

namespace MethodLowering

namespace Json

/-! ## 1. Plain values -/

/-- The truth value of a JSON value. -/
def bool? : Json → Option Bool
  | bool value => some value
  | _ => none

/-- The string of a JSON value. -/
def string? : Json → Option String
  | string value => some value
  | _ => none

/-- The whole number of a JSON value, if it is at least `low` and below `high`. -/
def int? (low high : Int) : Json → Option Int
  | number (.int value) => if low ≤ value ∧ value < high then some value else none
  | _ => none

/-- The natural number of a JSON value, if it is below a limit. -/
def nat? (limit : Nat) : Json → Option Nat
  | number (.int (.ofNat value)) => if value < limit then some value else none
  | _ => none

/-- The values of an array, each read alike. -/
def array? {α : Type} (item? : Json → Option α) : Json → Option (List α)
  | array items => items.mapM item?
  | _ => none

/-- The members of an object, the value of each read alike. -/
def object? {α : Type} (item? : Json → Option α) : Json → Option (List (String × α))
  | object members => members.mapM fun (key, value) => (item? value).map fun item => (key, item)
  | _ => none

/-! ## 2. Records -/

/-- **The fields of a record, in the order of their names**, each if it is there. An object may have other members, but
none of the names twice; an array has the fields in order and nothing more. -/
def fields? (names : List String) : Json → Option (List (Option Json))
  | object members =>
    if names.all fun name => members.countP (·.1 == name) ≤ 1 then
      some (names.map fun name => List.lookup name members)
    else
      none
  | array items =>
    if items.length ≤ names.length then some ((List.range names.length).map (items[·]?)) else none
  | _ => none

/-- A field that must be there. -/
def required {α : Type} (field : Option Json) (read? : Json → Option α) : Option α :=
  field.bind read?

/-- A field with a value for when it is left off. -/
def withDefault {α : Type} (default : α) (field : Option Json) (read? : Json → Option α) : Option α :=
  match field with
  | none => some default
  | some json => read? json

/-- A field that is nothing when it is left off or null. -/
def nullable {α : Type} (field : Option Json) (read? : Json → Option α) : Option (Option α) :=
  match field with
  | none | some null => some none
  | some json => (read? json).map some

/-! ## 3. Variants -/

/-- The name of a variant and what it carries: a name alone, or an object with that single member. -/
def variant? : Json → Option (String × Option Json)
  | string name => some (name, none)
  | object [(name, payload)] => some (name, some payload)
  | _ => none

/-- Whether a variant that carries nothing is written so: nothing beside its name, or null. -/
def isUnit : Option Json → Bool
  | none | some null => true
  | _ => false

/-- The variant that carries nothing, where it is written so. -/
def unit? {α : Type} (payload : Option Json) (value : α) : Option α :=
  if isUnit payload then some value else none

/-- The object of a variant and what it carries. -/
def variant (name : String) (payload : Json) : Json :=
  object [(name, payload)]

end Json

end MethodLowering
