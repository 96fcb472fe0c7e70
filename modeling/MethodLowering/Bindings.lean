/-!
# Bindings

Names bound to values. A name has one value, the one it was bound to last.

* `Bindings.insert` -- binds a name;
* `Bindings.get?` -- the value of a name.
-/

namespace MethodLowering

/-- Names bound to values, each once, in the order of their first binding. -/
structure Bindings (α : Type) where
  entries : List (String × α) := []
  deriving DecidableEq, Repr

namespace Bindings

variable {α : Type}

/-- Binds a name in a list of entries: in its place if it is bound there, at the end otherwise. -/
def bind (name : String) (value : α) : List (String × α) → List (String × α)
  | [] => [(name, value)]
  | entry :: rest => if entry.1 = name then (name, value) :: rest else entry :: bind name value rest

/-- Binds a name, whatever it was bound to before. -/
def insert (bindings : Bindings α) (name : String) (value : α) : Bindings α :=
  ⟨bind name value bindings.entries⟩

/-- Binds names in order, so the last binding of a name stays. -/
def ofList (entries : List (String × α)) : Bindings α :=
  entries.foldl (fun bindings entry => bindings.insert entry.1 entry.2) {}

/-- The value of a name. -/
def get? (bindings : Bindings α) (name : String) : Option α :=
  bindings.entries.lookup name

end Bindings

end MethodLowering
