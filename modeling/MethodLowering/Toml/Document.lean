import MethodLowering.Bindings

/-!
# TOML documents

A document is a table. Its statements bind keys to values, open tables, and open further elements of arrays of tables.

* `Toml` -- a value; of values that nobody reads only the kind is kept;
* `Toml.Origin` -- how a table came about, which decides who may add to it;
* `Toml.Statement`, `Toml.Document.ofStatements?` -- statements, and the document of them, if they agree.
-/

namespace MethodLowering

namespace Toml

/-- How a table came about. -/
inductive Origin where
  /-- Written as one value, and closed since. -/
  | inline
  /-- Opened by a header of its own. -/
  | header
  /-- Passed by a header on the way to another table. -/
  | implied
  /-- Passed by the key of a value. -/
  | dotted
  deriving DecidableEq, Repr

end Toml

/-- A TOML value. -/
inductive Toml where
  | string (value : String)
  | integer (value : Int)
  | float
  | boolean (value : Bool)
  /-- A date, a time, or both. -/
  | moment
  | array (items : List Toml)
  | table (origin : Toml.Origin) (entries : Bindings Toml)
  /-- An array of tables under headers of one name. -/
  | tables (latest : Bindings Toml) (earlier : List (Bindings Toml))

namespace Toml

/-! ## 1. Walking to a table -/

/-- Whether a walk that makes tables of one origin may pass a table of another: a key of a value passes tables that have
no header of their own, a header passes all that are not closed. -/
def Origin.passes : Origin → Origin → Bool
  | dotted, implied | dotted, dotted => true
  | dotted, _ => false
  | _, inline => false
  | _, _ => true

/-- A change of a table, given its origin. -/
abbrev Change : Type :=
  Origin → Bindings Toml → Option (Bindings Toml)

/-- Changes the table at the end of a path below a table. Tables missing on the way are made with an origin; of an array
of tables the way leads through the latest. -/
def alter (made : Origin) (change : Change) : List String → Change
  | [], origin, entries => change origin entries
  | key :: path, _, entries =>
    match entries.get? key with
    | none => (alter made change path made {}).map fun child => entries.insert key (table made child)
    | some (table origin child) =>
      if made.passes origin then
        (alter made change path origin child).map fun child => entries.insert key (table origin child)
      else
        none
    | some (tables latest earlier) =>
      (alter made change path .header latest).map fun latest => entries.insert key (tables latest earlier)
    | some _ => none

/-! ## 2. Statements -/

/-- A key with its parts. -/
structure Key where
  parents : List String
  last : String
  deriving DecidableEq, Repr

/-- All parts of a key. -/
def Key.path (key : Key) : List String :=
  key.parents ++ [key.last]

/-- A line of a document that is not blank. -/
inductive Statement where
  /-- Binds a key in the open table. -/
  | assign (key : Key) (value : Toml)
  /-- Opens a table. -/
  | openTable (key : Key)
  /-- Opens a new element of an array of tables. -/
  | openElement (key : Key)

/-- Binds a key that is not bound, below a table. The parts before the last lead through tables made by such keys. -/
def assign (key : Key) (value : Toml) : Change :=
  alter .dotted
    (fun origin entries =>
      if (key.parents.isEmpty ∨ origin = .dotted) ∧ (entries.get? key.last).isNone then
        some (entries.insert key.last value)
      else
        none)
    key.parents

/-- Opens a table that has not been opened. -/
def openTable (key : Key) : Change :=
  alter .implied
    (fun _ entries =>
      match entries.get? key.last with
      | none => some (entries.insert key.last (table .header {}))
      | some (table .implied child) => some (entries.insert key.last (table .header child))
      | some _ => none)
    key.parents

/-- Opens a new element of an array of tables. -/
def openElement (key : Key) : Change :=
  alter .implied
    (fun _ entries =>
      match entries.get? key.last with
      | none => some (entries.insert key.last (tables {} []))
      | some (tables latest earlier) => some (entries.insert key.last (tables {} (latest :: earlier)))
      | some _ => none)
    key.parents

/-! ## 3. Documents -/

/-- A document while it is read: the path of the open table, and all tables. -/
structure Document where
  opened : List String := []
  root : Bindings Toml := {}

namespace Document

/-- Carries out a statement. -/
def add (document : Document) : Statement → Option Document
  | .assign key value =>
    (alter .implied (Toml.assign key value) document.opened .header document.root).map fun root =>
      { document with root }
  | .openTable key =>
    (Toml.openTable key .header document.root).map fun root => { opened := key.path, root }
  | .openElement key =>
    (Toml.openElement key .header document.root).map fun root => { opened := key.path, root }

/-- **The document of statements**, if no key is bound twice and no table opened twice. -/
def ofStatements? (statements : List Statement) : Option (Bindings Toml) :=
  (statements.foldlM add {}).map root

end Document

/-- The table of keys bound in place, if no key is bound twice. -/
def inlineTable? (members : List (Key × Toml)) : Option Toml :=
  (members.foldlM (fun entries (key, value) => Toml.assign key value .header entries) {}).map (table .inline)

end Toml

end MethodLowering
