import MethodLowering.Bytecode.Descriptor
import Std.Data.HashMap

/-!
# The symbol table

Method references are called by a 16-bit index. The table hands out indices in the order of first use, from 1 on.

* `SymbolTable.intern` -- the index of a reference, which is added when it is new;
* `SymbolTable.get?` -- the index of a reference that is there.
-/

namespace MethodLowering

/-- The references in use, in order, with an index to look them up by. -/
structure SymbolTable where
  methods : Array MethodRef := #[]
  index : Std.HashMap MethodRef UInt16 := ∅

namespace SymbolTable

/-- The table without references. -/
def empty : SymbolTable := {}

instance : Inhabited SymbolTable := ⟨empty⟩

/-- The number of references. -/
def size (table : SymbolTable) : Nat :=
  table.methods.size

/-- The index of a reference that is there. -/
def get? (table : SymbolTable) (method : MethodRef) : Option UInt16 :=
  table.index[method]?

/-- **The index of a reference, added when it is new.** A new reference takes the number of references then in the
table, which a 16-bit index holds up to a multiple of 65536. -/
def intern (table : SymbolTable) (method : MethodRef) : UInt16 × SymbolTable :=
  match table.get? method with
  | some index => (index, table)
  | none =>
    let methods := table.methods.push method
    let index := UInt16.ofNat methods.size
    (index, { methods, index := table.index.insert method index })

end SymbolTable

end MethodLowering
