import MethodLowering.Text.Quoted

/-!
# What a local slot holds

The containers of the arguments have roles of their own, so no name of a parameter can stand for them.
-/

namespace MethodLowering

/-- What a local slot holds. -/
inductive SlotRole where
  /-- The object that a method is called on. -/
  | receiver
  /-- The container of the positional arguments. -/
  | positionalArgs
  /-- The container of the named arguments. -/
  | keywordArgs
  /-- The parameter with a name. -/
  | named (name : String)
  deriving DecidableEq, Repr, Hashable

/-- The text of a role in messages. -/
def SlotRole.describe : SlotRole → String
  | receiver => "Receiver"
  | positionalArgs => "PositionalArgs"
  | keywordArgs => "KeywordArgs"
  | named name => "Named(" ++ Quoted.encode name ++ ")"

end MethodLowering
