import MethodLowering.Bytecode.Descriptor

/-!
# The types of a descriptor

A descriptor spells its types one after the other, with nothing between them. Words are counted by a scan over the
characters that knows no more than whether it is in front of a type, behind a bracket or inside a class name. This file
gives the types their text and shows that the scan reads each of them to its end, whatever stands behind it and whatever
characters a class name has.

* `FieldType` -- the types of values, with `FieldType.text` and `FieldType.words`;
* `Descriptor.scanArguments_object` -- the scan passes a class name at its semicolon;
* `Descriptor.scanArguments_text` -- **the scan counts a type as what it is, and goes on behind it**;
* `Descriptor.words_of_scan` -- both counts of a descriptor, from the scan of its arguments.
-/

namespace MethodLowering

/-! ## 1. Types and their text -/

/-- The types that are written as one letter. -/
inductive BaseType where
  | byte
  | char
  | double
  | float
  | int
  | long
  | short
  | boolean
  deriving DecidableEq, Repr

/-- The letter of a type. -/
def BaseType.letter : BaseType → Char
  | byte => 'B'
  | char => 'C'
  | double => 'D'
  | float => 'F'
  | int => 'I'
  | long => 'J'
  | short => 'S'
  | boolean => 'Z'

/-- The name of a class as it stands in a descriptor, where it ends at the first semicolon. -/
structure ClassName where
  text : String
  nonempty : text ≠ ""
  no_semicolon : ';' ∉ text.toList

/-- The types of values. -/
inductive FieldType where
  | base (type : BaseType)
  | object (name : ClassName)
  | array (element : FieldType)

namespace FieldType

/-- The text of a type in a descriptor. -/
def text : FieldType → String
  | base type => String.singleton type.letter
  | object name => "L" ++ name.text ++ ";"
  | array element => "[" ++ element.text

/-- The operand-stack words of a value: two for a long or a double, one for any other. -/
def words : FieldType → Nat
  | base .long | base .double => 2
  | base _ | object _ | array _ => 1

theorem toList_text_object (name : ClassName) (rest : List Char) :
    (object name).text.toList ++ rest = 'L' :: (name.text.toList ++ ';' :: rest) := by
  simp [text]

theorem toList_text_array (element : FieldType) (rest : List Char) :
    (array element).text.toList ++ rest = '[' :: (element.text.toList ++ rest) := by
  simp [text]

end FieldType

/-! ## 2. The scan of arguments -/

namespace Descriptor

/-- A class name is passed at its semicolon, whatever characters it has. -/
theorem scanArguments_className {name : List Char} (h : ';' ∉ name) (rest : List Char) :
    scanArguments .className (name ++ ';' :: rest) = scanArguments .type rest := by
  induction name with
  | nil => rfl
  | cons c others ih =>
    rw [List.mem_cons, not_or] at h
    obtain ⟨hc, hothers⟩ := h
    rw [List.cons_append, scanArguments, if_neg (Ne.symm hc)]
    exact ih hothers

/-- **An object is one word**, as an argument and as the element of an array. -/
theorem scanArguments_object {scan : Scan} (hscan : scan ≠ .className) {name : List Char} (h : ';' ∉ name)
    (rest : List Char) :
    scanArguments scan ('L' :: (name ++ ';' :: rest)) =
      (1 + (scanArguments .type rest).1, (scanArguments .type rest).2) := by
  cases scan with
  | type => simp [scanArguments, scanArguments_className h]
  | element => simp [scanArguments, scanArguments_className h]
  | className => exact absurd rfl hscan

/-- The element of an array is one word with all brackets in front of it. -/
theorem scanArguments_element (type : FieldType) (rest : List Char) :
    scanArguments .element (type.text.toList ++ rest) =
      (1 + (scanArguments .type rest).1, (scanArguments .type rest).2) := by
  induction type with
  | base type => cases type <;> rfl
  | object name =>
    rw [FieldType.toList_text_object, scanArguments_object Scan.noConfusion name.no_semicolon]
  | array element ih =>
    rw [FieldType.toList_text_array, ← ih]
    rfl

/-- **The scan counts a type as what it is, and goes on behind it.** -/
theorem scanArguments_text (type : FieldType) (rest : List Char) :
    scanArguments .type (type.text.toList ++ rest) =
      (type.words + (scanArguments .type rest).1, (scanArguments .type rest).2) := by
  cases type with
  | base type => cases type <;> rfl
  | object name =>
    rw [FieldType.toList_text_object, scanArguments_object Scan.noConfusion name.no_semicolon]
    rfl
  | array element =>
    rw [FieldType.toList_text_array]
    exact scanArguments_element element rest

/-- The counts of a descriptor, where the scan of its arguments ends at their closing parenthesis. -/
theorem words_of_scan {arguments returns : String} {count : Nat}
    (h : scanArguments .type (arguments.toList ++ ')' :: returns.toList) = (count, returns.toList)) :
    words ("(" ++ arguments ++ ")" ++ returns) = (count, returnTypeWords returns.toList) := by
  have htext : ("(" ++ arguments ++ ")" ++ returns).toList = '(' :: (arguments.toList ++ ')' :: returns.toList) := by
    simp
  rw [words, htext]
  simp [h]

end Descriptor

end MethodLowering
