import MethodLowering.Proofs.DescriptorGrammar

/-!
# The types of a method

A descriptor spells the types of any number of arguments and the type of the return value. Its words are counted without
reading it as types. This file gives types of methods their text and shows that the counts are those of the types; and
that there is only one way to read a text, so that the arguments of a descriptor are what they are.

* `MethodType` -- the types of arguments and return value, with `MethodType.text`;
* `Descriptor.scanArguments_argumentText`, `Descriptor.returnTypeWords_returnText` -- what is counted in the two parts;
* `FieldType.text_append_inj` -- **a type ends where it ends**: no text of a type begins that of another;
* `MethodType.text_inj` -- one text, one type;
* `MethodType.words_exact` -- **the words of a descriptor are those of its types.**
-/

namespace MethodLowering

/-- The types of a method: those of its arguments, and that of its return value where it has one. -/
structure MethodType where
  arguments : List FieldType
  returns : Option FieldType

namespace MethodType

/-! ## 1. Text and words -/

/-- The text of argument types, one behind the other. -/
def argumentText : List FieldType → String
  | [] => ""
  | type :: rest => type.text ++ argumentText rest

/-- The text of a return type. -/
def returnText : Option FieldType → String
  | none => "V"
  | some type => type.text

/-- **The descriptor of a method.** -/
def text (type : MethodType) : String :=
  "(" ++ argumentText type.arguments ++ ")" ++ returnText type.returns

/-- The words of arguments: those of each. -/
def argumentWords : List FieldType → Nat
  | [] => 0
  | type :: rest => type.words + argumentWords rest

/-- The words of a return value: none where there is none. -/
def returnWords : Option FieldType → Nat
  | none => 0
  | some type => type.words

theorem toList_argumentText_cons (type : FieldType) (arguments : List FieldType) (rest : List Char) :
    (argumentText (type :: arguments)).toList ++ rest =
      type.text.toList ++ ((argumentText arguments).toList ++ rest) := by
  simp [argumentText]

end MethodType

/-! ## 2. Counting -/

namespace Descriptor

open MethodType (argumentText argumentWords returnText returnWords)

/-- **The scan counts all arguments and ends at their parenthesis.** -/
theorem scanArguments_argumentText (arguments : List FieldType) (rest : List Char) :
    scanArguments .type ((argumentText arguments).toList ++ ')' :: rest) = (argumentWords arguments, rest) := by
  induction arguments with
  | nil => rfl
  | cons type arguments ih =>
    rw [MethodType.toList_argumentText_cons, scanArguments_text, ih]
    rfl

/-- The first character tells how many words a return type has. -/
theorem returnTypeWords_returnText (returns : Option FieldType) :
    returnTypeWords (returnText returns).toList = returnWords returns := by
  cases returns with
  | none => rfl
  | some type =>
    show returnTypeWords type.text.toList = type.words
    rw [← List.append_nil type.text.toList]
    cases type with
    | base type => cases type <;> rfl
    | object name =>
      rw [FieldType.toList_text_object]
      rfl
    | array element =>
      rw [FieldType.toList_text_array]
      rfl

end Descriptor

/-! ## 3. Reading -/

/-- What stands in front of the first semicolon, and what stands behind it. -/
theorem append_semicolon_inj {first second rest others : List Char} (hfirst : ';' ∉ first) (hsecond : ';' ∉ second)
    (h : first ++ ';' :: rest = second ++ ';' :: others) : first = second ∧ rest = others := by
  induction first generalizing second with
  | nil =>
    cases second with
    | nil => exact ⟨rfl, (List.cons.inj h).2⟩
    | cons c second => exact absurd (List.cons.inj h).1 (List.ne_of_not_mem_cons hsecond)
  | cons c first ih =>
    cases second with
    | nil => exact absurd (List.cons.inj h).1.symm (List.ne_of_not_mem_cons hfirst)
    | cons d second =>
      obtain ⟨hhead, htail⟩ := List.cons.inj h
      obtain ⟨hequal, hrest⟩ :=
        ih (List.not_mem_of_not_mem_cons hfirst) (List.not_mem_of_not_mem_cons hsecond) htail
      exact ⟨by rw [hhead, hequal], hrest⟩

theorem ClassName.text_inj {first second : ClassName} (h : first.text = second.text) : first = second := by
  cases first
  cases second
  cases h
  rfl

theorem BaseType.letter_inj {first second : BaseType} (h : first.letter = second.letter) : first = second := by
  cases first <;> cases second <;> first | rfl | exact absurd h (by decide)

/-- A letter is none of the other characters with which a part of a descriptor begins or ends. -/
theorem BaseType.letter_ne (type : BaseType) :
    type.letter ≠ 'L' ∧ type.letter ≠ '[' ∧ type.letter ≠ ')' ∧ type.letter ≠ 'V' := by
  cases type <;> decide

namespace FieldType

/-- The character with which the text of a type begins. -/
def mark : FieldType → Char
  | base type => type.letter
  | object _ => 'L'
  | array _ => '['

/-- A type begins neither like the end of arguments nor like the type of no value. -/
theorem mark_ne (type : FieldType) : type.mark ≠ ')' ∧ type.mark ≠ 'V' := by
  cases type with
  | base type => exact type.letter_ne.2.2
  | object name => simp [mark]
  | array element => simp [mark]

theorem toList_text_base (type : BaseType) (rest : List Char) :
    (base type).text.toList ++ rest = type.letter :: rest := by
  simp [text]

theorem head?_text (type : FieldType) (rest : List Char) : (type.text.toList ++ rest).head? = some type.mark := by
  cases type with
  | base type => rw [toList_text_base]; rfl
  | object name => rw [toList_text_object]; rfl
  | array element => rw [toList_text_array]; rfl

/-- **A type ends where it ends**: no text of a type begins that of another. -/
theorem text_append_inj {first second : FieldType} {rest others : List Char}
    (h : first.text.toList ++ rest = second.text.toList ++ others) : first = second ∧ rest = others := by
  -- two types that begin alike are of one kind; what follows decides within it
  induction first generalizing second with
  | base type =>
    rw [toList_text_base] at h
    cases second with
    | base other =>
      rw [toList_text_base] at h
      obtain ⟨hletter, hrest⟩ := List.cons.inj h
      exact ⟨congrArg base (BaseType.letter_inj hletter), hrest⟩
    | object name =>
      rw [toList_text_object] at h
      exact absurd (List.cons.inj h).1 type.letter_ne.1
    | array element =>
      rw [toList_text_array] at h
      exact absurd (List.cons.inj h).1 type.letter_ne.2.1
  | object name =>
    rw [toList_text_object] at h
    cases second with
    | base other =>
      rw [toList_text_base] at h
      exact absurd (List.cons.inj h).1.symm other.letter_ne.1
    | object other =>
      rw [toList_text_object] at h
      obtain ⟨hname, hrest⟩ := append_semicolon_inj name.no_semicolon other.no_semicolon (List.cons.inj h).2
      exact ⟨congrArg object (ClassName.text_inj (String.toList_inj.mp hname)), hrest⟩
    | array element =>
      rw [toList_text_array] at h
      exact absurd (List.cons.inj h).1 (by decide)
  | array element ih =>
    rw [toList_text_array] at h
    cases second with
    | base other =>
      rw [toList_text_base] at h
      exact absurd (List.cons.inj h).1.symm other.letter_ne.2.1
    | object name =>
      rw [toList_text_object] at h
      exact absurd (List.cons.inj h).1 (by decide)
    | array other =>
      rw [toList_text_array] at h
      obtain ⟨helement, hrest⟩ := ih (List.cons.inj h).2
      exact ⟨congrArg array helement, hrest⟩

end FieldType

namespace MethodType

/-- Arguments end at their parenthesis. -/
theorem argumentText_append_inj {first second : List FieldType} {rest others : List Char}
    (h : (argumentText first).toList ++ ')' :: rest = (argumentText second).toList ++ ')' :: others) :
    first = second ∧ rest = others := by
  -- an argument never begins with the parenthesis that ends all of them
  have hbegins (type : FieldType) (arguments : List FieldType) (rest : List Char) :
      ((argumentText (type :: arguments)).toList ++ rest).head? ≠ some ')' := by
    rw [toList_argumentText_cons, FieldType.head?_text]
    exact fun hmark => type.mark_ne.1 (Option.some.inj hmark)
  induction first generalizing second with
  | nil =>
    cases second with
    | nil => exact ⟨rfl, (List.cons.inj h).2⟩
    | cons type second => exact absurd (congrArg List.head? h).symm (hbegins type second _)
  | cons type first ih =>
    cases second with
    | nil => exact absurd (congrArg List.head? h) (hbegins type first _)
    | cons other second =>
      rw [toList_argumentText_cons, toList_argumentText_cons] at h
      obtain ⟨htype, hbehind⟩ := FieldType.text_append_inj h
      obtain ⟨harguments, hrest⟩ := ih hbehind
      exact ⟨by rw [htype, harguments], hrest⟩

/-- A return type is read from its text, whether or not there is a value. -/
theorem returnText_inj {first second : Option FieldType}
    (h : (returnText first).toList = (returnText second).toList) : first = second := by
  have hbegins (type : FieldType) : (returnText (some type)).toList.head? ≠ some 'V' := by
    rw [returnText, ← List.append_nil type.text.toList, FieldType.head?_text]
    exact fun hmark => type.mark_ne.2 (Option.some.inj hmark)
  cases first with
  | none =>
    cases second with
    | none => rfl
    | some type => exact absurd (congrArg List.head? h).symm (hbegins type)
  | some type =>
    cases second with
    | none => exact absurd (congrArg List.head? h) (hbegins type)
    | some other => exact congrArg some (FieldType.text_append_inj (congrArg (· ++ []) h)).1

/-- **One text, one type.** -/
theorem text_inj {first second : MethodType} (h : first.text = second.text) : first = second := by
  have htext (type : MethodType) :
      type.text.toList = '(' :: ((argumentText type.arguments).toList ++ ')' :: (returnText type.returns).toList) := by
    simp [text]
  have hlists := congrArg String.toList h
  rw [htext, htext] at hlists
  obtain ⟨harguments, hreturns⟩ := argumentText_append_inj (List.cons.inj hlists).2
  cases first
  cases second
  cases harguments
  cases returnText_inj hreturns
  rfl

/-! ## 4. The words of a descriptor -/

/-- **The words of a descriptor are those of its types**: of each argument, two for a long or a double and one for any
other, arrays of any depth and objects of any name among them, and of the return value the same, or none. No other types
have this descriptor. -/
theorem words_exact (type : MethodType) (owner name : String) :
    let method : MethodRef := { owner, name, descriptor := type.text }
    method.argumentWords = argumentWords type.arguments ∧
    method.returnWords = returnWords type.returns ∧
    ∀ other : MethodType, other.text = type.text → other = type := by
  intro method
  have hwords : Descriptor.words method.descriptor = (argumentWords type.arguments, returnWords type.returns) := by
    rw [← Descriptor.returnTypeWords_returnText]
    exact Descriptor.words_of_scan (Descriptor.scanArguments_argumentText type.arguments _)
  exact ⟨congrArg Prod.fst hwords, congrArg Prod.snd hwords, fun other => text_inj⟩

/-- A type whose class name is made of the characters that mean something elsewhere in a descriptor. -/
def punctuatedName : MethodType where
  arguments :=
    [.array (.array (.base .long)), .object ⟨")([JVé", by decide, by decide⟩, .base .double]
  returns := some (.base .long)

theorem words_exact_punctuatedName :
    let method : MethodRef := { owner := "app/Main", name := "run", descriptor := "([[JL)([JVé;D)J" }
    method.argumentWords = 4 ∧ method.returnWords = 2 ∧
    punctuatedName.text = "([[JL)([JVé;D)J" ∧
    ∀ other : MethodType, other.text = "([[JL)([JVé;D)J" → other = punctuatedName := by
  have htext : punctuatedName.text = "([[JL)([JVé;D)J" := by decide
  obtain ⟨harguments, hreturns, hread⟩ := words_exact punctuatedName "app/Main" "run"
  rw [htext] at harguments hreturns hread
  exact ⟨harguments, hreturns, htext, hread⟩

end MethodType

end MethodLowering
