/-!
# Parsers

A parser reads a value off the front of a text and gives the text behind it, or fails. All parsers here are total: a
repetition is bounded by the length of the text.

* `Parse`, with `pure`, `bind` and `<|>`, which goes back to where the failed choice began;
* `Parse.satisfy`, `Parse.char`, `Parse.literal`, `Parse.takeWhile` -- characters;
* `Parse.many`, `Parse.sepBy` -- repetitions;
* `Parse.parse?` -- the value of a whole text.
-/

namespace MethodLowering

/-- Reads a value off the front of a text and gives the text behind it, or fails. -/
def Parse (α : Type) : Type :=
  List Char → Option (α × List Char)

namespace Parse

variable {α β : Type}

/-! ## 1. Sequence and choice -/

instance : Monad Parse where
  pure value := fun text => some (value, text)
  bind parser next := fun text =>
    match parser text with
    | some (value, rest) => next value rest
    | none => none

/-- Reads nothing and fails. -/
def fail : Parse α :=
  fun _ => none

/-- Reads with the first parser, or where that fails with the second. -/
def orElse (first : Parse α) (second : Unit → Parse α) : Parse α :=
  fun text =>
    match first text with
    | some result => some result
    | none => second () text

instance : OrElse (Parse α) := ⟨orElse⟩

/-- Reads if the parser can, and nothing otherwise. -/
def maybe (parser : Parse α) : Parse (Option α) :=
  (some <$> parser) <|> pure none

/-- Takes the value where there is one, and fails otherwise. -/
def ofOption : Option α → Parse α
  | some value => pure value
  | none => fail

/-- Fails unless the condition holds. -/
def ensure (condition : Bool) : Parse Unit :=
  if condition then pure () else fail

/-! ## 2. Characters -/

/-- The next character, which is not read; nothing at the end. -/
def peek? : Parse (Option Char) :=
  fun text => some (text.head?, text)

/-- Reads a character with a property. -/
def satisfy (property : Char → Bool) : Parse Char
  | c :: rest => if property c then some (c, rest) else none
  | [] => none

/-- Reads one given character. -/
def char (c : Char) : Parse Unit := do
  let _ ← satisfy (· == c)

/-- Reads given characters in order. -/
def literal (text : String) : Parse Unit :=
  text.toList.forM char

/-- Reads all characters up to the first without the property. -/
def takeWhile (property : Char → Bool) : Parse (List Char) :=
  fun text => some (text.takeWhile property, text.dropWhile property)

/-- Reads all characters up to the first without the property, and at least one. -/
def takeWhile1 (property : Char → Bool) : Parse (List Char) := do
  let first ← satisfy property
  return first :: (← takeWhile property)

/-- Reads a given number of characters with a property. -/
def exactly (count : Nat) (property : Char → Bool) : Parse (List Char) := do
  match count with
  | 0 => return []
  | count + 1 =>
    let first ← satisfy property
    return first :: (← exactly count property)

/-- Succeeds at the end of the text. -/
def atEnd : Parse Unit
  | [] => some ((), [])
  | _ => none

/-! ## 3. Repetition -/

/-- Reads at most a number of times, as long as the parser succeeds. -/
def upTo (bound : Nat) (parser : Parse α) : Parse (List α) :=
  match bound with
  | 0 => pure []
  | bound + 1 => (do return (← parser) :: (← upTo bound parser)) <|> pure []

/-- Reads as long as the parser succeeds. Each reading takes a character, so the length of the text bounds their
number. -/
def many (parser : Parse α) : Parse (List α) :=
  fun text => upTo text.length parser text

/-- Reads values with separators between them, perhaps none. A separator without a value behind it is not read. -/
def sepBy (parser : Parse α) (separator : Parse β) : Parse (List α) :=
  (do return (← parser) :: (← many (separator >>= fun _ => parser))) <|> pure []

/-! ## 4. Whole texts -/

/-- The value of a whole text. -/
def parse? (parser : Parse α) (text : String) : Option α :=
  match parser text.toList with
  | some (value, []) => some value
  | _ => none

end Parse

end MethodLowering
