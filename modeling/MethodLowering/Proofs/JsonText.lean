import MethodLowering.Json.Parser
import MethodLowering.Json.Printer
import MethodLowering.Proofs.TextReading

/-!
# JSON text that is read back

Values are written without blanks, and strings with few escapes; the reader accepts more. This file shows that what is
written is read, for all values without fractions.

* `Json.reads_text` -- **a string in quotes is read as the string**, whatever its characters;
* `Json.reads_int` -- whole numbers of 64 bits are read as they are;
* `Json.sepBy_intercalate`, `Json.reads_items`, `Json.reads_members` -- arrays and objects are read where their parts
  are;
* `Json.Readable`, `Json.parse?_render` -- **the text of a readable value is read as this value.**
-/

namespace MethodLowering

/-- Items that are read one by one as what was written are read together. -/
theorem mapM_map_eq_some {α β γ : Type} {write : α → β} {read? : β → Option γ} {value : α → γ} {items : List α}
    (h : ∀ item ∈ items, read? (write item) = some (value item)) :
    (items.map write).mapM read? = some (items.map value) := by
  induction items with
  | nil => rfl
  | cons item others ih =>
    have hothers := ih fun other hother => h other (List.mem_cons_of_mem _ hother)
    simp [h item List.mem_cons_self, hothers]

namespace Json

open Parse

/-! ## 1. Strings -/

/-- The two hexadecimal digits of a control character are digits of its code. -/
theorem hexDigit_control : ∀ code < 32,
    isHexDigit (lowerHexDigit (code / 16)) = true ∧ isHexDigit (lowerHexDigit code) = true ∧
      hexDigit (lowerHexDigit (code / 16)) * 16 + hexDigit (lowerHexDigit code) = code := by
  decide

theorem reads_codeEscape {c : Char} (h : c < ' ') :
    Reads Anything codeEscape ['0', '0', lowerHexDigit (c.toNat / 16), lowerHexDigit c.toNat] (some c) := by
  intro rest hrest
  have hcode : c.toNat < 32 := h
  obtain ⟨hhigh, hlow, hvalue⟩ := hexDigit_control c.toNat hcode
  have hdigits : ∀ digit ∈ ['0', '0', lowerHexDigit (c.toNat / 16), lowerHexDigit c.toNat], isHexDigit digit := by
    simp [hhigh, hlow]
    decide
  have hunit : codeUnit (['0', '0', lowerHexDigit (c.toNat / 16), lowerHexDigit c.toNat] ++ rest) =
      some (c.toNat, rest) := by
    have hread : exactly 4 isHexDigit (['0', '0', lowerHexDigit (c.toNat / 16), lowerHexDigit c.toNat] ++ rest) =
        some (['0', '0', lowerHexDigit (c.toNat / 16), lowerHexDigit c.toNat], rest) := reads_exactly hdigits rest hrest
    rw [codeUnit, bind_of_some hread]
    have hzero : hexDigit '0' = 0 := by decide
    simp only [List.foldl_cons, List.foldl_nil, hzero, Nat.zero_mul, Nat.zero_add, hvalue]
    rfl
  rw [codeEscape, bind_of_some hunit, if_neg (by omega), if_neg (by omega), Char.ofNat_toNat]
  rfl

/-- **A character as it is written is read as this character.** -/
theorem reads_stringChar (c : Char) : Reads Anything stringChar (escapeChar c) (some c) := by
  intro rest hrest
  by_cases hnamed : c ∈ ['"', '\\', '\x08', '\t', '\n', '\x0c', '\r']
  · -- these have escapes of their own
    simp only [List.mem_cons, List.not_mem_nil, or_false] at hnamed
    rcases hnamed with rfl | rfl | rfl | rfl | rfl | rfl | rfl <;> rfl
  · simp only [List.mem_cons, List.not_mem_nil, or_false, not_or] at hnamed
    obtain ⟨hquote, hbackslash, hbackspace, htab, hnewline, hfeed, hreturn⟩ := hnamed
    by_cases hcontrol : c < ' '
    · have hescape : escapeChar c =
          '\\' :: 'u' :: ['0', '0', lowerHexDigit (c.toNat / 16), lowerHexDigit c.toNat] := by
        simp only [escapeChar, if_neg hquote, if_neg hbackslash, if_neg hbackspace, if_neg htab, if_neg hnewline,
          if_neg hfeed, if_neg hreturn, if_pos hcontrol]
      rw [hescape, List.cons_append, List.cons_append]
      refine orElse_of_some ?_
      rw [bind_of_some (char_cons _ _), escape, bind_of_some (satisfy_cons rfl _)]
      exact reads_codeEscape hcontrol rest hrest
    · have hescape : escapeChar c = [c] := by
        simp only [escapeChar, if_neg hquote, if_neg hbackslash, if_neg hbackspace, if_neg htab, if_neg hnewline,
          if_neg hfeed, if_neg hreturn, if_neg hcontrol]
      have hplain : (c != '"' && c != '\\' && decide (' ' ≤ c)) = true := by
        simp [hquote, hbackslash, Char.not_lt.mp hcontrol]
      have hother : (c :: rest).head? ≠ some '\\' := fun h => hbackslash (Option.some.inj h)
      rw [hescape, List.singleton_append, stringChar, orElse_of_none (bind_of_none (char_of_ne hother)),
        bind_of_some (satisfy_cons hplain rest)]
      rfl

/-- **A string in quotes is read as the string**, whatever its characters. -/
theorem reads_text (string : String) : Reads Anything text (quote string).toList (some string) := by
  intro rest hrest
  have hchars : many stringChar (string.toList.flatMap escapeChar ++ '"' :: rest) =
      some (string.toList.map some, '"' :: rest) := by
    refine many_flatMap (fun c _ => reads_stringChar c) (fun _ _ _ => trivial) (fun c _ => ?_) trivial ?_
    · unfold escapeChar
      repeat' split
      all_goals exact List.cons_ne_nil _ _
    · rfl
  have hquote : (quote string).toList ++ rest = '"' :: (string.toList.flatMap escapeChar ++ '"' :: rest) := by
    simp [quote]
  have hstring : (string.toList.map some).mapM id = some (string.toList.map id) := mapM_map_eq_some fun _ _ => rfl
  rw [hquote, text, bind_of_some (char_cons _ _), bind_of_some hchars, bind_of_some (char_cons _ _), hstring,
    List.map_id, Option.map_some, String.ofList_toList]
  rfl

/-! ## 2. Numbers -/

/-- The value ends here: nothing follows, or a comma or a bracket that closes. -/
def Closes (rest : List Char) : Prop :=
  ∀ c ∈ rest.head?, c = ',' ∨ c = ']' ∨ c = '\x7d'

theorem Closes.stopsAt {property : Char → Bool} {rest : List Char} (h : Closes rest)
    (hmarks : property ',' = false ∧ property ']' = false ∧ property '\x7d' = false) : StopsAt property rest := by
  intro c hc
  rcases h c hc with rfl | rfl | rfl
  · exact hmarks.1
  · exact hmarks.2.1
  · exact hmarks.2.2

theorem Closes.head?_ne {rest : List Char} (h : Closes rest) {c : Char} (hc : c ≠ ',' ∧ c ≠ ']' ∧ c ≠ '\x7d') :
    rest.head? ≠ some c := by
  intro hhead
  rcases h c hhead with rfl | rfl | rfl
  · exact hc.1 rfl
  · exact hc.2.1 rfl
  · exact hc.2.2 rfl

/-- A number has digits, and nothing else. -/
theorem toDigits_eq_cons (n : Nat) :
    ∃ c others, Nat.toDigits 10 n = c :: others ∧ ∀ digit ∈ c :: others, digit.isDigit := by
  cases htext : Nat.toDigits 10 n with
  | nil => exact absurd htext Nat.toDigits_ne_nil
  | cons c others =>
    refine ⟨c, others, rfl, fun digit hdigit => ?_⟩
    rw [← htext] at hdigit
    exact Nat.isDigit_of_mem_toDigits (by decide) (by decide) hdigit

/-- The digits of a number other than zero do not start with one. -/
theorem head?_toDigits_ne_zero {n : Nat} (h : n ≠ 0) : (Nat.toDigits 10 n).head? ≠ some '0' := by
  induction n using Nat.strongRecOn with
  | ind n ih =>
    rw [Nat.toDigits_eq_if (by decide)]
    split
    · intro hhead
      exact h (Nat.digitChar_eq_zero.mp (Option.some.inj hhead))
    · have hquotient : n / 10 ≠ 0 := by omega
      have hdigits : (Nat.toDigits 10 (n / 10)).head?.isSome := List.isSome_head?.mpr Nat.toDigits_ne_nil
      rw [List.head?_append, Option.or_of_isSome hdigits]
      exact ih (n / 10) (by omega) hquotient

/-- The digits of a number are read as its digits. -/
theorem reads_wholeDigits (n : Nat) :
    Reads (StopsAt Char.isDigit) wholeDigits (Nat.toDigits 10 n) ((Nat.toDigits 10 n).map Numeral.digit) := by
  intro rest hrest
  by_cases hzero : n = 0
  · subst hzero
    rfl
  · obtain ⟨c, others, htext, hdigits⟩ := toDigits_eq_cons n
    have hhead := head?_toDigits_ne_zero hzero
    rw [htext] at hhead ⊢
    have hfirst : char '0' (c :: others ++ rest) = none := char_of_ne hhead
    rw [wholeDigits, orElse_of_none (bind_of_none hfirst), digits, bind_of_some (reads_takeWhile1 hdigits rest hrest)]
    rfl

theorem ofDigits_toDigits (n : Nat) : Numeral.ofDigits ((Nat.toDigits 10 n).map Numeral.digit) = n := by
  have hdigits : Numeral.ofDigits ((Nat.toDigits 10 n).map Numeral.digit) =
      Nat.ofDigitChars 10 (Nat.toDigits 10 n) 0 := by
    simp only [Numeral.ofDigits, Nat.ofDigitChars, List.foldl_map, Numeral.digit, Nat.mul_comm]
  rw [hdigits, Nat.ofDigitChars_ten_toDigits]

/-- **A whole number is read as its sign and its digits**, and as nothing more. -/
theorem reads_numeral (negative : Bool) (n : Nat) :
    Reads Closes numeral ((if negative then ['-'] else []) ++ Nat.toDigits 10 n)
      { negative, whole := (Nat.toDigits 10 n).map Numeral.digit, fraction := none, exponent := none } := by
  intro rest hrest
  have hdigits := reads_wholeDigits n rest (hrest.stopsAt (by decide))
  have hsign : maybe (char '-') ((if negative then ['-'] else []) ++ Nat.toDigits 10 n ++ rest) =
      some (if negative then some () else none, Nat.toDigits 10 n ++ rest) := by
    cases negative with
    | true => exact maybe_of_some (char_cons _ _)
    | false =>
      obtain ⟨c, others, htext, hall⟩ := toDigits_eq_cons n
      rw [htext]
      refine maybe_of_none (char_of_ne fun hhead => ?_)
      have hminus : c = '-' := Option.some.inj hhead
      have hdigit := hall c List.mem_cons_self
      rw [hminus] at hdigit
      cases hdigit
  have hpoint : maybe (do char '.'; digits) rest = some (none, rest) :=
    maybe_of_none (bind_of_none (char_of_ne (hrest.head?_ne (by decide))))
  have hexponent : maybe exponent rest = some (none, rest) :=
    maybe_of_none (bind_of_none (hrest.stopsAt (by decide)).satisfy)
  rw [numeral, bind_of_some hsign, bind_of_some hdigits, bind_of_some hpoint, bind_of_some hexponent]
  cases negative <;> rfl

/-- The text of a whole number: its digits, behind a sign if it is negative. -/
theorem toList_toString_int (value : Int) :
    (toString value).toList = (if decide (value < 0) then ['-'] else []) ++ Nat.toDigits 10 value.natAbs := by
  rw [Int.toString_eq_repr, Int.repr_eq_if]
  by_cases hsign : 0 ≤ value
  · have hnat : value.toNat = value.natAbs := by omega
    simp [hsign, hnat, Int.not_lt.mpr hsign, Nat.repr_eq_ofList_toDigits]
  · have hnat : (-value).toNat = value.natAbs := by omega
    simp [hsign, hnat, Int.not_le.mp hsign, Nat.repr_eq_ofList_toDigits]

/-- The numeral of a whole number of 64 bits, with or without sign, stands for it. -/
theorem number?_whole {number : Int} (hlow : Int64.minValue.toInt ≤ number) (hhigh : number < UInt64.size) :
    Numeral.number?
      { negative := decide (number < 0), whole := (Nat.toDigits 10 number.natAbs).map Numeral.digit
        fraction := none, exponent := none } = some (.int number) := by
  have hminimum : Int64.minValue.toInt = -9223372036854775808 := by decide
  have hsize : UInt64.size = 18446744073709551616 := rfl
  have hpower : Nat.pow 2 63 = 9223372036854775808 := by decide
  simp only [Numeral.number?, ofDigits_toDigits, Option.isNone_none, and_self, if_true, hpower, hsize]
  by_cases hsign : number < 0
  · have hvalue : -(number.natAbs : Int) = number := by omega
    rw [decide_eq_true hsign, if_neg (by simp), if_pos ⟨rfl, by omega, by omega⟩, hvalue]
  · have hvalue : (number.natAbs : Int) = number := by omega
    rw [decide_eq_false hsign, if_pos ⟨by simp, by omega⟩, hvalue]

/-- **A whole number of 64 bits, with or without sign, is read as it is.** -/
theorem reads_int {number : Int} (hlow : Int64.minValue.toInt ≤ number) (hhigh : number < UInt64.size) :
    Reads Closes (do return ((← numeral).number?.map Json.number).getD .unreadable) (toString number).toList
      (.number (.int number)) := by
  intro rest hrest
  rw [toList_toString_int, bind_of_some (reads_numeral _ _ rest hrest), number?_whole hlow hhigh]
  rfl

/-! ## 3. Items and commas -/

variable {α ι : Type}

/-- Whether a character is a blank. -/
def isBlank (c : Char) : Bool :=
  c == ' ' || c == '\t' || c == '\n' || c == '\r'

/-- A text with a first character that is no blank. -/
def Solid (text : List Char) : Prop :=
  ∃ c others, text = c :: others ∧ isBlank c = false

theorem Solid.stopsAt {text : List Char} (h : Solid text) (rest : List Char) : StopsAt isBlank (text ++ rest) := by
  obtain ⟨c, others, rfl, hc⟩ := h
  intro other hother
  rw [← Option.some.inj hother]
  exact hc

/-- Where there are no blanks, none are read. -/
theorem blanks_of_stopsAt {rest : List Char} (h : StopsAt isBlank rest) : blanks rest = some ((), rest) := by
  obtain ⟨htake, hdrop⟩ := h.takeWhile
  have hread : Parse.takeWhile isBlank rest = some ([], rest) := by rw [Parse.takeWhile, htake, hdrop]
  exact bind_of_some hread

theorem Closes.stopsAt_blank {rest : List Char} (h : Closes rest) : StopsAt isBlank rest :=
  h.stopsAt (by decide)

theorem seqLeft_blanks (parser : Parse α) (text : List Char) :
    (parser <* blanks) text = (parser >>= fun result => blanks >>= fun _ => pure result) text := rfl

theorem reads_seqLeft_blanks {parser : Parse α} {text : List Char} {result : α} (h : Reads Closes parser text result) :
    Reads Closes (parser <* blanks) text result := by
  intro rest hrest
  rw [seqLeft_blanks, bind_of_some (h rest hrest), bind_of_some (blanks_of_stopsAt hrest.stopsAt_blank)]
  rfl

theorem seqLeft_blanks_of_none {parser : Parse α} {text : List Char} (h : parser text = none) :
    (parser <* blanks) text = none := by
  rw [seqLeft_blanks, bind_of_none h]

theorem separator_of_stopsAt {rest : List Char} (h : StopsAt isBlank rest) :
    (char ',' *> blanks) (',' :: rest) = some ((), rest) := by
  have hseq : (char ',' *> blanks) (',' :: rest) = (char ',' >>= fun _ => blanks) (',' :: rest) := rfl
  rw [hseq, bind_of_some (char_cons _ _), blanks_of_stopsAt h]

/-- Texts with commas between them are the first one, and each other behind its comma. -/
theorem intercalate_cons (first : List Char) (others : List (List Char)) :
    [','].intercalate (first :: others) = first ++ others.flatMap (',' :: ·) := by
  induction others generalizing first with
  | nil => simp
  | cons second others ih =>
    rw [List.intercalate_cons_cons, ih, List.flatMap_cons]
    simp

theorem length_le_length_intercalate {texts : List (List Char)} {text : List Char} (h : text ∈ texts) :
    text.length ≤ ([','].intercalate texts).length := by
  cases texts with
  | nil => cases h
  | cons first others =>
    rw [intercalate_cons, List.length_append]
    rcases List.mem_cons.mp h with rfl | hother
    · exact Nat.le_add_right _ _
    · have hsublist : (',' :: text).Sublist (others.flatMap (',' :: ·)) :=
        List.sublist_flatten_of_mem (List.mem_map_of_mem hother)
      have hlength := hsublist.length_le
      rw [List.length_cons] at hlength
      omega

/-- **Items with commas between them are read item by item**, up to the bracket that closes. -/
theorem sepBy_intercalate {parser : Parse α} {write : ι → List Char} {result : ι → α} {items : List ι}
    {rest : List Char}
    (hitem : ∀ item ∈ items, Reads Closes parser (write item) (result item))
    (hsolid : ∀ item ∈ items, Solid (write item)) (hrest : Closes rest) (hcomma : rest.head? ≠ some ',')
    (hnone : parser rest = none) :
    sepBy parser (char ',' *> blanks) ([','].intercalate (items.map write) ++ rest) =
      some (items.map result, rest) := by
  cases items with
  | nil => exact orElse_of_none (bind_of_none hnone)
  | cons first others =>
    have hfirst := hitem first List.mem_cons_self
    have hother : ∀ other ∈ others,
        Reads Closes ((char ',' *> blanks) >>= fun _ => parser) (',' :: write other) (result other) := by
      intro other hmem behind hbehind
      have hseparator := separator_of_stopsAt ((hsolid other (List.mem_cons_of_mem _ hmem)).stopsAt behind)
      rw [List.cons_append, bind_of_some hseparator]
      exact hitem other (List.mem_cons_of_mem _ hmem) behind hbehind
    have hcloses : ∀ behind, Closes (',' :: behind) := fun behind c hc => .inl (Option.some.inj hc).symm
    have hend : ((char ',' *> blanks) >>= fun _ => parser) rest = none :=
      bind_of_none (bind_of_none (char_of_ne hcomma))
    have hothers := many_flatMap hother (fun _ _ _ => hcloses _) (fun _ _ => List.cons_ne_nil _ _) hrest hend
    have hafter : Closes (others.flatMap (fun other => ',' :: write other) ++ rest) := by
      cases others with
      | nil => exact hrest
      | cons other _ => exact hcloses _
    rw [List.map_cons, intercalate_cons, List.flatMap_map, List.append_assoc]
    refine orElse_of_some ?_
    rw [bind_of_some (hfirst _ hafter), bind_of_some hothers]
    rfl

/-! ## 4. The text of a value -/

/-- **What can be written and read back**: no fractions, and whole numbers of 64 bits, with or without sign. -/
inductive Readable : Json → Prop
  | null : Readable .null
  | bool (truth : Bool) : Readable (.bool truth)
  | int {number : Int} (hlow : Int64.minValue.toInt ≤ number) (hhigh : number < UInt64.size) :
      Readable (.number (.int number))
  | string (text : String) : Readable (.string text)
  | array {items : List Json} (h : ∀ item ∈ items, Readable item) : Readable (.array items)
  | object {members : List (String × Json)} (h : ∀ member ∈ members, Readable member.2) : Readable (.object members)

/-- A member as it is written. -/
def memberText (member : String × Json) : List Char :=
  (quote member.1).toList ++ ':' :: (render member.2).toList

theorem toList_render_array (items : List Json) :
    (render (.array items)).toList =
      '[' :: ([','].intercalate (items.map fun item => (render item).toList) ++ [']']) := by
  have hitems : renderItems items = items.map render := by
    induction items with
    | nil => rfl
    | cons item others ih => rw [renderItems, ih, List.map_cons]
  simp [render, hitems, String.toList_intercalate, Function.comp_def]

theorem toList_render_object (members : List (String × Json)) :
    (render (.object members)).toList = '\x7b' :: ([','].intercalate (members.map memberText) ++ ['\x7d']) := by
  have hmembers : (renderMembers members).map String.toList = members.map memberText := by
    induction members with
    | nil => rfl
    | cons member others ih =>
      rw [renderMembers, List.map_cons, List.map_cons, ih]
      simp [memberText]
  simp [render, hmembers, String.toList_intercalate]

theorem toList_quote (string : String) :
    (quote string).toList = '"' :: (string.toList.flatMap escapeChar ++ ['"']) := by
  simp [quote]

/-- The text of a whole number starts with a digit or a sign. -/
theorem toString_int_eq_cons (number : Int) :
    ∃ c others, (toString number).toList = c :: others ∧ (c.isDigit ∨ c = '-') := by
  rw [toList_toString_int]
  obtain ⟨c, others, hdigits, hall⟩ := toDigits_eq_cons number.natAbs
  cases decide (number < 0) with
  | true => exact ⟨'-', _, rfl, .inr rfl⟩
  | false => exact ⟨c, others, hdigits, .inl (hall c List.mem_cons_self)⟩

/-- The text of a readable value starts with no blank. -/
theorem solid_render {json : Json} (h : Readable json) : Solid (render json).toList := by
  cases h with
  | null => exact ⟨_, _, rfl, rfl⟩
  | bool truth => cases truth <;> exact ⟨_, _, rfl, rfl⟩
  | @int number hlow hhigh =>
    obtain ⟨c, others, htext, hc⟩ := toString_int_eq_cons number
    refine ⟨c, others, htext, ?_⟩
    rw [Bool.eq_false_iff]
    intro hblank
    simp only [isBlank, Bool.or_eq_true, beq_iff_eq] at hblank
    -- neither a digit nor a sign is one of the blanks
    rcases hblank with ((rfl | rfl) | rfl) | rfl <;> rcases hc with hdigit | hminus <;> contradiction
  | string text => exact ⟨_, _, toList_quote text, rfl⟩
  | array h => exact ⟨_, _, toList_render_array _, rfl⟩
  | object h => exact ⟨_, _, toList_render_object _, rfl⟩

theorem solid_memberText (member : String × Json) : Solid (memberText member) := by
  unfold memberText
  rw [toList_quote]
  exact ⟨_, _, rfl, rfl⟩

/-- A member is read where its value is. -/
theorem reads_member {item : Parse Json} {member : String × Json} (hsolid : Solid (render member.2).toList)
    (hvalue : Reads Closes item (render member.2).toList member.2) :
    Reads Closes (Json.member item) (memberText member) (some member.1, member.2) := by
  intro rest hrest
  have hkey : text (memberText member ++ rest) = some (some member.1, ':' :: (render member.2).toList ++ rest) := by
    rw [memberText, List.append_assoc]
    exact reads_text member.1 _ trivial
  have hcolon : StopsAt isBlank (':' :: ((render member.2).toList ++ rest)) := by
    intro c hc
    rw [← Option.some.inj hc]
    rfl
  rw [Json.member, bind_of_some hkey, List.cons_append, bind_of_some (blanks_of_stopsAt hcolon),
    bind_of_some (char_cons _ _), bind_of_some (blanks_of_stopsAt (hsolid.stopsAt rest)),
    bind_of_some (hvalue rest hrest)]
  rfl

/-- A word is read as its value. -/
theorem reads_word (spelling : String) (value : Json) : Reads Anything (word spelling value) spelling.toList value := by
  intro rest _
  have hliteral : literal spelling (spelling.toList ++ rest) = some ((), rest) := by
    unfold literal
    induction spelling.toList with
    | nil => rfl
    | cons c others ih => exact (bind_of_some (char_cons _ _)).trans ih
  rw [word, bind_of_some hliteral]
  rfl

/-- What starts with a digit or a sign is read as a number. -/
theorem value_of_numeral {c : Char} (h : c.isDigit ∨ c = '-') (depth : Nat) (others : List Char) :
    value (depth + 1) (c :: others) =
      (do return ((← numeral).number?.map Json.number).getD .unreadable : Parse Json) (c :: others) := by
  have hpeek : peek? (c :: others) = some (some c, c :: others) := rfl
  have hne : ∀ mark : Char, mark.isDigit = false ∧ mark ≠ '-' → some c ≠ some mark := by
    intro mark hmark heq
    rw [Option.some.inj heq] at h
    rcases h with hdigit | hminus
    · rw [hmark.1] at hdigit
      cases hdigit
    · exact hmark.2 hminus
  rw [value, bind_of_some hpeek]
  refine congrFun ?_ (c :: others)
  split
  case h_7 => rfl
  all_goals
    rename_i heq
    exact absurd heq (hne _ (by decide))

/-- Between brackets the next character is no blank, whether there are items or not. -/
theorem stopsAt_intercalate {write : ι → List Char} {items : List ι} (hsolid : ∀ item ∈ items, Solid (write item))
    {rest : List Char} (hrest : StopsAt isBlank rest) :
    StopsAt isBlank ([','].intercalate (items.map write) ++ rest) := by
  cases items with
  | nil => exact hrest
  | cons first others =>
    rw [List.map_cons, intercalate_cons, List.append_assoc]
    exact (hsolid first List.mem_cons_self).stopsAt _

/-- An array is read where its items are. -/
theorem reads_items {item : Parse Json} {list : List Json}
    (hitem : ∀ json ∈ list, Reads Closes item (render json).toList json)
    (hsolid : ∀ json ∈ list, Solid (render json).toList) (hend : ∀ rest, item (']' :: rest) = none) :
    Reads Anything (items item) (render (.array list)).toList (.array list) := by
  intro rest _
  have hcloses : Closes (']' :: rest) := fun c hc => .inr (.inl (Option.some.inj hc).symm)
  have hsepBy := sepBy_intercalate (fun json hjson => reads_seqLeft_blanks (hitem json hjson)) hsolid hcloses
    (by simp) (seqLeft_blanks_of_none (hend rest))
  have hblanks := blanks_of_stopsAt (stopsAt_intercalate hsolid hcloses.stopsAt_blank)
  rw [toList_render_array, List.cons_append, List.append_assoc, List.singleton_append, items,
    bind_of_some (char_cons _ _), bind_of_some hblanks, bind_of_some hsepBy, bind_of_some (char_cons _ _), List.map_id']
  rfl

/-- An object is read where the values of its members are. -/
theorem reads_members {item : Parse Json} {list : List (String × Json)}
    (hitem : ∀ member ∈ list, Reads Closes item (render member.2).toList member.2)
    (hsolid : ∀ member ∈ list, Solid (render member.2).toList) :
    Reads Anything (members item) (render (.object list)).toList (.object list) := by
  intro rest _
  have hcloses : Closes ('\x7d' :: rest) := fun c hc => .inr (.inr (Option.some.inj hc).symm)
  have hkey : Json.member item ('\x7d' :: rest) = none := rfl
  have hmember : ∀ member ∈ list,
      Reads Closes (Json.member item <* blanks) (memberText member) (some member.1, member.2) :=
    fun member hmem => reads_seqLeft_blanks (reads_member (hsolid member hmem) (hitem member hmem))
  have hstart : ∀ member ∈ list, Solid (memberText member) := fun member _ => solid_memberText member
  have hsepBy := sepBy_intercalate hmember hstart hcloses (by simp) (seqLeft_blanks_of_none hkey)
  have hblanks := blanks_of_stopsAt (stopsAt_intercalate hstart hcloses.stopsAt_blank)
  rw [toList_render_object, List.cons_append, List.append_assoc, List.singleton_append, members,
    bind_of_some (char_cons _ _), bind_of_some hblanks, bind_of_some hsepBy, bind_of_some (char_cons _ _)]
  -- every key was read, so the members are those that were written
  rw [@mapM_map_eq_some _ _ _ _ _ id, List.map_id]
  · rfl
  · exact fun _ _ => rfl

/-- No value starts with a bracket that closes. -/
theorem value_bracket (depth : Nat) (rest : List Char) : value depth (']' :: rest) = none := by
  cases depth <;> rfl

/-- **The text of a readable value is read as this value**, if the depth allowed is at least its length. -/
theorem reads_value {json : Json} (h : Readable json) :
    ∀ depth, (render json).toList.length ≤ depth + 1 → Reads Closes (value (depth + 1)) (render json).toList json := by
  induction h with
  | null => exact fun _ _ rest _ => reads_word "null" .null rest trivial
  | bool truth =>
    intro depth _ rest _
    cases truth with
    | true => exact reads_word "true" (.bool true) rest trivial
    | false => exact reads_word "false" (.bool false) rest trivial
  | @int number hlow hhigh =>
    intro depth _ rest hrest
    have hread := reads_int hlow hhigh rest hrest
    obtain ⟨c, others, htext, hc⟩ := toString_int_eq_cons number
    have hrender : (render (.number (.int number))).toList = c :: others := htext
    rw [htext, List.cons_append] at hread
    rw [hrender, List.cons_append, value_of_numeral hc, hread]
  | string string =>
    intro depth _ rest _
    have hread := reads_text string rest trivial
    have hrender : (render (.string string)).toList = (quote string).toList := rfl
    rw [toList_quote, List.cons_append] at hread
    rw [hrender, toList_quote, List.cons_append]
    exact bind_of_some hread
  | @array items h ih =>
    intro depth hdepth rest _
    rw [toList_render_array, List.length_cons, List.length_append, List.length_singleton] at hdepth
    cases depth with
    | zero => omega
    | succ depth =>
      have hitems : ∀ json ∈ items, Reads Closes (value (depth + 1)) (render json).toList json := by
        intro json hjson
        have hlength := length_le_length_intercalate (List.mem_map_of_mem (f := fun item => (render item).toList) hjson)
        exact ih json hjson depth (by omega)
      have hread := reads_items hitems (fun json hjson => solid_render (h json hjson))
        (fun rest => value_bracket (depth + 1) rest) rest trivial
      rw [toList_render_array, List.cons_append] at hread ⊢
      exact hread
  | @object members h ih =>
    intro depth hdepth rest _
    rw [toList_render_object, List.length_cons, List.length_append, List.length_singleton] at hdepth
    cases depth with
    | zero => omega
    | succ depth =>
      have hmembers : ∀ member ∈ members, Reads Closes (value (depth + 1)) (render member.2).toList member.2 := by
        intro member hmember
        have hlength := length_le_length_intercalate (List.mem_map_of_mem (f := memberText) hmember)
        rw [memberText, List.length_append, List.length_cons] at hlength
        exact ih member hmember depth (by omega)
      have hread := reads_members hmembers (fun member hmember => solid_render (h member hmember)) rest trivial
      rw [toList_render_object, List.cons_append] at hread ⊢
      exact hread

/-- **Reading inverts writing**: the text of a readable value is read as this value. -/
theorem parse?_render {json : Json} (h : Readable json) : parse? (render json) = some json := by
  have hcloses : Closes [] := by
    intro c hc
    cases hc
  have hsolid := solid_render h
  obtain ⟨depth, hdepth⟩ : ∃ depth, (render json).length = depth + 1 := by
    obtain ⟨c, others, htext, _⟩ := hsolid
    refine ⟨others.length, ?_⟩
    rw [← String.length_toList, htext, List.length_cons]
  have hvalue := reads_value h depth (Nat.le_of_eq (String.length_toList.trans hdepth)) [] hcloses
  have hblanks := blanks_of_stopsAt (hsolid.stopsAt [])
  rw [List.append_nil] at hvalue hblanks
  rw [parse?, Parse.parse?, hdepth, bind_of_some hblanks, bind_of_some hvalue,
    bind_of_some (blanks_of_stopsAt hcloses.stopsAt_blank)]
  rfl

end Json

end MethodLowering
