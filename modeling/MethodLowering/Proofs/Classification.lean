import Mathlib.Data.List.Nodup
import Mathlib.Data.Nat.Bitwise
import MethodLowering.Proofs.DeclarationOrder
import MethodLowering.Signature.CodeMetadata

/-!
# What classification gives

Classification cuts five blocks of parameters out of one list of names, at places that depend on two counts and two
bits. This file says which metadata it accepts and which list it makes of them.

* `CodeMetadata.blocks`, `CodeMetadata.signature` -- the parameters that metadata declare, block by block;
* `CodeMetadata.wellOrdered_signature_iff` -- they are in order as soon as their names differ;
* `CodeMetadata.WellFormed`, `CodeMetadata.classify_eq_ok_iff` -- what metadata must be, and that classification gives
  their signature;
* `CodeMetadata.Agrees` -- metadata that declare the same parameters;
* `CodeMetadata.classify_exact` -- **classification gives the signature of well-formed metadata, and fails on all
  others.**
-/

namespace MethodLowering

theorem bind_eq_ok {α β ε : Type} {x : Except ε α} {f : α → Except ε β} {b : β} :
    x >>= f = .ok b ↔ ∃ a, x = .ok a ∧ f a = .ok b := by
  cases x with
  | error fault => exact ⟨nofun, nofun⟩
  | ok a => exact ⟨fun h => ⟨a, rfl, h⟩, fun ⟨_, ha, h⟩ => by cases ha; exact h⟩

theorem guard_eq_ok_iff {α ε : Type} {c : Prop} [Decidable c] {a b : α} {fault : ε} :
    (if c then Except.ok a else .error fault) = .ok b ↔ c ∧ b = a := by
  split
  · rename_i h
    exact ⟨fun heq => ⟨h, (Except.ok.inj heq).symm⟩, fun heq => congrArg Except.ok heq.2.symm⟩
  · rename_i h
    exact ⟨nofun, fun heq => absurd heq.1 h⟩

/-! ## 1. What metadata declare -/

namespace CodeMetadata

/-- The names at so many places from a place on. -/
def namesAt (code : CodeMetadata) (start count : Nat) : List String :=
  (code.names.drop start).take count

/-- One if a parameter takes the positional arguments left, as the third lowest bit of the flags says. -/
def varPositionalCount (code : CodeMetadata) : Nat :=
  (code.flags.toNat.testBit 2).toNat

/-- One if a parameter takes the named arguments left, as the fourth lowest bit of the flags says. -/
def varKeywordCount (code : CodeMetadata) : Nat :=
  (code.flags.toNat.testBit 3).toNat

/-- The number of parameters. -/
def parameterCount (code : CodeMetadata) : Nat :=
  code.positionalCount + code.keywordOnlyCount + code.varPositionalCount + code.varKeywordCount

/-- The parameters of a kind, from their names and defaults. -/
def declare (code : CodeMetadata) (kind : Parameter.Kind) (block : List (String × Option Constant)) : List Parameter :=
  block.map fun (name, default) => { name, kind, hint := code.hints.get? name, default }

/-- The blocks of parameters that metadata declare: positional ones without and with default, the one for positional
arguments left, keyword-only ones, the one for named arguments left. -/
def blocks (code : CodeMetadata) : List (List Parameter) :=
  let plain := code.positionalCount - code.defaults.length
  let named := code.positionalCount + code.keywordOnlyCount
  [code.declare .positionalOrKeyword ((code.namesAt 0 plain).map (·, none)),
    code.declare .positionalOrKeyword ((code.namesAt plain code.defaults.length).zip (code.defaults.map some)),
    code.declare .varPositional ((code.namesAt named code.varPositionalCount).map (·, none)),
    code.declare .keywordOnly
      ((code.namesAt code.positionalCount code.keywordOnlyCount).map fun name =>
        (name, code.keywordDefaults.get? name)),
    code.declare .varKeyword ((code.namesAt (named + code.varPositionalCount) code.varKeywordCount).map (·, none))]

/-- **The parameters that metadata declare, in order.** -/
def signature (code : CodeMetadata) : List Parameter :=
  code.blocks.flatten

variable {code : CodeMetadata}

/-- A mask of one bit finds this bit. -/
theorem mask_eq_testBit {flags mask : UInt32} {place : Nat} (hmask : mask.toNat = 2 ^ place) :
    (flags &&& mask != 0) = flags.toNat.testBit place := by
  have hbit : (flags &&& mask).toNat = (flags.toNat.testBit place).toNat * 2 ^ place := by
    rw [UInt32.toNat_and, hmask, Nat.and_two_pow]
  have hpos : 0 < 2 ^ place := Nat.two_pow_pos place
  rw [Bool.eq_iff_iff, bne_iff_ne, Ne, ← UInt32.toNat_inj, hbit]
  cases flags.toNat.testBit place with
  | false => simp
  | true => simp

theorem toNat_hasVarPositional (code : CodeMetadata) : code.hasVarPositional.toNat = code.varPositionalCount :=
  congrArg Bool.toNat (mask_eq_testBit rfl)

theorem toNat_hasVarKeyword (code : CodeMetadata) : code.hasVarKeyword.toNat = code.varKeywordCount :=
  congrArg Bool.toNat (mask_eq_testBit rfl)

theorem names_declare (kind : Parameter.Kind) (block : List (String × Option Constant)) :
    (code.declare kind block).map (·.name) = block.map Prod.fst := by
  rw [declare, List.map_map]
  rfl

/-- Names in a row are the names in front and those behind. -/
theorem namesAt_add (start first second : Nat) :
    code.namesAt start (first + second) = code.namesAt start first ++ code.namesAt (start + first) second := by
  unfold namesAt
  rw [List.take_add, List.drop_drop]

/-- The names of positional parameters are those without default and those with one. -/
theorem namesAt_positional (hdefaults : code.defaults.length ≤ code.positionalCount) :
    code.namesAt 0 code.positionalCount =
      code.namesAt 0 (code.positionalCount - code.defaults.length) ++
        code.namesAt (code.positionalCount - code.defaults.length) code.defaults.length := by
  have hadd : code.namesAt 0 (code.positionalCount - code.defaults.length + code.defaults.length) = _ :=
    namesAt_add _ _ _
  rwa [Nat.sub_add_cancel hdefaults, Nat.zero_add] at hadd

/-- Where there are enough names, as many as asked for are there. -/
theorem length_namesAt {start count : Nat} (h : start + count ≤ code.names.length) :
    (code.namesAt start count).length = count := by
  unfold namesAt
  rw [List.length_take, List.length_drop]
  omega

theorem mem_declare {kind : Parameter.Kind} {block : List (String × Option Constant)} {parameter : Parameter}
    (h : parameter ∈ code.declare kind block) :
    parameter.kind = kind ∧ ∃ name, (name, parameter.default) ∈ block := by
  obtain ⟨⟨name, default⟩, hmem, rfl⟩ := List.mem_map.mp h
  exact ⟨rfl, name, hmem⟩

theorem block_declare {kind : Parameter.Kind} {block : List (String × Option Constant)} {rank : Nat}
    (hrank : ∀ pair ∈ block, ∀ hint, Parameter.rank { name := pair.1, kind, hint, default := pair.2 } = rank)
    (halone : ¬kind.isVariadic ∨ block.length ≤ 1) : Parameter.OfRank rank (code.declare kind block) := by
  refine ⟨fun parameter hmem => ?_, halone.imp (fun hkind parameter hmem => ?_) fun hone => ?_⟩
  · obtain ⟨pair, hpair, rfl⟩ := List.mem_map.mp hmem
    exact hrank pair hpair _
  · rw [(mem_declare hmem).1]
    exact hkind
  · rw [declare, List.length_map]
    exact hone

/-- **The blocks stand in the order of declaration**, so no check of the order can fail. -/
theorem ordered_signature (code : CodeMetadata) : code.signature.Pairwise Parameter.Precedes := by
  have hvariadic : ∀ start count, count ≤ 1 →
      ((code.namesAt start count).map (·, (none : Option Constant))).length ≤ 1 := by
    intro start count hcount
    rw [List.length_map]
    exact Nat.le_trans (List.length_take_le _ _) hcount
  refine Parameter.ordered_blocks 0 fun place block hblock => ?_
  rw [Nat.zero_add]
  rcases place with _ | _ | _ | _ | _ | place
  · cases hblock
    refine block_declare (fun pair hpair _ => ?_) (.inl nofun)
    obtain ⟨_, -, rfl⟩ := List.mem_map.mp hpair
    rfl
  · cases hblock
    refine block_declare (fun pair hpair _ => ?_) (.inl nofun)
    obtain ⟨_, -, hdefault⟩ := List.mem_map.mp (List.of_mem_zip hpair).2
    rw [← hdefault]
    rfl
  · cases hblock
    exact block_declare (fun _ _ _ => rfl) (.inr (hvariadic _ _ (Bool.toNat_le _)))
  · cases hblock
    exact block_declare (fun _ _ _ => rfl) (.inl nofun)
  · cases hblock
    exact block_declare (fun _ _ _ => rfl) (.inr (hvariadic _ _ (Bool.toNat_le _)))
  · cases hblock

/-- The variadic parameters of a signature have no default. -/
theorem plain_signature (code : CodeMetadata) :
    ∀ parameter ∈ code.signature, parameter.kind.isVariadic → ¬parameter.hasDefault := by
  have hplain : ∀ (kind : Parameter.Kind) (names : List String) (parameter : Parameter),
      parameter ∈ code.declare kind (names.map (·, none)) → ¬parameter.hasDefault := by
    intro kind names parameter hmem
    obtain ⟨-, name, hpair⟩ := mem_declare hmem
    obtain ⟨_, -, heq⟩ := List.mem_map.mp hpair
    rw [Parameter.hasDefault, ← (Prod.mk.inj heq).2]
    exact Bool.false_ne_true
  intro parameter hmem hvariadic
  simp only [signature, blocks, List.flatten_cons, List.flatten_nil, List.append_nil, List.mem_append] at hmem
  rcases hmem with hmem | hmem | hmem | hmem | hmem
  · exact hplain _ _ _ hmem
  · rw [(mem_declare hmem).1] at hvariadic
    cases hvariadic
  · exact hplain _ _ _ hmem
  · rw [(mem_declare hmem).1] at hvariadic
    cases hvariadic
  · exact hplain _ _ _ hmem

/-- The names of a signature are the first names of the metadata; only the one for positional arguments left has moved
to the front of the keyword-only ones. -/
theorem names_signature (hdefaults : code.defaults.length ≤ code.positionalCount) :
    (code.signature.map (·.name)).Perm (code.names.take code.parameterCount) := by
  have hfirst : code.names.take code.parameterCount = code.namesAt 0 code.parameterCount := rfl
  have hlength : (code.namesAt (code.positionalCount - code.defaults.length) code.defaults.length).length ≤
      (code.defaults.map some).length := by
    rw [List.length_map]
    exact List.length_take_le _ _
  rw [hfirst, parameterCount, namesAt_add, namesAt_add, namesAt_add, Nat.zero_add, Nat.zero_add, Nat.zero_add,
    namesAt_positional hdefaults]
  simp only [signature, blocks, List.flatten_cons, List.flatten_nil, List.append_nil, List.map_append, names_declare,
    List.map_map, Function.comp_def, List.map_id', List.map_fst_zip hlength, List.append_assoc]
  refine List.Perm.append_left _ (List.Perm.append_left _ ?_)
  rw [← List.append_assoc, ← List.append_assoc (code.namesAt code.positionalCount code.keywordOnlyCount)]
  exact List.Perm.append_right _ List.perm_append_comm

/-- **The parameters that metadata declare are in order as soon as their names differ.** -/
theorem wellOrdered_signature_iff (hdefaults : code.defaults.length ≤ code.positionalCount) :
    Parameter.WellOrdered code.signature ↔ (code.names.take code.parameterCount).Nodup := by
  rw [← (names_signature hdefaults).nodup_iff, List.nodup_iff_pairwise_ne, List.pairwise_map]
  exact ⟨fun h => h.distinct, fun h => ⟨h, code.ordered_signature, code.plain_signature⟩⟩

/-! ## 2. What classification checks -/

/-- **What metadata must be**: no more defaults than positional parameters, counts that have a sum, a name for each
parameter, keyword defaults for keyword-only parameters alone, and all names of parameters different. -/
structure WellFormed (code : CodeMetadata) : Prop where
  defaults_le : code.defaults.length ≤ code.positionalCount
  count_lt : code.positionalCount + code.keywordOnlyCount < countLimit
  names_le : code.parameterCount ≤ code.names.length
  keys : ∀ name, (code.keywordDefaults.get? name).isSome →
    name ∈ code.namesAt code.positionalCount code.keywordOnlyCount
  distinct : (code.names.take code.parameterCount).Nodup

theorem declare_zip (kind : Parameter.Kind) (names : List String) (defaults : List (Option Constant)) :
    code.declare kind (names.zip defaults) = List.zipWith (code.parameter kind) names defaults := by
  rw [declare, List.zip, List.map_zipWith]
  rfl

theorem declare_none (kind : Parameter.Kind) (names : List String) :
    code.declare kind (names.map (·, none)) =
      List.zipWith (code.parameter kind) names (List.replicate names.length none) := by
  rw [← declare_zip]
  congr 1
  induction names with
  | nil => rfl
  | cons name rest ih => rw [List.map_cons, List.length_cons, List.replicate_succ, List.zip_cons_cons, ih]

theorem positionalParameters_eq (hdefaults : code.defaults.length ≤ code.positionalCount)
    (hnames : code.positionalCount ≤ code.names.length) :
    code.positionalParameters (code.positionalCount - code.defaults.length) =
      code.declare .positionalOrKeyword
          ((code.namesAt 0 (code.positionalCount - code.defaults.length)).map (·, none)) ++
        code.declare .positionalOrKeyword
          ((code.namesAt (code.positionalCount - code.defaults.length) code.defaults.length).zip
            (code.defaults.map some)) := by
  have hlength : (code.namesAt 0 (code.positionalCount - code.defaults.length)).length =
      code.positionalCount - code.defaults.length := length_namesAt (by omega)
  rw [declare_none, declare_zip, hlength, ← List.zipWith_append (by rw [hlength, List.length_replicate])]
  rw [← namesAt_positional hdefaults]
  rfl

theorem keywordOnlyParameters_eq (code : CodeMetadata) :
    code.keywordOnlyParameters =
      code.declare .keywordOnly ((code.namesAt code.positionalCount code.keywordOnlyCount).map fun name =>
        (name, code.keywordDefaults.get? name)) := by
  rw [declare, List.map_map]
  rfl

/-- A variadic parameter has the name at its index. -/
theorem variadic_eq_ok_iff {kind : Parameter.Kind} {index : Nat} {parameters : List Parameter} :
    code.variadic kind index = .ok parameters ↔
      index < code.names.length ∧ parameters = code.declare kind ((code.namesAt index 1).map (·, none)) := by
  unfold variadic
  by_cases hindex : index < code.names.length
  · have hnames : code.namesAt index 1 = [code.names[index]] := by
      rw [namesAt, List.drop_eq_getElem_cons hindex]
      rfl
    rw [List.getElem?_eq_getElem hindex, hnames]
    exact ⟨fun h => ⟨hindex, (Except.ok.inj h).symm⟩, fun h => congrArg Except.ok h.2.symm⟩
  · rw [List.getElem?_eq_none (Nat.le_of_not_lt hindex)]
    exact ⟨nofun, fun h => absurd h.1 hindex⟩

theorem strayDefault?_eq_none_iff :
    code.strayDefault? = none ↔
      ∀ name, (code.keywordDefaults.get? name).isSome →
        name ∈ code.namesAt code.positionalCount code.keywordOnlyCount := by
  have hkey : ∀ name, (code.keywordDefaults.get? name).isSome ↔
      ∃ entry ∈ code.keywordDefaults.entries, entry.1 = name := by
    intro name
    rw [Bindings.get?, List.lookup_isSome_iff]
    refine exists_congr fun entry => and_congr_right fun _ => ?_
    rw [beq_iff_eq, eq_comm]
  simp only [strayDefault?, List.find?_eq_none, List.mem_map, hkey, Bool.not_eq_true, Bool.not_eq_false',
    List.contains_iff_mem]
  exact Iff.rfl

theorem varKeywordIndex_eq_ok_iff {index : Nat} :
    code.varKeywordIndex = .ok index ↔
      code.positionalCount + code.keywordOnlyCount < countLimit ∧
        code.positionalCount + code.keywordOnlyCount + code.varPositionalCount < countLimit ∧
        index = code.positionalCount + code.keywordOnlyCount + code.varPositionalCount := by
  simp only [varKeywordIndex, namedCount, bind_eq_ok, guard_eq_ok_iff, toNat_hasVarPositional]
  constructor
  · rintro ⟨_, ⟨hcount, rfl⟩, h⟩
    exact ⟨hcount, h⟩
  · rintro ⟨hcount, h⟩
    exact ⟨_, ⟨hcount, rfl⟩, h⟩

/-- What classification does behind its checks of counts and keys: it looks up the names of variadic parameters. -/
def assemble (code : CodeMetadata) : Except SignatureFault ParameterList := do
  let named := code.positionalCount + code.keywordOnlyCount
  let varPositional ← if code.hasVarPositional then code.variadic .varPositional named else pure []
  let varKeyword ← if code.hasVarKeyword then code.variadic .varKeyword (← code.varKeywordIndex) else pure []
  ParameterList.ofList (code.positionalParameters (code.positionalCount - code.defaults.length) ++ varPositional ++
    code.keywordOnlyParameters ++ varKeyword)

/-- Classification succeeds if the checks do and the list can be made. -/
theorem classify_eq_ok_iff_assemble {list : ParameterList} :
    code.classify = .ok list ↔
      (code.defaults.length ≤ code.positionalCount ∧
        code.positionalCount + code.keywordOnlyCount < countLimit ∧
        code.positionalCount + code.keywordOnlyCount ≤ code.names.length ∧
        code.strayDefault? = none) ∧ code.assemble = .ok list := by
  unfold classify plainCount namedCount
  by_cases hdefaults : code.defaults.length ≤ code.positionalCount
  · rw [if_pos hdefaults]
    by_cases hcount : code.positionalCount + code.keywordOnlyCount < countLimit
    · rw [if_pos hcount]
      by_cases hnames : code.names.length < code.positionalCount + code.keywordOnlyCount
      · refine ⟨fun h => ?_, fun h => absurd hnames (Nat.not_lt.mpr h.1.2.2.1)⟩
        simp only [bind, Except.bind, if_pos hnames] at h
        cases h
      · simp only [bind, Except.bind, if_neg hnames]
        cases hstray : code.strayDefault? with
        | some name => exact ⟨nofun, nofun⟩
        | none => exact ⟨fun h => ⟨⟨hdefaults, hcount, Nat.le_of_not_lt hnames, rfl⟩, h⟩, fun h => h.2⟩
    · rw [if_neg hcount]
      exact ⟨nofun, fun h => absurd h.1.2.1 hcount⟩
  · rw [if_neg hdefaults]
    exact ⟨nofun, fun h => absurd h.1.1 hdefaults⟩

/-- The parameter for positional arguments left, if there is one, needs a name behind the named parameters. -/
theorem varPositional_eq_ok_iff {parameters : List Parameter}
    (hnames : code.positionalCount + code.keywordOnlyCount ≤ code.names.length) :
    (if code.hasVarPositional then code.variadic .varPositional (code.positionalCount + code.keywordOnlyCount)
      else pure []) = .ok parameters ↔
    code.positionalCount + code.keywordOnlyCount + code.varPositionalCount ≤ code.names.length ∧
      parameters = code.declare .varPositional
        ((code.namesAt (code.positionalCount + code.keywordOnlyCount) code.varPositionalCount).map (·, none)) := by
  rw [← toNat_hasVarPositional]
  cases code.hasVarPositional with
  | false => exact ⟨fun h => ⟨hnames, (Except.ok.inj h).symm⟩, fun h => congrArg Except.ok h.2.symm⟩
  | true => exact variadic_eq_ok_iff

/-- The one for named arguments left, if there is one, needs a name behind that, at an index that is a count. -/
theorem varKeyword_eq_ok_iff {parameters : List Parameter}
    (hcount : code.positionalCount + code.keywordOnlyCount < countLimit)
    (hnames : code.positionalCount + code.keywordOnlyCount + code.varPositionalCount ≤ code.names.length) :
    (if code.hasVarKeyword then code.varKeywordIndex >>= code.variadic .varKeyword else pure []) = .ok parameters ↔
    code.parameterCount ≤ countLimit ∧ code.parameterCount ≤ code.names.length ∧
      parameters = code.declare .varKeyword
        ((code.namesAt (code.positionalCount + code.keywordOnlyCount + code.varPositionalCount)
          code.varKeywordCount).map (·, none)) := by
  have hone : code.varPositionalCount ≤ 1 := Bool.toNat_le _
  rw [parameterCount, ← toNat_hasVarKeyword]
  cases code.hasVarKeyword with
  | false =>
    refine ⟨fun h => ⟨?_, hnames, (Except.ok.inj h).symm⟩, fun h => congrArg Except.ok h.2.2.symm⟩
    rw [Bool.toNat_false]
    omega
  | true =>
    rw [if_pos rfl, bind_eq_ok]
    simp only [varKeywordIndex_eq_ok_iff, variadic_eq_ok_iff]
    constructor
    · rintro ⟨_, ⟨-, hindex, rfl⟩, h⟩
      exact ⟨hindex, h⟩
    · rintro ⟨hindex, h⟩
      exact ⟨_, ⟨hcount, hindex, rfl⟩, h⟩

theorem assemble_eq (code : CodeMetadata) :
    code.assemble =
      (if code.hasVarPositional then code.variadic .varPositional (code.positionalCount + code.keywordOnlyCount)
        else pure []) >>= fun varPositional =>
      (if code.hasVarKeyword then code.varKeywordIndex >>= code.variadic .varKeyword else pure []) >>= fun varKeyword =>
      ParameterList.ofList (code.positionalParameters (code.positionalCount - code.defaults.length) ++ varPositional ++
        code.keywordOnlyParameters ++ varKeyword) := by
  unfold assemble
  cases code.hasVarPositional <;> cases code.hasVarKeyword <;> simp

theorem assemble_eq_ok_iff {list : ParameterList} (hcount : code.positionalCount + code.keywordOnlyCount < countLimit)
    (hdefaults : code.defaults.length ≤ code.positionalCount)
    (hnames : code.positionalCount + code.keywordOnlyCount ≤ code.names.length) :
    code.assemble = .ok list ↔
      code.parameterCount ≤ countLimit ∧ code.parameterCount ≤ code.names.length ∧ list.toList = code.signature := by
  have hsignature : code.signature = code.positionalParameters (code.positionalCount - code.defaults.length) ++
      code.declare .varPositional
        ((code.namesAt (code.positionalCount + code.keywordOnlyCount) code.varPositionalCount).map (·, none)) ++
      code.keywordOnlyParameters ++
      code.declare .varKeyword
        ((code.namesAt (code.positionalCount + code.keywordOnlyCount + code.varPositionalCount)
          code.varKeywordCount).map (·, none)) := by
    rw [positionalParameters_eq hdefaults (by omega), keywordOnlyParameters_eq]
    simp only [signature, blocks, List.flatten_cons, List.flatten_nil, List.append_nil, List.append_assoc]
  rw [assemble_eq]
  simp only [bind_eq_ok, varPositional_eq_ok_iff hnames, ParameterList.ofList_eq_ok_iff]
  constructor
  · rintro ⟨_, ⟨hpositional, rfl⟩, _, hkeyword, hlist⟩
    obtain ⟨hlimit, hlength, rfl⟩ := (varKeyword_eq_ok_iff hcount hpositional).mp hkeyword
    exact ⟨hlimit, hlength, hlist.trans hsignature.symm⟩
  · rintro ⟨hlimit, hlength, hlist⟩
    have hpositional : code.positionalCount + code.keywordOnlyCount + code.varPositionalCount ≤ code.names.length :=
      Nat.le_trans (Nat.le_add_right _ _) hlength
    exact ⟨_, ⟨hpositional, rfl⟩, _, (varKeyword_eq_ok_iff hcount hpositional).mpr ⟨hlimit, hlength, rfl⟩,
      hlist.trans hsignature⟩

/-- **Classification gives the signature of well-formed metadata, and nothing else.** The index of the last name must be
a count as well. -/
theorem classify_eq_ok_iff {list : ParameterList} :
    code.classify = .ok list ↔
      code.WellFormed ∧ code.parameterCount ≤ countLimit ∧ list.toList = code.signature := by
  rw [classify_eq_ok_iff_assemble, strayDefault?_eq_none_iff]
  constructor
  · rintro ⟨⟨hdefaults, hcount, hnames, hkeys⟩, hlist⟩
    obtain ⟨hlimit, hlength, hlist⟩ := (assemble_eq_ok_iff hcount hdefaults hnames).mp hlist
    have hdistinct := (wellOrdered_signature_iff hdefaults).mp (hlist ▸ list.wellOrdered)
    exact ⟨⟨hdefaults, hcount, hlength, hkeys, hdistinct⟩, hlimit, hlist⟩
  · rintro ⟨⟨hdefaults, hcount, hlength, hkeys, -⟩, hlimit, hlist⟩
    have hnames : code.positionalCount + code.keywordOnlyCount ≤ code.names.length := by
      unfold parameterCount at hlength
      omega
    exact ⟨⟨hdefaults, hcount, hnames, hkeys⟩,
      (assemble_eq_ok_iff hcount hdefaults hnames).mpr ⟨hlimit, hlength, hlist⟩⟩

theorem classify_of_wellFormed (h : code.WellFormed) (hlimit : code.parameterCount ≤ countLimit) :
    ∃ list, code.classify = .ok list := by
  have hordered := (wellOrdered_signature_iff h.defaults_le).mpr h.distinct
  exact ⟨⟨code.signature, hordered⟩, classify_eq_ok_iff.mpr ⟨h, hlimit, rfl⟩⟩

/-! ## 3. What does not matter -/

/-- **Metadata that declare the same parameters**: names behind those of parameters, hints of other names and other bits
of the flags may differ. -/
structure Agrees (code other : CodeMetadata) : Prop where
  positionalCount_eq : other.positionalCount = code.positionalCount
  keywordOnlyCount_eq : other.keywordOnlyCount = code.keywordOnlyCount
  defaults_eq : other.defaults = code.defaults
  keywordDefaults_eq : ∀ name, other.keywordDefaults.get? name = code.keywordDefaults.get? name
  varPositional_eq : other.flags.toNat.testBit 2 = code.flags.toNat.testBit 2
  varKeyword_eq : other.flags.toNat.testBit 3 = code.flags.toNat.testBit 3
  names_eq : other.names.take code.parameterCount = code.names.take code.parameterCount
  hints_eq : ∀ name ∈ code.names.take code.parameterCount, other.hints.get? name = code.hints.get? name

variable {other : CodeMetadata}

theorem namesAt_eq_drop_take {start count total : Nat} (h : start + count ≤ total) :
    code.namesAt start count = ((code.names.take total).drop start).take count := by
  rw [namesAt, List.drop_take, List.take_take, Nat.min_eq_left (by omega)]

theorem mem_take_of_mem_namesAt {start count total : Nat} (h : start + count ≤ total) {name : String}
    (hname : name ∈ code.namesAt start count) : name ∈ code.names.take total := by
  rw [namesAt_eq_drop_take h] at hname
  exact List.mem_of_mem_drop (List.mem_of_mem_take hname)

theorem Agrees.namesAt_eq (h : code.Agrees other) {start count : Nat} (hplaces : start + count ≤ code.parameterCount) :
    other.namesAt start count = code.namesAt start count := by
  rw [namesAt_eq_drop_take hplaces, namesAt_eq_drop_take hplaces, h.names_eq]

theorem Agrees.parameterCount_eq (h : code.Agrees other) : other.parameterCount = code.parameterCount := by
  rw [parameterCount, parameterCount, varPositionalCount, varKeywordCount, h.positionalCount_eq, h.keywordOnlyCount_eq,
    h.varPositional_eq, h.varKeyword_eq]
  rfl

theorem Agrees.declare_eq (h : code.Agrees other) (kind : Parameter.Kind) {block : List (String × Option Constant)}
    (hnames : ∀ pair ∈ block, pair.1 ∈ code.names.take code.parameterCount) :
    other.declare kind block = code.declare kind block := by
  refine List.map_congr_left fun ⟨name, default⟩ hpair => ?_
  have hhint := h.hints_eq name (hnames (name, default) hpair)
  simp only [hhint]

theorem Agrees.signature_eq (h : code.Agrees other) (hdefaults : code.defaults.length ≤ code.positionalCount) :
    other.signature = code.signature := by
  have hpositional : other.varPositionalCount = code.varPositionalCount := congrArg Bool.toNat h.varPositional_eq
  have hkeyword : other.varKeywordCount = code.varKeywordCount := congrArg Bool.toNat h.varKeyword_eq
  have htotal : code.parameterCount =
      code.positionalCount + code.keywordOnlyCount + code.varPositionalCount + code.varKeywordCount := rfl
  -- a block whose names stand among the first ones is declared alike
  have hblock : ∀ kind start count (default : String → Option Constant), start + count ≤ code.parameterCount →
      other.declare kind ((other.namesAt start count).map fun name => (name, default name)) =
        code.declare kind ((code.namesAt start count).map fun name => (name, default name)) := by
    intro kind start count default hplaces
    rw [h.namesAt_eq hplaces]
    refine h.declare_eq kind fun pair hpair => ?_
    obtain ⟨name, hname, rfl⟩ := List.mem_map.mp hpair
    exact mem_take_of_mem_namesAt hplaces hname
  have hzip : ∀ kind start count (defaults : List (Option Constant)), start + count ≤ code.parameterCount →
      other.declare kind ((other.namesAt start count).zip defaults) =
        code.declare kind ((code.namesAt start count).zip defaults) := by
    intro kind start count defaults hplaces
    rw [h.namesAt_eq hplaces]
    exact h.declare_eq kind fun pair hpair => mem_take_of_mem_namesAt hplaces (List.of_mem_zip hpair).1
  simp only [signature, blocks, h.positionalCount_eq, h.keywordOnlyCount_eq, h.defaults_eq, h.keywordDefaults_eq,
    hpositional, hkeyword]
  rw [hblock _ _ _ _ (by omega), hzip _ _ _ _ (by omega), hblock _ _ _ _ (by omega), hblock _ _ _ _ (by omega),
    hblock _ _ _ _ (by omega)]

theorem Agrees.wellFormed (h : code.Agrees other) (hcode : code.WellFormed) : other.WellFormed := by
  have hcount := h.parameterCount_eq
  have hkeywordOnly : code.positionalCount + code.keywordOnlyCount ≤ code.parameterCount := by
    unfold parameterCount
    omega
  refine ⟨?_, ?_, ?_, fun name hname => ?_, ?_⟩
  · rw [h.defaults_eq, h.positionalCount_eq]
    exact hcode.defaults_le
  · rw [h.positionalCount_eq, h.keywordOnlyCount_eq]
    exact hcode.count_lt
  · -- as many names as parameters are there, since the first ones are the same
    have hlength := congrArg List.length h.names_eq
    rw [List.length_take, List.length_take, Nat.min_eq_left hcode.names_le] at hlength
    omega
  · rw [h.keywordDefaults_eq] at hname
    rw [h.positionalCount_eq, h.keywordOnlyCount_eq, h.namesAt_eq hkeywordOnly]
    exact hcode.keys name hname
  · rw [hcount, h.names_eq]
    exact hcode.distinct

/-- **Classification is exact.** A list in memory has fewer names than there are counts. It succeeds on well-formed
metadata and fails on all others; the list is the signature; and whatever declares the same parameters gives the same
list. -/
theorem classify_exact (code : CodeMetadata) (hmemory : code.names.length < countLimit) :
    ((∃ list, code.classify = .ok list) ↔ code.WellFormed) ∧
    ((∃ fault, code.classify = .error fault) ↔ ¬code.WellFormed) ∧
    (∀ list, code.classify = .ok list → list.toList = code.signature) ∧
    ∀ list other, code.classify = .ok list → code.Agrees other → other.classify = .ok list := by
  have hok : (∃ list, code.classify = .ok list) ↔ code.WellFormed := by
    refine ⟨fun ⟨list, hlist⟩ => (classify_eq_ok_iff.mp hlist).1, fun h => classify_of_wellFormed h ?_⟩
    exact Nat.le_of_lt (Nat.lt_of_le_of_lt h.names_le hmemory)
  refine ⟨hok, ?_, fun list hlist => (classify_eq_ok_iff.mp hlist).2.2, fun list other hlist hagrees => ?_⟩
  · rw [← hok]
    cases code.classify with
    | ok list => exact ⟨nofun, fun h => absurd ⟨list, rfl⟩ h⟩
    | error fault => exact ⟨fun _ => nofun, fun _ => ⟨fault, rfl⟩⟩
  · obtain ⟨hcode, hlimit, hsignature⟩ := classify_eq_ok_iff.mp hlist
    refine classify_eq_ok_iff.mpr ⟨hagrees.wellFormed hcode, ?_, ?_⟩
    · rw [hagrees.parameterCount_eq]
      exact hlimit
    · rw [hagrees.signature_eq hcode.defaults_le]
      exact hsignature

/-- A callable with parameters of every kind. A further local, the hint of the return value and a bit of the flags have
no part in it. -/
def mixedMetadata : CodeMetadata where
  positionalCount := 2
  keywordOnlyCount := 2
  names := ["a", "b", "c", "d", "args", "kw", "local"]
  flags := 0x4C
  hints := ⟨[("b", .named "int"), ("return", .noValue)]⟩
  defaults := [.int 1]
  keywordDefaults := ⟨[("d", .none)]⟩

theorem classify_exact_mixedMetadata :
    mixedMetadata.names.length < countLimit ∧
    ∃ list, mixedMetadata.classify = .ok list ∧
      list.toList =
        [{ name := "a", kind := .positionalOrKeyword },
          { name := "b", kind := .positionalOrKeyword, hint := some (.named "int"), default := some (.int 1) },
          { name := "args", kind := .varPositional },
          { name := "c", kind := .keywordOnly },
          { name := "d", kind := .keywordOnly, default := some .none },
          { name := "kw", kind := .varKeyword }] ∧
      CodeMetadata.classify { mixedMetadata with
        names := ["a", "b", "c", "d", "args", "kw"], flags := 0x0C, hints := ⟨[("b", .named "int")]⟩ } = .ok list := by
  have hmemory : mixedMetadata.names.length < countLimit := by decide
  obtain ⟨hok, -, hsignature, hagrees⟩ := classify_exact mixedMetadata hmemory
  have hwellFormed : mixedMetadata.WellFormed := by
    refine ⟨by decide, by decide, by decide, fun name hname => ?_, by decide⟩
    obtain ⟨entry, hentry, heq⟩ := List.lookup_isSome_iff.mp hname
    obtain rfl := List.mem_singleton.mp hentry
    rw [beq_iff_eq.mp heq]
    decide
  obtain ⟨list, hlist⟩ := hok.mpr hwellFormed
  refine ⟨hmemory, list, hlist, (hsignature list hlist).trans (by decide), hagrees list _ hlist ?_⟩
  refine ⟨rfl, rfl, rfl, fun _ => rfl, rfl, rfl, rfl, ?_⟩
  decide

end CodeMetadata

end MethodLowering
