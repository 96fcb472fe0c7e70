import MethodLowering.Proofs.BindingTables
import MethodLowering.Proofs.ParameterGrammar

/-!
# Metadata that describe a list

Introspection gives the names of all parameters in one row, the variadic ones behind the keyword-only ones, and keeps
defaults and hints in tables beside it. In a list of parameters each stands where it is declared. This file says which
metadata describe a list, and that classification finds the list again.

* `ParameterList.ofKind`, `ParameterList.rowNames` -- the parameters of a kind, and the row of names;
* `CodeMetadata.Describes` -- metadata that describe a list, whatever else they hold;
* `ParameterList.metadata` -- metadata that hold nothing else;
* `CodeMetadata.Describes.signature_eq` -- what metadata declare is the list they describe;
* `CodeMetadata.classify_describes` -- **classification gives back the list that metadata describe.**
-/

namespace MethodLowering

/-! ## 1. Metadata of a list -/

namespace ParameterList

/-- The parameters of a kind, in order. -/
def ofKind (list : ParameterList) (kind : Parameter.Kind) : List Parameter :=
  list.toList.filter (·.kind == kind)

/-- **The names in the order of introspection**: positional, keyword-only, and behind these the variadic ones. -/
def rowNames (list : ParameterList) : List String :=
  (list.ofKind .positionalOrKeyword ++ list.ofKind .keywordOnly ++ list.ofKind .varPositional ++
    list.ofKind .varKeyword).map (·.name)

end ParameterList

/-- **Metadata that describe a list.** Other names may stand behind those of the parameters, other names may have hints,
and of the flags only the two bits for variadic parameters are bound. -/
structure CodeMetadata.Describes (code : CodeMetadata) (list : ParameterList) : Prop where
  positionalCount_eq : code.positionalCount = (list.ofKind .positionalOrKeyword).length
  keywordOnlyCount_eq : code.keywordOnlyCount = (list.ofKind .keywordOnly).length
  names_eq : ∃ locals, code.names = list.rowNames ++ locals
  varPositional_eq : code.flags.toNat.testBit 2 = list.varPositional?.isSome
  varKeyword_eq : code.flags.toNat.testBit 3 = list.varKeyword?.isSome
  defaults_eq : code.defaults = (list.ofKind .positionalOrKeyword).filterMap (·.default)
  keywordDefaults_iff : ∀ name value, code.keywordDefaults.get? name = some value ↔
    ∃ parameter ∈ list.ofKind .keywordOnly, parameter.name = name ∧ parameter.default = some value
  hints_eq : ∀ parameter ∈ list.toList, code.hints.get? parameter.name = parameter.hint

/-- What parameters have, by their names. -/
def Parameter.table {α : Type} (value : Parameter → Option α) (parameters : List Parameter) : Bindings α :=
  .present (parameters.map fun parameter => (parameter.name, value parameter))

/-- The flags that say which variadic parameters there are, and nothing else. -/
def CodeMetadata.variadicFlags (varPositional varKeyword : Bool) : UInt32 :=
  (if varPositional then 4 else 0) ||| (if varKeyword then 8 else 0)

/-- The metadata of a list, and nothing else. -/
def ParameterList.metadata (list : ParameterList) : CodeMetadata where
  positionalCount := (list.ofKind .positionalOrKeyword).length
  keywordOnlyCount := (list.ofKind .keywordOnly).length
  names := list.rowNames
  flags := CodeMetadata.variadicFlags list.varPositional?.isSome list.varKeyword?.isSome
  hints := Parameter.table (·.hint) list.toList
  defaults := (list.ofKind .positionalOrKeyword).filterMap (·.default)
  keywordDefaults := Parameter.table (·.default) (list.ofKind .keywordOnly)

/-! ## 2. Parameters by kind -/

/-- All parameters of one kind are of that kind, and none of any other. -/
theorem Parameter.filter_kind {block : List Parameter} {kind : Kind} (h : ∀ parameter ∈ block, parameter.kind = kind)
    (other : Kind) : block.filter (·.kind == other) = if kind = other then block else [] := by
  split
  · rename_i heq
    refine List.filter_eq_self.mpr fun parameter hmem => ?_
    rw [h parameter hmem, heq]
    exact beq_self_eq_true other
  · rename_i hne
    refine List.filter_eq_nil_iff.mpr fun parameter hmem => ?_
    rw [h parameter hmem, beq_iff_eq]
    exact hne

namespace Declaration

variable (declaration : Declaration)

/-- The parameters of a kind in a declaration: a block, or for positional ones two. -/
def ofKind : Parameter.Kind → List Parameter
  | .positionalOrKeyword => declaration.plain ++ declaration.defaulted
  | .varPositional => declaration.varPositional.toList
  | .keywordOnly => declaration.keywordOnly
  | .varKeyword => declaration.varKeyword.toList

/-- **The kinds of a declared list are the blocks of its declaration.** -/
theorem filter_parameters (kind : Parameter.Kind) :
    declaration.parameters.filter (·.kind == kind) = declaration.ofKind kind := by
  have hplain := Parameter.filter_kind (fun parameter hmem => (declaration.of_plain parameter hmem).1) kind
  have hdefaulted := Parameter.filter_kind (fun parameter hmem => (declaration.of_defaulted parameter hmem).1) kind
  have hvarPositional := Parameter.filter_kind
    (fun parameter hmem => (declaration.of_varPositional parameter (Option.mem_toList.mp hmem)).1) kind
  have hkeywordOnly := Parameter.filter_kind declaration.of_keywordOnly kind
  have hvarKeyword := Parameter.filter_kind
    (fun parameter hmem => (declaration.of_varKeyword parameter (Option.mem_toList.mp hmem)).1) kind
  simp only [parameters, List.filter_append, hplain, hdefaulted, hvarPositional, hkeywordOnly, hvarKeyword]
  cases kind <;> simp [ofKind]

end Declaration

namespace ParameterList

/-- The declaration of a list. -/
def declaration (list : ParameterList) : Declaration :=
  Parameter.declarationOf list.toList list.wellOrdered

theorem parameters_declaration (list : ParameterList) : list.declaration.parameters = list.toList :=
  Parameter.parameters_declarationOf list.wellOrdered

theorem ofKind_eq (list : ParameterList) (kind : Parameter.Kind) : list.ofKind kind = list.declaration.ofKind kind := by
  rw [ofKind, ← list.parameters_declaration, Declaration.filter_parameters]

theorem varPositional?_eq (list : ParameterList) : list.varPositional? = list.declaration.varPositional := by
  have hhead : list.varPositional? = (list.ofKind .varPositional).head? := List.head?_filter.symm
  rw [hhead, ofKind_eq]
  exact Option.head?_toList

theorem varKeyword?_eq (list : ParameterList) : list.varKeyword? = list.declaration.varKeyword := by
  have hhead : list.varKeyword? = (list.ofKind .varKeyword).head? := List.head?_filter.symm
  rw [hhead, ofKind_eq]
  exact Option.head?_toList

/-- A parameter of a list is the one with its name. -/
theorem eq_of_name_eq (list : ParameterList) {first second : Parameter} (hfirst : first ∈ list.toList)
    (hsecond : second ∈ list.toList) (hname : first.name = second.name) : first = second := by
  have hnodup : (list.toList.map (·.name)).Nodup := List.pairwise_map.mpr list.wellOrdered.distinct
  exact List.inj_on_of_nodup_map hnodup hfirst hsecond hname

end ParameterList

/-- A table gives each name what the parameter of that name has. -/
theorem Parameter.get?_table_eq_some_iff {α : Type} {value : Parameter → Option α} {parameters : List Parameter}
    (hdistinct : parameters.Pairwise fun first second => first.name ≠ second.name) {name : String} {item : α} :
    (table value parameters).get? name = some item ↔
      ∃ parameter ∈ parameters, parameter.name = name ∧ value parameter = some item := by
  have hnodup : ((parameters.map fun parameter => (parameter.name, value parameter)).map Prod.fst).Nodup := by
    rw [List.map_map]
    exact List.pairwise_map.mpr hdistinct
  rw [table, Bindings.get?_present_eq_some_iff hnodup, List.mem_map]
  simp only [Prod.mk.injEq]

theorem CodeMetadata.testBit_variadicFlags :
    ∀ varPositional varKeyword, (variadicFlags varPositional varKeyword).toNat.testBit 2 = varPositional ∧
      (variadicFlags varPositional varKeyword).toNat.testBit 3 = varKeyword := by
  decide

/-- **Every list has metadata that describe it.** -/
theorem ParameterList.describes_metadata (list : ParameterList) : list.metadata.Describes list where
  positionalCount_eq := rfl
  keywordOnlyCount_eq := rfl
  names_eq := ⟨[], (List.append_nil _).symm⟩
  varPositional_eq := (CodeMetadata.testBit_variadicFlags _ _).1
  varKeyword_eq := (CodeMetadata.testBit_variadicFlags _ _).2
  defaults_eq := rfl
  keywordDefaults_iff _ _ := Parameter.get?_table_eq_some_iff (list.wellOrdered.distinct.filter _)
  hints_eq parameter hmem := by
    refine Option.ext fun hint => ?_
    rw [metadata, Parameter.get?_table_eq_some_iff list.wellOrdered.distinct]
    constructor
    · intro ⟨other, hother, hname, hhint⟩
      rw [list.eq_of_name_eq hmem hother hname.symm]
      exact hhint
    · intro hhint
      exact ⟨parameter, hmem, rfl, hhint⟩

/-! ## 3. What metadata declare -/

/-- Parameters with defaults have them in a table of defaults, one by one. -/
theorem Parameter.map_some_defaults {block : List Parameter} (h : ∀ parameter ∈ block, parameter.hasDefault) :
    (block.filterMap (·.default)).map some = block.map (·.default) := by
  induction block with
  | nil => rfl
  | cons first rest ih =>
    obtain ⟨value, hvalue⟩ := Option.isSome_iff_exists.mp (h first List.mem_cons_self)
    have hrest := ih fun parameter hmem => h parameter (List.mem_cons_of_mem _ hmem)
    simp only [List.filterMap_cons, hvalue, List.map_cons, hrest]

/-- Parameters without defaults leave no trace there. -/
theorem Parameter.filterMap_default_eq_nil {block : List Parameter} (h : ∀ parameter ∈ block, ¬parameter.hasDefault) :
    block.filterMap (·.default) = [] := by
  refine List.filterMap_eq_nil_iff.mpr fun parameter hmem => ?_
  simpa [hasDefault] using h parameter hmem

namespace CodeMetadata

variable {code : CodeMetadata} {list : ParameterList}

/-- Names of parameters stand behind those of the parameters in front. -/
theorem namesAt_of_names_eq {before block : List Parameter} {behind : List String}
    (hnames : code.names = before.map (·.name) ++ (block.map (·.name) ++ behind)) :
    code.namesAt before.length block.length = block.map (·.name) := by
  have hdrop : code.names.drop before.length = block.map (·.name) ++ behind := by
    rw [hnames, List.drop_left' (List.length_map _)]
  rw [namesAt, hdrop, List.take_left' (List.length_map _)]

/-- Parameters of a kind are declared again from their names and defaults, where the hints are theirs. -/
theorem declare_eq_self {kind : Parameter.Kind} {block : List Parameter}
    (hkind : ∀ parameter ∈ block, parameter.kind = kind)
    (hhint : ∀ parameter ∈ block, code.hints.get? parameter.name = parameter.hint) :
    code.declare kind (block.map fun parameter => (parameter.name, parameter.default)) = block := by
  have hself : ∀ parameter ∈ block,
      { name := parameter.name, kind, hint := code.hints.get? parameter.name, default := parameter.default } =
        parameter := by
    intro parameter hmem
    rw [hhint parameter hmem, ← hkind parameter hmem]
  rw [declare, List.map_map]
  exact (List.map_congr_left hself).trans block.map_id

/-- The same from a row of names, where each name leads to the default. -/
theorem declare_names {kind : Parameter.Kind} {block : List Parameter}
    (hkind : ∀ parameter ∈ block, parameter.kind = kind)
    (hhint : ∀ parameter ∈ block, code.hints.get? parameter.name = parameter.hint) (default : String → Option Constant)
    (hdefault : ∀ parameter ∈ block, default parameter.name = parameter.default) :
    code.declare kind ((block.map (·.name)).map fun name => (name, default name)) = block := by
  have hpairs : (block.map (·.name)).map (fun name => (name, default name)) =
      block.map fun parameter => (parameter.name, parameter.default) := by
    rw [List.map_map]
    exact List.map_congr_left fun parameter hmem => congrArg (Prod.mk parameter.name) (hdefault parameter hmem)
  rw [hpairs, declare_eq_self hkind hhint]

namespace Describes

variable (h : code.Describes list)
include h

/-- The row of names, block by block. -/
theorem names_blocks : ∃ locals, code.names = list.declaration.plain.map (·.name) ++
    (list.declaration.defaulted.map (·.name) ++ (list.declaration.keywordOnly.map (·.name) ++
      (list.declaration.varPositional.toList.map (·.name) ++
        (list.declaration.varKeyword.toList.map (·.name) ++ locals)))) := by
  obtain ⟨locals, hlocals⟩ := h.names_eq
  refine ⟨locals, ?_⟩
  simp only [hlocals, ParameterList.rowNames, ParameterList.ofKind_eq, Declaration.ofKind, List.map_append,
    List.append_assoc]

theorem positionalCount_blocks :
    code.positionalCount = list.declaration.plain.length + list.declaration.defaulted.length := by
  rw [h.positionalCount_eq, ParameterList.ofKind_eq, Declaration.ofKind, List.length_append]

theorem keywordOnlyCount_block : code.keywordOnlyCount = list.declaration.keywordOnly.length := by
  rw [h.keywordOnlyCount_eq, ParameterList.ofKind_eq]
  rfl

theorem varPositionalCount_block : code.varPositionalCount = list.declaration.varPositional.toList.length := by
  rw [varPositionalCount, h.varPositional_eq, ParameterList.varPositional?_eq]
  cases list.declaration.varPositional <;> rfl

theorem varKeywordCount_block : code.varKeywordCount = list.declaration.varKeyword.toList.length := by
  rw [varKeywordCount, h.varKeyword_eq, ParameterList.varKeyword?_eq]
  cases list.declaration.varKeyword <;> rfl

/-- The table of defaults is that of the positional parameters that have one. -/
theorem map_some_defaults : code.defaults.map some = list.declaration.defaulted.map (·.default) := by
  have hplain := Parameter.filterMap_default_eq_nil fun parameter hmem =>
    (list.declaration.of_plain parameter hmem).2
  rw [h.defaults_eq, ParameterList.ofKind_eq, Declaration.ofKind, List.filterMap_append, hplain, List.nil_append]
  exact Parameter.map_some_defaults fun parameter hmem => (list.declaration.of_defaulted parameter hmem).2

theorem length_defaults : code.defaults.length = list.declaration.defaulted.length := by
  have hlength := congrArg List.length h.map_some_defaults
  rwa [List.length_map, List.length_map] at hlength

/-- A keyword-only parameter finds its default under its name. -/
theorem keywordDefault_eq {parameter : Parameter} (hmem : parameter ∈ list.declaration.keywordOnly) :
    code.keywordDefaults.get? parameter.name = parameter.default := by
  have hkind : parameter ∈ list.ofKind .keywordOnly := by
    rw [ParameterList.ofKind_eq]
    exact hmem
  have hlist : ∀ other ∈ list.ofKind .keywordOnly, other ∈ list.toList := fun other hother =>
    (List.mem_filter.mp hother).1
  refine Option.ext fun value => ?_
  rw [h.keywordDefaults_iff]
  constructor
  · intro ⟨other, hother, hname, hvalue⟩
    rw [list.eq_of_name_eq (hlist parameter hkind) (hlist other hother) hname.symm]
    exact hvalue
  · intro hvalue
    exact ⟨parameter, hkind, rfl, hvalue⟩

/-- **Each block of names is cut out where it was laid.** -/
theorem namesAt_blocks :
    code.namesAt 0 (code.positionalCount - code.defaults.length) = list.declaration.plain.map (·.name) ∧
    code.namesAt (code.positionalCount - code.defaults.length) code.defaults.length =
      list.declaration.defaulted.map (·.name) ∧
    code.namesAt code.positionalCount code.keywordOnlyCount = list.declaration.keywordOnly.map (·.name) ∧
    code.namesAt (code.positionalCount + code.keywordOnlyCount) code.varPositionalCount =
      list.declaration.varPositional.toList.map (·.name) ∧
    code.namesAt (code.positionalCount + code.keywordOnlyCount + code.varPositionalCount) code.varKeywordCount =
      list.declaration.varKeyword.toList.map (·.name) := by
  obtain ⟨locals, hnames⟩ := h.names_blocks
  have hpositional := h.positionalCount_blocks
  have hdefaults := h.length_defaults
  have hplain : code.positionalCount - code.defaults.length = list.declaration.plain.length := by omega
  rw [hplain, hdefaults, hpositional, h.keywordOnlyCount_block, h.varPositionalCount_block, h.varKeywordCount_block]
  refine ⟨@namesAt_of_names_eq _ [] _ _ hnames, namesAt_of_names_eq hnames, ?_, ?_, ?_⟩
  -- the blocks in front of the last three are several
  · rw [← List.length_append]
    apply namesAt_of_names_eq
    rw [List.map_append, List.append_assoc]
    exact hnames
  · rw [← List.length_append, ← List.length_append]
    apply namesAt_of_names_eq
    rw [List.map_append, List.map_append, List.append_assoc, List.append_assoc]
    exact hnames
  · rw [← List.length_append, ← List.length_append, ← List.length_append]
    apply namesAt_of_names_eq
    rw [List.map_append, List.map_append, List.map_append, List.append_assoc, List.append_assoc, List.append_assoc]
    exact hnames

/-- **What metadata declare is the list they describe**: the tables give each name its own default and hint. -/
theorem signature_eq : code.signature = list.toList := by
  obtain ⟨hplain, hdefaulted, hkeywordOnly, hvarPositional, hvarKeyword⟩ := h.namesAt_blocks
  have hhints : ∀ parameter ∈ list.declaration.parameters, code.hints.get? parameter.name = parameter.hint := by
    rw [list.parameters_declaration]
    exact h.hints_eq
  simp only [Declaration.parameters, List.mem_append, or_imp, forall_and] at hhints
  obtain ⟨⟨⟨⟨hplainHint, hdefaultedHint⟩, hvarPositionalHint⟩, hkeywordOnlyHint⟩, hvarKeywordHint⟩ := hhints
  have hnone : ∀ parameter : Parameter, ¬parameter.hasDefault → none = parameter.default := fun parameter hdefault =>
    (Option.not_isSome_iff_eq_none.mp hdefault).symm
  rw [← list.parameters_declaration]
  simp only [signature, blocks, List.flatten_cons, List.flatten_nil, List.append_nil, hplain, hdefaulted, hkeywordOnly,
    hvarPositional, hvarKeyword, h.map_some_defaults, List.zip_map', Declaration.parameters, List.append_assoc]
  rw [declare_eq_self (fun parameter hmem => (list.declaration.of_defaulted parameter hmem).1) hdefaultedHint,
    declare_names (fun parameter hmem => (list.declaration.of_plain parameter hmem).1) hplainHint (fun _ => none)
      fun parameter hmem => hnone parameter (list.declaration.of_plain parameter hmem).2,
    declare_names list.declaration.of_keywordOnly hkeywordOnlyHint code.keywordDefaults.get? fun parameter hmem =>
      h.keywordDefault_eq hmem,
    declare_names (fun parameter hmem => (list.declaration.of_varPositional parameter (Option.mem_toList.mp hmem)).1)
      hvarPositionalHint (fun _ => none) fun parameter hmem =>
        hnone parameter (list.declaration.of_varPositional parameter (Option.mem_toList.mp hmem)).2,
    declare_names (fun parameter hmem => (list.declaration.of_varKeyword parameter (Option.mem_toList.mp hmem)).1)
      hvarKeywordHint (fun _ => none) fun parameter hmem =>
        hnone parameter (list.declaration.of_varKeyword parameter (Option.mem_toList.mp hmem)).2]

/-- There are as many parameters as in the list. -/
theorem parameterCount_eq : code.parameterCount = list.size := by
  have hsize : list.size = list.declaration.parameters.length := by
    rw [list.parameters_declaration]
    rfl
  rw [parameterCount, hsize, h.positionalCount_blocks, h.keywordOnlyCount_block, h.varPositionalCount_block,
    h.varKeywordCount_block]
  simp only [Declaration.parameters, List.length_append]
  omega

/-- Metadata that describe a list in memory are well-formed. -/
theorem wellFormed (hmemory : list.size < countLimit) : code.WellFormed := by
  have hcount := h.parameterCount_eq
  have hdefaults : code.defaults.length ≤ code.positionalCount := by
    rw [h.length_defaults, h.positionalCount_blocks]
    exact Nat.le_add_left _ _
  refine ⟨hdefaults, ?_, ?_, fun name hname => ?_, ?_⟩
  · unfold parameterCount at hcount
    omega
  · obtain ⟨locals, hnames⟩ := h.names_blocks
    rw [parameterCount, h.positionalCount_blocks, h.keywordOnlyCount_block, h.varPositionalCount_block,
      h.varKeywordCount_block, hnames]
    simp only [List.length_append, List.length_map]
    omega
  · obtain ⟨value, hvalue⟩ := Option.isSome_iff_exists.mp hname
    obtain ⟨parameter, hmem, rfl, -⟩ := (h.keywordDefaults_iff name value).mp hvalue
    rw [ParameterList.ofKind_eq] at hmem
    rw [h.namesAt_blocks.2.2.1]
    exact List.mem_map_of_mem hmem
  · have hordered := list.wellOrdered
    rw [← h.signature_eq, wellOrdered_signature_iff hdefaults] at hordered
    exact hordered

end Describes

/-- **Classification inverts the layout of introspection.** Every list in memory has metadata that describe it, and
classification gives it back from all that do. -/
theorem classify_describes (list : ParameterList) (hmemory : list.size < countLimit) :
    list.metadata.Describes list ∧ ∀ code : CodeMetadata, code.Describes list → code.classify = .ok list := by
  refine ⟨list.describes_metadata, fun code h => classify_eq_ok_iff.mpr ⟨h.wellFormed hmemory, ?_, ?_⟩⟩
  · rw [h.parameterCount_eq]
    exact Nat.le_of_lt hmemory
  · exact h.signature_eq.symm

/-- Parameters of every block, with two keyword-only ones and one default that stands for no value. -/
def blendParameters : List Parameter :=
  [{ name := "a", kind := .positionalOrKeyword },
    { name := "b", kind := .positionalOrKeyword, hint := some (.named "int"), default := some (.int 1) },
    { name := "rest", kind := .varPositional, hint := some .noValue },
    { name := "c", kind := .keywordOnly, default := some .none },
    { name := "d", kind := .keywordOnly },
    { name := "more", kind := .varKeyword }]

theorem wellOrdered_blendParameters : Parameter.WellOrdered blendParameters := by
  refine ⟨by decide, ?_, by decide⟩
  unfold Parameter.Precedes
  decide

/-- Metadata of these, with a further local that has the name of a parameter, other bits and other hints. -/
def blendMetadata : CodeMetadata where
  positionalCount := 2
  keywordOnlyCount := 2
  names := ["a", "b", "c", "d", "rest", "more", "a"]
  flags := 0x4D
  hints := ⟨[("return", .noValue), ("rest", .noValue), ("b", .named "int"), ("local", .argv)]⟩
  defaults := [.int 1]
  keywordDefaults := ⟨[("c", .none)]⟩

theorem classify_describes_blendMetadata :
    ParameterList.size ⟨blendParameters, wellOrdered_blendParameters⟩ < countLimit ∧
    blendMetadata.Describes ⟨blendParameters, wellOrdered_blendParameters⟩ ∧
    blendMetadata.classify = .ok ⟨blendParameters, wellOrdered_blendParameters⟩ := by
  have hmemory : ParameterList.size ⟨blendParameters, wellOrdered_blendParameters⟩ < countLimit := by decide
  have hkeywords : blendMetadata.keywordDefaults =
      Parameter.table (·.default) (blendParameters.filter (·.kind == .keywordOnly)) := by decide
  have hdescribes : blendMetadata.Describes ⟨blendParameters, wellOrdered_blendParameters⟩ := by
    refine ⟨by decide, by decide, ⟨["a"], by decide⟩, by decide, by decide, by decide, fun name value => ?_, by decide⟩
    rw [hkeywords]
    exact Parameter.get?_table_eq_some_iff (wellOrdered_blendParameters.distinct.filter _)
  exact ⟨hmemory, hdescribes, (classify_describes _ hmemory).2 _ hdescribes⟩

end CodeMetadata

end MethodLowering
