import MethodLowering.Callable.Basic
import MethodLowering.Proofs.Classification

/-!
# The grammar of parameter lists

A list of parameters is declared block by block. The check of a list goes through it once, with the names it has met and
the rank of the last parameter. This file shows that it accepts the declared lists and no others, and that every list
that can be obtained is one of them, whether it was checked or not.

* `Declaration` -- the five blocks of a declaration, and `Parameter.Grammatical`, the lists that are declared so;
* `Parameter.filter_rank_le`, `Parameter.grammatical_iff` -- a list in order falls into its blocks, so it is declared;
* `foldlM_error` -- a fault is that of the shortest beginning that has one;
* `ParameterList.Obtainable`, `Callable.Obtainable` -- the lists and callables that the operations give;
* `ParameterList.grammar_exact` -- **the check accepts the declared lists, and all obtainable lists are declared.**
-/

namespace MethodLowering

/-! ## 1. Declarations -/

/-- **A declaration of parameters**: positional ones without and then with default, at most one for the positional
arguments left, keyword-only ones, at most one for the named arguments left. -/
structure Declaration where
  plain : List Parameter
  defaulted : List Parameter
  varPositional : Option Parameter
  keywordOnly : List Parameter
  varKeyword : Option Parameter
  of_plain : ∀ parameter ∈ plain, parameter.kind = .positionalOrKeyword ∧ ¬parameter.hasDefault
  of_defaulted : ∀ parameter ∈ defaulted, parameter.kind = .positionalOrKeyword ∧ parameter.hasDefault
  of_varPositional : ∀ parameter ∈ varPositional, parameter.kind = .varPositional ∧ ¬parameter.hasDefault
  of_keywordOnly : ∀ parameter ∈ keywordOnly, parameter.kind = .keywordOnly
  of_varKeyword : ∀ parameter ∈ varKeyword, parameter.kind = .varKeyword ∧ ¬parameter.hasDefault

/-- The blocks of a declaration, each at the place of its rank. -/
def Declaration.blocks (declaration : Declaration) : List (List Parameter) :=
  [declaration.plain, declaration.defaulted, declaration.varPositional.toList, declaration.keywordOnly,
    declaration.varKeyword.toList]

/-- The parameters of a declaration, block after block. -/
def Declaration.parameters (declaration : Declaration) : List Parameter :=
  declaration.plain ++ declaration.defaulted ++ declaration.varPositional.toList ++ declaration.keywordOnly ++
    declaration.varKeyword.toList

namespace Parameter

/-- **Whether a list of parameters is declared**: all names differ, and the list is that of a declaration. -/
def Grammatical (parameters : List Parameter) : Prop :=
  (parameters.map (·.name)).Nodup ∧ ∃ declaration : Declaration, declaration.parameters = parameters

/-! ## 2. Declarations and the order of parameters -/

/-- Each rank stands for one block. -/
theorem rank_iff (parameter : Parameter) :
    (parameter.rank = 0 ↔ parameter.kind = .positionalOrKeyword ∧ ¬parameter.hasDefault) ∧
    (parameter.rank = 1 ↔ parameter.kind = .positionalOrKeyword ∧ parameter.hasDefault) ∧
    (parameter.rank = 2 ↔ parameter.kind = .varPositional) ∧
    (parameter.rank = 3 ↔ parameter.kind = .keywordOnly) ∧
    (parameter.rank = 4 ↔ parameter.kind = .varKeyword) ∧ parameter.rank < 5 := by
  obtain ⟨name, kind, hint, default⟩ := parameter
  cases kind <;> cases default <;> simp [rank, hasDefault]

/-- The blocks of a declaration stand at the places of their ranks. -/
theorem ofRank_blocks (declaration : Declaration) {place : Nat} {block : List Parameter}
    (h : declaration.blocks[place]? = some block) : OfRank place block := by
  have halone : ∀ option : Option Parameter, option.toList.length ≤ 1 := by
    intro option
    cases option <;> simp
  rcases place with _ | _ | _ | _ | _ | place
  · cases h
    refine ⟨fun parameter hmem => parameter.rank_iff.1.mpr (declaration.of_plain parameter hmem),
      .inl fun parameter hmem => ?_⟩
    rw [(declaration.of_plain parameter hmem).1]
    exact Bool.false_ne_true
  · cases h
    refine ⟨fun parameter hmem => parameter.rank_iff.2.1.mpr (declaration.of_defaulted parameter hmem),
      .inl fun parameter hmem => ?_⟩
    rw [(declaration.of_defaulted parameter hmem).1]
    exact Bool.false_ne_true
  · cases h
    refine ⟨fun parameter hmem => parameter.rank_iff.2.2.1.mpr ?_, .inr (halone _)⟩
    exact (declaration.of_varPositional parameter (Option.mem_toList.mp hmem)).1
  · cases h
    refine ⟨fun parameter hmem => parameter.rank_iff.2.2.2.1.mpr (declaration.of_keywordOnly parameter hmem),
      .inl fun parameter hmem => ?_⟩
    rw [declaration.of_keywordOnly parameter hmem]
    exact Bool.false_ne_true
  · cases h
    refine ⟨fun parameter hmem => parameter.rank_iff.2.2.2.2.1.mpr ?_, .inr (halone _)⟩
    exact (declaration.of_varKeyword parameter (Option.mem_toList.mp hmem)).1
  · cases h

/-- The variadic parameters of a declaration have no default. -/
theorem plain_parameters (declaration : Declaration) :
    ∀ parameter ∈ declaration.parameters, parameter.kind.isVariadic → ¬parameter.hasDefault := by
  intro parameter hmem hvariadic
  simp only [Declaration.parameters, List.mem_append, Option.mem_toList] at hmem
  rcases hmem with (((hmem | hmem) | hmem) | hmem) | hmem
  · exact (declaration.of_plain parameter hmem).2
  · rw [(declaration.of_defaulted parameter hmem).1] at hvariadic
    cases hvariadic
  · exact (declaration.of_varPositional parameter hmem).2
  · rw [declaration.of_keywordOnly parameter hmem] at hvariadic
    cases hvariadic
  · exact (declaration.of_varKeyword parameter hmem).2

/-- **Behind the parameters of lower rank, a list in order has those of a rank, and then those of higher rank.** -/
theorem filter_rank_le {parameters : List Parameter} (h : parameters.Pairwise Precedes) (rank : Nat) :
    parameters.filter (rank ≤ ·.rank) =
      parameters.filter (·.rank = rank) ++ parameters.filter (rank + 1 ≤ ·.rank) := by
  induction parameters with
  | nil => rfl
  | cons first rest ih =>
    obtain ⟨hfirst, hrest⟩ := List.pairwise_cons.mp h
    have ih := ih hrest
    simp only [List.filter_cons, decide_eq_true_eq]
    rcases Nat.lt_trichotomy first.rank rank with hlt | heq | hgt
    · rw [if_neg (Nat.not_le.mpr hlt), if_neg (Nat.ne_of_lt hlt), if_neg (show ¬rank + 1 ≤ first.rank by omega), ih]
    · rw [if_pos (Nat.le_of_eq heq.symm), if_pos heq, if_neg (show ¬rank + 1 ≤ first.rank by omega), ih,
        List.cons_append]
    · -- no parameter behind this one has the rank
      have hnone : rest.filter (·.rank = rank) = [] := by
        refine List.filter_eq_nil_iff.mpr fun second hsecond => ?_
        have hle := (hfirst second hsecond).1
        simp only [decide_eq_true_eq]
        omega
      have hhigher : rank + 1 ≤ first.rank := hgt
      rw [if_pos (Nat.le_of_lt hgt), if_neg (Nat.ne_of_gt hgt), if_pos hhigher, ih, hnone, List.nil_append,
        List.nil_append]

/-- Of a variadic rank there is at most one parameter. -/
theorem toList_head?_filter {parameters : List Parameter} (h : parameters.Pairwise Precedes) (rank : Nat)
    (hvariadic : ∀ parameter ∈ parameters, parameter.rank = rank → parameter.kind.isVariadic) :
    (parameters.filter (·.rank = rank)).head?.toList = parameters.filter (·.rank = rank) := by
  have hmem : ∀ parameter ∈ parameters.filter (·.rank = rank), parameter ∈ parameters ∧ parameter.rank = rank := by
    intro parameter hparameter
    simpa using hparameter
  cases hfilter : parameters.filter (·.rank = rank) with
  | nil => rfl
  | cons first rest =>
    rw [hfilter] at hmem
    have hordered := h.filter (·.rank = rank)
    rw [hfilter] at hordered
    obtain rfl : rest = [] := by
      refine List.eq_nil_iff_forall_not_mem.mpr fun second hsecond => ?_
      have hfirst := hmem first List.mem_cons_self
      have hother := hmem second (List.mem_cons_of_mem _ hsecond)
      have hlt := ((List.pairwise_cons.mp hordered).1 second hsecond).2 (hvariadic second hother.1 hother.2)
      omega
    rfl

/-- The declaration of a list in order: its parameters rank by rank. -/
def declarationOf (parameters : List Parameter) (h : WellOrdered parameters) : Declaration where
  plain := parameters.filter (·.rank = 0)
  defaulted := parameters.filter (·.rank = 1)
  varPositional := (parameters.filter (·.rank = 2)).head?
  keywordOnly := parameters.filter (·.rank = 3)
  varKeyword := (parameters.filter (·.rank = 4)).head?
  of_plain parameter hmem := parameter.rank_iff.1.mp (of_decide_eq_true (List.mem_filter.mp hmem).2)
  of_defaulted parameter hmem := parameter.rank_iff.2.1.mp (of_decide_eq_true (List.mem_filter.mp hmem).2)
  of_varPositional parameter hmem := by
    obtain ⟨hmember, hrank⟩ := List.mem_filter.mp (List.mem_of_mem_head? hmem)
    have hkind := parameter.rank_iff.2.2.1.mp (of_decide_eq_true hrank)
    exact ⟨hkind, h.plain parameter hmember (by rw [hkind]; rfl)⟩
  of_keywordOnly parameter hmem := parameter.rank_iff.2.2.2.1.mp (of_decide_eq_true (List.mem_filter.mp hmem).2)
  of_varKeyword parameter hmem := by
    obtain ⟨hmember, hrank⟩ := List.mem_filter.mp (List.mem_of_mem_head? hmem)
    have hkind := parameter.rank_iff.2.2.2.2.1.mp (of_decide_eq_true hrank)
    exact ⟨hkind, h.plain parameter hmember (by rw [hkind]; rfl)⟩

theorem parameters_declarationOf {parameters : List Parameter} (h : WellOrdered parameters) :
    (declarationOf parameters h).parameters = parameters := by
  have hall : parameters.filter (0 ≤ ·.rank) = parameters := by simp
  have hnone : parameters.filter (5 ≤ ·.rank) = [] := by
    refine List.filter_eq_nil_iff.mpr fun parameter _ => ?_
    have hlt := parameter.rank_iff.2.2.2.2.2
    simp only [decide_eq_true_eq]
    omega
  have hvarPositional := toList_head?_filter h.ordered 2 fun parameter _ hrank => by
    rw [parameter.rank_iff.2.2.1.mp hrank]
    rfl
  have hvarKeyword := toList_head?_filter h.ordered 4 fun parameter _ hrank => by
    rw [parameter.rank_iff.2.2.2.2.1.mp hrank]
    rfl
  have hblocks := filter_rank_le h.ordered 0
  rw [hall, filter_rank_le h.ordered, filter_rank_le h.ordered, filter_rank_le h.ordered, filter_rank_le h.ordered,
    hnone, List.append_nil] at hblocks
  rw [Declaration.parameters, declarationOf, hvarPositional, hvarKeyword]
  simp only [List.append_assoc]
  exact hblocks.symm

/-- **A list is declared if and only if it is in order.** -/
theorem grammatical_iff {parameters : List Parameter} : Grammatical parameters ↔ WellOrdered parameters := by
  have hnames : (parameters.map (·.name)).Nodup ↔ parameters.Pairwise fun first second => first.name ≠ second.name :=
    List.pairwise_map
  constructor
  · rintro ⟨hnodup, declaration, rfl⟩
    refine ⟨hnames.mp hnodup, ?_, plain_parameters declaration⟩
    have hordered := ordered_blocks 0 fun place block hblock => by
      rw [Nat.zero_add]
      exact ofRank_blocks declaration hblock
    simpa [Declaration.blocks, Declaration.parameters] using hordered
  · intro h
    exact ⟨hnames.mpr h.distinct, declarationOf parameters h, parameters_declarationOf h⟩

end Parameter

/-! ## 3. The check of a list -/

/-- **A fold that fails fails on the shortest beginning on which it does, with the same fault.** -/
theorem foldlM_error {σ α ε : Type} {step : σ → α → Except ε σ} {items : List α} {state : σ} {fault : ε}
    (h : items.foldlM step state = .error fault) :
    ∃ count ≤ items.length, (items.take count).foldlM step state = .error fault ∧
      ∀ fewer < count, ∃ after, (items.take fewer).foldlM step state = .ok after := by
  induction items generalizing state with
  | nil => cases h
  | cons item rest ih =>
    rw [List.foldlM_cons] at h
    cases hstep : step state item with
    | error other =>
      rw [hstep] at h
      refine ⟨1, Nat.succ_le_succ (Nat.zero_le _), ?_, fun fewer hfewer => ?_⟩
      · rw [List.take_succ_cons, List.take_zero, List.foldlM_cons, hstep]
        exact h
      · obtain rfl := Nat.lt_one_iff.mp hfewer
        exact ⟨state, rfl⟩
    | ok next =>
      rw [hstep] at h
      obtain ⟨count, hcount, herror, hfewer⟩ := ih h
      refine ⟨count + 1, Nat.succ_le_succ hcount, ?_, fun fewer hlt => ?_⟩
      · rw [List.take_succ_cons, List.foldlM_cons, hstep]
        exact herror
      · cases fewer with
        | zero => exact ⟨state, rfl⟩
        | succ fewer =>
          rw [List.take_succ_cons, List.foldlM_cons, hstep]
          exact hfewer fewer (Nat.lt_of_succ_lt_succ hlt)

namespace ParameterList

open Parameter (Grammatical grammatical_iff)

variable {parameters : List Parameter}

theorem exists_ofList_iff_foldlM :
    (∃ list, ofList parameters = .ok list) ↔ ∃ after, parameters.foldlM Seen.add {} = .ok after := by
  unfold ofList
  split
  · rename_i after hafter
    exact ⟨fun _ => ⟨after, hafter⟩, fun _ => ⟨_, rfl⟩⟩
  · rename_i fault hfault
    constructor
    · rintro ⟨list, h⟩
      cases h
    · rintro ⟨after, hafter⟩
      rw [hafter] at hfault
      cases hfault

theorem ofList_eq_error_iff {fault : SignatureFault} :
    ofList parameters = .error fault ↔ parameters.foldlM Seen.add {} = .error fault := by
  unfold ofList
  split
  · rename_i after hafter
    constructor
    · intro h
      cases h
    · intro h
      rw [hafter] at h
      cases h
  · rename_i other hother
    rw [hother, Except.error.injEq, Except.error.injEq]

/-- **The check accepts what is declared, and nothing else.** -/
theorem exists_ofList_iff : (∃ list, ofList parameters = .ok list) ↔ Grammatical parameters := by
  rw [exists_ofList_iff_foldlM, Seen.foldlM_add_eq_ok_iff, grammatical_iff]
  exact and_iff_right fun parameter _ => Seen.admits_start parameter

/-- **What the check refuses has the fault of its shortest beginning that is refused.** -/
theorem ofList_error {fault : SignatureFault} (h : ofList parameters = .error fault) :
    ∃ count ≤ parameters.length, ofList (parameters.take count) = .error fault ∧
      ∀ fewer < count, ∃ list, ofList (parameters.take fewer) = .ok list := by
  obtain ⟨count, hcount, herror, hfewer⟩ := foldlM_error (ofList_eq_error_iff.mp h)
  exact ⟨count, hcount, ofList_eq_error_iff.mpr herror,
    fun fewer hlt => exists_ofList_iff_foldlM.mpr (hfewer fewer hlt)⟩

/-! ## 4. What each operation gives -/

theorem grammatical_of_ofList {list : ParameterList} (h : ofList parameters = .ok list) : Grammatical list.toList := by
  rw [ofList_eq_ok_iff.mp h]
  exact exists_ofList_iff.mp ⟨list, h⟩

/-- Classification ends in the check. -/
theorem grammatical_of_classify {code : CodeMetadata} {list : ParameterList} (h : code.classify = .ok list) :
    Grammatical list.toList := by
  obtain ⟨_, hassemble⟩ := CodeMetadata.classify_eq_ok_iff_assemble.mp h
  rw [CodeMetadata.assemble_eq] at hassemble
  obtain ⟨varPositional, _, hassemble⟩ := bind_eq_ok.mp hassemble
  obtain ⟨varKeyword, _, hassemble⟩ := bind_eq_ok.mp hassemble
  exact grammatical_of_ofList hassemble

/-- Positional parameters without default are declared as they are. -/
theorem grammatical_of_plain (hnames : (parameters.map (·.name)).Nodup)
    (hplain : ∀ parameter ∈ parameters, parameter.kind = .positionalOrKeyword ∧ ¬parameter.hasDefault) :
    Grammatical parameters := by
  let declaration : Declaration :=
    { plain := parameters, defaulted := [], varPositional := none, keywordOnly := [], varKeyword := none
      of_plain := hplain, of_defaulted := by simp, of_varPositional := by simp, of_keywordOnly := by simp
      of_varKeyword := by simp }
  exact ⟨hnames, declaration, by simp [declaration, Declaration.parameters]⟩

theorem withoutReceiver?_eq_some_iff {list rest : ParameterList} :
    list.withoutReceiver? = some rest ↔ ∃ first, list.toList = first :: rest.toList := by
  obtain ⟨parameters, hordered⟩ := list
  obtain ⟨others, hothers⟩ := rest
  cases parameters with
  | nil => simp [withoutReceiver?]
  | cons first behind => simp [withoutReceiver?]

/-- The list behind the receiver is not checked again, and need not be. -/
theorem grammatical_withoutReceiver {list rest : ParameterList} (h : Grammatical list.toList)
    (hrest : list.withoutReceiver? = some rest) : Grammatical rest.toList := by
  obtain ⟨first, hfirst⟩ := withoutReceiver?_eq_some_iff.mp hrest
  rw [hfirst, grammatical_iff] at h
  exact grammatical_iff.mpr h.tail

end ParameterList

namespace Callable

open Parameter (Grammatical)

theorem withReceiver_eq_ok {name : String} {kind : CallableKind} {parameters : ParameterList}
    {returns : Option TypeHint} {body : Block} {callable : Callable}
    (h : withReceiver name kind parameters returns body = .ok callable) :
    callable.declared = parameters ∧ parameters.withoutReceiver? = some callable.visible := by
  unfold withReceiver at h
  split at h
  · rename_i visible hvisible
    cases h
    exact ⟨rfl, hvisible⟩
  · cases h

/-- Both lists of a callable with a receiver are declared where the one it is made of is. -/
theorem grammatical_withReceiver {name : String} {kind : CallableKind} {parameters : ParameterList}
    {returns : Option TypeHint} {body : Block} {callable : Callable} (hparameters : Grammatical parameters.toList)
    (h : withReceiver name kind parameters returns body = .ok callable) :
    Grammatical callable.declared.toList ∧ Grammatical callable.visible.toList := by
  obtain ⟨hdeclared, hvisible⟩ := withReceiver_eq_ok h
  rw [hdeclared]
  exact ⟨hparameters, ParameterList.grammatical_withoutReceiver hparameters hvisible⟩

/-- Choosing a flag leaves the parameters alone. -/
theorem parameters_withStatic (callable : Callable) (isStatic : Bool) :
    (callable.withStatic isStatic).declared = callable.declared ∧
      (callable.withStatic isStatic).visible = callable.visible := by
  unfold withStatic
  cases callable.kind <;> exact ⟨rfl, rfl⟩

/-- The list of an entry point is never checked. -/
theorem grammatical_entryPoint (body : Block) : Grammatical (entryPoint body).declared.toList :=
  ParameterList.grammatical_of_plain (List.pairwise_singleton _ _) fun parameter hmem => by
    obtain rfl := List.mem_singleton.mp hmem
    exact ⟨rfl, Bool.false_ne_true⟩

end Callable

/-! ## 5. Everything that can be obtained -/

mutual

/-- **The lists that the operations give**, in any sequence: checked, empty, classified, without the receiver, and those
of callables. -/
inductive ParameterList.Obtainable : ParameterList → Prop
  | ofList {parameters : List Parameter} {list : ParameterList} (h : ParameterList.ofList parameters = .ok list) :
      ParameterList.Obtainable list
  | empty : ParameterList.Obtainable .empty
  | classify {code : CodeMetadata} {list : ParameterList} (h : code.classify = .ok list) :
      ParameterList.Obtainable list
  | withoutReceiver {list rest : ParameterList} (hlist : ParameterList.Obtainable list)
      (h : list.withoutReceiver? = some rest) : ParameterList.Obtainable rest
  | declared {callable : Callable} (h : Callable.Obtainable callable) : ParameterList.Obtainable callable.declared
  | visible {callable : Callable} (h : Callable.Obtainable callable) : ParameterList.Obtainable callable.visible

/-- The callables that are made of such lists, whose flag is chosen any number of times. -/
inductive Callable.Obtainable : Callable → Prop
  | function (name : String) (returns : Option TypeHint) (body : Block) {parameters : ParameterList}
      (h : ParameterList.Obtainable parameters) : Callable.Obtainable (.function name parameters returns body)
  | instanceMethod {name : String} {parameters : ParameterList} {returns : Option TypeHint} {body : Block}
      {callable : Callable} (hparameters : ParameterList.Obtainable parameters)
      (h : Callable.instanceMethod name parameters returns body = .ok callable) : Callable.Obtainable callable
  | constructor {parameters : ParameterList} {body : Block} {callable : Callable}
      (hparameters : ParameterList.Obtainable parameters) (h : Callable.constructor parameters body = .ok callable) :
      Callable.Obtainable callable
  | entryPoint (body : Block) : Callable.Obtainable (.entryPoint body)
  | withStatic (isStatic : Bool) {callable : Callable} (h : Callable.Obtainable callable) :
      Callable.Obtainable (callable.withStatic isStatic)

end

open Parameter (Grammatical)

-- The induction goes through lists and callables at once, one operation at a time; what the type of lists says of
-- their order is not used.
mutual

theorem ParameterList.Obtainable.grammatical : ∀ {list : ParameterList}, list.Obtainable → Grammatical list.toList
  | _, .ofList h => ParameterList.grammatical_of_ofList h
  | _, .empty => ParameterList.grammatical_of_plain List.nodup_nil fun _ hmem => absurd hmem List.not_mem_nil
  | _, .classify h => ParameterList.grammatical_of_classify h
  | _, .withoutReceiver hlist h => ParameterList.grammatical_withoutReceiver hlist.grammatical h
  | _, .declared h => h.grammatical.1
  | _, .visible h => h.grammatical.2

theorem Callable.Obtainable.grammatical : ∀ {callable : Callable}, callable.Obtainable →
    Grammatical callable.declared.toList ∧ Grammatical callable.visible.toList
  | _, .function _ _ _ h => ⟨h.grammatical, h.grammatical⟩
  | _, .instanceMethod hparameters h => Callable.grammatical_withReceiver hparameters.grammatical h
  | _, .constructor hparameters h => Callable.grammatical_withReceiver hparameters.grammatical h
  | _, .entryPoint body => ⟨Callable.grammatical_entryPoint body, Callable.grammatical_entryPoint body⟩
  | _, @Callable.Obtainable.withStatic isStatic callable h => by
    rw [(callable.parameters_withStatic isStatic).1, (callable.parameters_withStatic isStatic).2]
    exact h.grammatical

end

/-- **Parameter lists are the declared ones, everywhere.** The check accepts exactly the lists that are declared, and
changes nothing. Any other list is refused with the fault of its shortest beginning that is refused. And every list that
can be obtained is declared, also where it is never checked. -/
theorem ParameterList.grammar_exact :
    (∀ parameters, (∃ list, ofList parameters = .ok list ∧ list.toList = parameters) ↔ Grammatical parameters) ∧
    (∀ parameters, ¬Grammatical parameters →
      ∃ fault, ofList parameters = .error fault ∧
        ∃ count ≤ parameters.length, ofList (parameters.take count) = .error fault ∧
          ∀ fewer < count, ∃ list, ofList (parameters.take fewer) = .ok list) ∧
    ∀ list : ParameterList, list.Obtainable → Grammatical list.toList := by
  refine ⟨fun parameters => ?_, fun parameters h => ?_, fun list h => h.grammatical⟩
  · rw [← exists_ofList_iff]
    exact exists_congr fun list => and_iff_left_of_imp ofList_eq_ok_iff.mp
  · cases hlist : ofList parameters with
    | ok list => exact absurd (exists_ofList_iff.mp ⟨list, hlist⟩) h
    | error fault => exact ⟨fault, rfl, ofList_error hlist⟩

/-- A method with parameters of every block. -/
def fullDeclaration : Declaration where
  plain := [.positional "self"]
  defaulted := [{ name := "step", kind := .positionalOrKeyword, default := some (.int 1) }]
  varPositional := some { name := "rest", kind := .varPositional }
  keywordOnly := [{ name := "strict", kind := .keywordOnly, default := some (.bool true) },
    { name := "key", kind := .keywordOnly }]
  varKeyword := some { name := "more", kind := .varKeyword }
  of_plain := by decide
  of_defaulted := by decide
  of_varPositional := by decide
  of_keywordOnly := by decide
  of_varKeyword := by decide

/-- The lists of such a method are declared, and a parameter behind the last block is refused. -/
theorem ParameterList.grammar_exact_fullDeclaration :
    ∃ list callable, ofList fullDeclaration.parameters = .ok list ∧
      Callable.instanceMethod "run" list none {} = .ok callable ∧ Grammatical callable.visible.toList ∧
      ∃ fault, ofList (fullDeclaration.parameters ++ [.positional "late"]) = .error fault := by
  obtain ⟨hok, herror, hobtainable⟩ := grammar_exact
  have hdeclared : Grammatical fullDeclaration.parameters := ⟨by decide, fullDeclaration, rfl⟩
  obtain ⟨⟨parameters, hordered⟩, hlist, htoList⟩ := (hok _).mpr hdeclared
  obtain rfl : parameters = fullDeclaration.parameters := htoList
  have hlate : ¬Grammatical (fullDeclaration.parameters ++ [.positional "late"]) := by
    intro h
    have hbehind := (List.pairwise_append.mp (Parameter.grammatical_iff.mp h).ordered).2.2
    have hprecedes := hbehind { name := "more", kind := .varKeyword } (by decide) _ List.mem_cons_self
    exact absurd hprecedes.1 (by decide)
  obtain ⟨fault, hfault, _⟩ := herror _ hlate
  exact ⟨_, _, hlist, rfl, hobtainable _ (.visible (.instanceMethod (.ofList hlist) rfl)), fault, hfault⟩

end MethodLowering
