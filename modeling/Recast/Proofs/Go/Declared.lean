/-
  Proofs/Go/Declared.lean --- the names that a skeleton declares.

  Behind its heading a skeleton is the texts of its declarations (`toList_render_declared`).  Each
  of them gets names that are free when they are given (`Given`), and such a name is always found
  (`exists_firstFree`), so no two declarations clash, whatever the names in the outline turn into.
-/
import Recast.Proofs.Go.Skeleton

set_option autoImplicit false

namespace Recast.Go

/-! ## Names that Go uses itself -/

/-- A name that is no keyword and hides nothing that stubs rely on. -/
def IsUsable (name : String) : Prop :=
  name ∉ keywords ∧ name ∉ ["any", "error", "errors", "nil"]

theorem isReserved_iff {name : List Char} :
    isReserved name = true ↔ ∃ word ∈ keywords ++ predeclared, word.toList = name := by
  rw [isReserved, Bool.or_eq_true, List.any_eq_true, List.any_eq_true]
  simp only [List.mem_append, or_and_right, exists_or, beq_iff_eq]

theorem not_mem_reserved {name : String} (h : isReserved name.toList = false) :
    name ∉ keywords ++ predeclared := by
  intro hmem
  rw [isReserved_iff.2 ⟨name, hmem, rfl⟩] at h
  exact Bool.noConfusion h

theorem isUsable_of_not_reserved {name : String} (h : isReserved name.toList = false) :
    IsUsable name := by
  have hnot := not_mem_reserved h
  have hsub : ∀ word ∈ ["any", "error", "errors", "nil"], word ∈ keywords ++ predeclared := by
    decide
  exact ⟨fun hmem => hnot (List.mem_append_left _ hmem), fun hmem => hnot (hsub name hmem)⟩

/-- What a Python name turns into is never a name that Go uses itself. -/
theorem isReserved_camelCase (name : List Char) (exported : Bool) :
    isReserved (camelCase name exported) = false := by
  unfold camelCase
  dsimp only
  generalize (if (joinParts exported (nameParts name)).isEmpty then ['x']
      else joinParts exported (nameParts name)) = named
  split
  · refine Bool.eq_false_iff.2 fun hreserved => ?_
    have hend : ∀ word ∈ keywords ++ predeclared, word.toList.getLast? ≠ some '_' := by
      decide +kernel
    obtain ⟨word, hword, heq⟩ := isReserved_iff.1 hreserved
    exact hend word hword (by rw [heq, List.getLast?_concat])
  · next h => exact Bool.eq_false_iff.2 h

theorem isUsable_declarationName (name : String) : IsUsable (declarationName name) := by
  refine isUsable_of_not_reserved ?_
  rw [declarationName, String.toList_ofList]
  exact isReserved_camelCase _ _

theorem isUsable_localName (name : String) : IsUsable (localName name) := by
  refine isUsable_of_not_reserved ?_
  rw [localName, String.toList_ofList]
  exact isReserved_camelCase _ _

/-- A name that none of those that Go uses itself shares some property with. -/
theorem isUsable_of_class {p : String → Bool}
    (hp : (keywords ++ ["any", "error", "errors", "nil"]).all (fun word => !p word) = true)
    {name : String} (h : p name = true) : IsUsable name := by
  have hnot : name ∉ keywords ++ ["any", "error", "errors", "nil"] := by
    intro hmem
    have hname := List.all_eq_true.1 hp name hmem
    rw [h] at hname
    exact Bool.noConfusion hname
  exact ⟨fun hmem => hnot (List.mem_append_left _ hmem),
    fun hmem => hnot (List.mem_append_right _ hmem)⟩

theorem isUsable_constructor (typeName : String) : IsUsable ("New" ++ typeName) := by
  refine isUsable_of_class (p := fun word => word.toList.head? == some 'N') (by decide +kernel) ?_
  rw [String.toList_append]
  rfl

namespace Skeleton

/-! ## Free names -/

/-- The names that are tried for a name, in their order. -/
def numbered (base : String) : Nat → String
  | 0 => base
  | n + 1 => base ++ toString (n + 2)

theorem numbered_injective (base : String) {m n : Nat} (h : numbered base m = numbered base n) :
    m = n := by
  have hlength (k : Nat) : base ≠ base ++ toString k := by
    intro heq
    obtain ⟨c, hc, -⟩ := Text.exists_getLast?_append_toString "" k
    have hempty : toString k = "" := by
      rw [← String.append_right_inj base, ← heq, String.append_empty]
    rw [hempty] at hc
    cases hc
  cases m with
  | zero =>
    cases n with
    | zero => rfl
    | succ n => exact absurd h (hlength _)
  | succ m =>
    cases n with
    | zero => exact absurd h.symm (hlength _)
    | succ n =>
      have hnumber := Text.toString_injective ((String.append_right_inj base).1 h)
      omega

/-- A number in a name does not make it one that Go uses. -/
theorem isUsable_numbered {base : String} (h : IsUsable base) (n : Nat) :
    IsUsable (numbered base n) := by
  cases n with
  | zero => exact h
  | succ n =>
    obtain ⟨c, hlast, hdigit⟩ := Text.exists_getLast?_append_toString base (n + 2)
    refine isUsable_of_class (p := fun word => word.toList.getLast?.any Char.isDigit)
      (by decide +kernel) ?_
    rw [numbered, hlast]
    exact hdigit

/-- After how many names that are taken the first free one comes. -/
structure FirstFree (taken : List String) (base : String) (n : Nat) : Prop where
  free : numbered base n ∉ taken
  before : ∀ m < n, numbered base m ∈ taken

/-- The names are tried in their order. -/
theorem freeName_eq (taken : List String) (base : String) :
    freeName taken base = (((List.range (taken.length + 1)).find? fun n =>
      !taken.contains (numbered base n)).map (numbered base)).getD base := by
  have hnames : base :: ((List.range taken.length).map fun i => base ++ toString (i + 2)) =
      (List.range (taken.length + 1)).map (numbered base) := by
    rw [List.range_succ_eq_map, List.map_cons, List.map_map]
    rfl
  unfold freeName
  dsimp only
  rw [hnames, List.find?_map]
  rfl

/-- However many names are taken, the search for a free one ends, and it gives the first one. -/
theorem exists_firstFree (taken : List String) (base : String) :
    ∃ n ≤ taken.length, FirstFree taken base n ∧ freeName taken base = numbered base n := by
  rw [freeName_eq]
  cases hfind : (List.range (taken.length + 1)).find? fun n =>
      !taken.contains (numbered base n) with
  | some n =>
    obtain ⟨hn, hmem, hbefore⟩ := List.find?_range_eq_some.1 hfind
    refine ⟨n, Nat.lt_succ_iff.1 (List.mem_range.1 hmem), ⟨by simpa using hn, fun m hm => ?_⟩, rfl⟩
    simpa using hbefore m hm
  | none =>
    -- All names that are tried would be taken, but there is one more of them than that.
    have hsubset : (List.range (taken.length + 1)).map (numbered base) ⊆ taken := by
      intro name hname
      obtain ⟨n, hn, rfl⟩ := List.mem_map.1 hname
      have hnot := List.find?_eq_none.1 hfind n hn
      simpa using hnot
    have hnodup : ((List.range (taken.length + 1)).map (numbered base)).Nodup :=
      List.pairwise_map.2 (List.nodup_range.imp fun hne heq => hne (numbered_injective base heq))
    have hlength := hnodup.length_le_of_subset hsubset
    rw [List.length_map, List.length_range] at hlength
    omega

theorem freeName_not_mem (taken : List String) (base : String) : freeName taken base ∉ taken := by
  obtain ⟨n, -, hfirst, hname⟩ := exists_firstFree taken base
  rw [hname]
  exact hfirst.free

theorem isUsable_freeName (taken : List String) {base : String} (h : IsUsable base) :
    IsUsable (freeName taken base) := by
  obtain ⟨n, -, -, hname⟩ := exists_firstFree taken base
  rw [hname]
  exact isUsable_numbered h n

/-- Names that were given one after the other, each of them free when it was given. -/
structure Given (before names after : List String) : Prop where
  after_eq : after = names.reverse ++ before
  nodup : names.Nodup
  free : ∀ name ∈ names, name ∉ before

namespace Given

variable {before between after names more : List String}

theorem nil (before : List String) : Given before [] before :=
  ⟨rfl, .nil, fun _ h => absurd h List.not_mem_nil⟩

theorem one (before : List String) (base : String) :
    Given before [freeName before base] (freeName before base :: before) := by
  refine ⟨rfl, List.pairwise_singleton _ _, fun name hname => ?_⟩
  rw [List.mem_singleton.1 hname]
  exact freeName_not_mem before base

theorem append (h : Given before names between) (h' : Given between more after) :
    Given before (names ++ more) after := by
  have hbetween (name : String) (hname : name ∉ between) : name ∉ names ∧ name ∉ before := by
    rw [h.after_eq, List.mem_append, List.mem_reverse, not_or] at hname
    exact hname
  refine ⟨?_, List.nodup_append.2 ⟨h.nodup, h'.nodup, fun name hname other hmore => ?_⟩,
    fun name hname => ?_⟩
  · rw [h'.after_eq, h.after_eq, List.reverse_append, List.append_assoc]
  · rintro rfl
    exact (hbetween name (h'.free name hmore)).1 hname
  · rcases List.mem_append.1 hname with hname | hname
    · exact h.free name hname
    · exact (hbetween name (h'.free name hname)).2

theorem subset (h : Given before names after) {name : String} (hname : name ∈ before) :
    name ∈ after := by
  rw [h.after_eq]
  exact List.mem_append_right _ hname

end Given

theorem given_freeNames (taken bases : List String) :
    Given taken (freeNames taken bases) ((freeNames taken bases).reverse ++ taken) := by
  induction bases generalizing taken with
  | nil => exact .nil taken
  | cons base rest ih =>
    have hrest := (Given.one taken base).append (ih (freeName taken base :: taken))
    rw [List.append_cons, ← List.reverse_cons] at hrest
    exact hrest

/-! ## Declarations -/

/-- The names of the parameters of a stub. -/
def paramNames (f : FunctionDecl) : List String :=
  freeNames (if f.owner.isSome then [receiver] else []) ((ownParams f).map localName)

/-- A list of parameters as it is written. -/
def paramText (params : List String) : String := ", ".intercalate (params.map (· ++ " any"))

/-- A declaration of a skeleton, with the names that it gives. -/
inductive Declared where
  | type (name pythonName : String) (doc : Option String)
  | constructor (name typeName : String) (params : List String) (what : String)
  | method (name typeName : String) (params : List String) (what : String)
  | function (name pythonName : String) (params : List String) (doc : Option String)

namespace Declared

/-- The text of a declaration. -/
def text : Declared → String
  | type name pythonName doc =>
    "\n" ++
      (comment name pythonName doc).getD ("// " ++ name ++ " ports " ++ pythonName ++ ".\n") ++
      "type " ++ name ++ " struct\x7b\x7d\n"
  | constructor name typeName params what =>
    "\nfunc " ++ name ++ "(" ++ paramText params ++ ") (*" ++ typeName ++ ", error) \x7b\n" ++
      stubBody "nil, " what
  | method name typeName params what =>
    "\nfunc (" ++ receiver ++ " *" ++ typeName ++ ") " ++ name ++ "(" ++ paramText params ++
      ") error \x7b\n" ++ stubBody "" what
  | function name pythonName params doc =>
    "\n" ++ (comment name pythonName doc).getD "" ++ "func " ++ name ++ "(" ++ paramText params ++
      ") error \x7b\n" ++ stubBody "" pythonName

/-- The name that is declared. -/
def name : Declared → String
  | type name _ _ | constructor name _ _ _ | method name _ _ _ | function name _ _ _ => name

/-- The parameters of a stub. -/
def params : Declared → List String
  | type _ _ _ => []
  | constructor _ _ params _ | method _ _ params _ | function _ _ params _ => params

/-- Whether the declaration belongs to a type. -/
def isMember : Declared → Bool
  | constructor _ _ _ _ | method _ _ _ _ => true
  | type _ _ _ | function _ _ _ _ => false

/-- The name, if it is declared in the package. -/
def packageName? : Declared → Option String
  | method _ _ _ _ => none
  | d => some d.name

/-- The name, if it is that of a method of a type. -/
def methodName? (typeName : String) : Declared → Option String
  | method name ofType _ _ => if ofType = typeName then some name else none
  | _ => none

end Declared

/-- The methods of a class. -/
def memberDeclarations (className typeName : String) :
    List String → List String → List FunctionDecl → List Declared
  | _, _, [] => []
  | taken, methods, f :: rest =>
    let what := className ++ "." ++ f.name
    if f.name = "__init__" then
      let name := freeName taken ("New" ++ typeName)
      .constructor name typeName (paramNames f) what ::
        memberDeclarations className typeName (name :: taken) methods rest
    else
      let name := freeName methods (declarationName f.name)
      .method name typeName (paramNames f) what ::
        memberDeclarations className typeName taken (name :: methods) rest

/-- A class with its methods. -/
def classDeclarations (o : Outline) (taken : List String) (c : ClassDecl) : List Declared :=
  let name := freeName taken (declarationName c.name)
  .type name c.name c.doc :: memberDeclarations c.name name (name :: taken) [] (o.methodsOf c.name)

/-- The classes of a file. -/
def classesDeclarations (o : Outline) : List String → List ClassDecl → List Declared
  | _, [] => []
  | taken, c :: rest =>
    classDeclarations o taken c ++ classesDeclarations o (classPart o taken c).taken rest

/-- The top-level functions of a file. -/
def functionDeclarations : List String → List FunctionDecl → List Declared
  | _, [] => []
  | taken, f :: rest =>
    let name := freeName taken (declarationName f.name)
    .function name f.name (paramNames f) f.doc :: functionDeclarations (name :: taken) rest

/-- Everything that a skeleton declares. -/
def declared (o : Outline) : List Declared :=
  classesDeclarations o [] o.classes ++
    functionDeclarations (classParts o [] o.classes).taken o.topLevelFunctions

/-! ## The text of the declarations -/

section Text

theorem toList_methodParts (className typeName : String) (taken methods : List String)
    (fs : List FunctionDecl) :
    (methodParts className typeName taken methods fs).text.toList =
      (memberDeclarations className typeName taken methods fs).flatMap fun d => d.text.toList := by
  induction fs generalizing taken methods with
  | nil => rfl
  | cons f fs ih =>
    unfold methodParts memberDeclarations
    dsimp only
    split
    · rw [String.toList_append, ih, List.flatMap_cons]
      rfl
    · rw [String.toList_append, ih, List.flatMap_cons]
      rfl

theorem toList_classPart (o : Outline) (taken : List String) (c : ClassDecl) :
    (classPart o taken c).text.toList =
      (classDeclarations o taken c).flatMap fun d => d.text.toList := by
  unfold classPart classDeclarations
  dsimp only
  rw [String.toList_append, toList_methodParts, List.flatMap_cons]
  rfl

theorem toList_classParts (o : Outline) (taken : List String) (classes : List ClassDecl) :
    (classParts o taken classes).text.toList =
      (classesDeclarations o taken classes).flatMap fun d => d.text.toList := by
  induction classes generalizing taken with
  | nil => rfl
  | cons c rest ih =>
    unfold classParts classesDeclarations
    dsimp only
    rw [String.toList_append, toList_classPart, ih, List.flatMap_append]

theorem toList_functionParts (taken : List String) (fs : List FunctionDecl) :
    (functionParts taken fs).text.toList =
      (functionDeclarations taken fs).flatMap fun d => d.text.toList := by
  induction fs generalizing taken with
  | nil => rfl
  | cons f fs ih =>
    unfold functionParts functionDeclarations
    dsimp only
    rw [String.toList_append, ih, List.flatMap_cons]
    rfl

/-- What a skeleton begins with: where it comes from, its package and the import. -/
def heading (module fileName : String) (o : Outline) : List Char :=
  '/' :: '/' :: provenance fileName ++ ['\n'] ++ ['\n'] ++
    ("package ".toList ++ module.toList ++ ['\n'] ++ importLine o)

/-- Behind its heading a skeleton is the texts of what it declares. -/
theorem toList_render_declared (module fileName : String) (o : Outline) :
    (render module fileName o).toList =
      heading module fileName o ++ (declared o).flatMap fun d => d.text.toList := by
  have hdeclarations : declarations o = (declared o).flatMap fun d => d.text.toList := by
    unfold declarations declared
    dsimp only
    rw [String.toList_append, toList_classParts, toList_functionParts, List.flatMap_append]
  rw [toList_render, heading, hdeclarations]
  simp only [List.append_assoc]

end Text

/-! ## Names in the package -/

theorem given_memberDeclarations (className typeName : String) (taken methods : List String)
    (fs : List FunctionDecl) :
    Given taken ((memberDeclarations className typeName taken methods fs).filterMap
      Declared.packageName?) (methodParts className typeName taken methods fs).taken := by
  induction fs generalizing taken methods with
  | nil => exact .nil taken
  | cons f fs ih =>
    unfold methodParts memberDeclarations
    dsimp only
    split
    · exact (Given.one taken ("New" ++ typeName)).append (ih _ methods)
    · exact ih taken _

theorem given_classDeclarations (o : Outline) (taken : List String) (c : ClassDecl) :
    Given taken ((classDeclarations o taken c).filterMap Declared.packageName?)
      (classPart o taken c).taken :=
  (Given.one taken (declarationName c.name)).append (given_memberDeclarations ..)

theorem given_classesDeclarations (o : Outline) (taken : List String) (classes : List ClassDecl) :
    Given taken ((classesDeclarations o taken classes).filterMap Declared.packageName?)
      (classParts o taken classes).taken := by
  induction classes generalizing taken with
  | nil => exact .nil taken
  | cons c rest ih =>
    unfold classParts classesDeclarations
    dsimp only
    rw [List.filterMap_append]
    exact (given_classDeclarations o taken c).append (ih _)

theorem given_functionDeclarations (taken : List String) (fs : List FunctionDecl) :
    Given taken ((functionDeclarations taken fs).filterMap Declared.packageName?)
      (functionParts taken fs).taken := by
  induction fs generalizing taken with
  | nil => exact .nil taken
  | cons f fs ih => exact (Given.one taken (declarationName f.name)).append (ih _)

theorem given_declared (o : Outline) :
    ∃ after, Given [] ((declared o).filterMap Declared.packageName?) after := by
  rw [declared, List.filterMap_append]
  exact ⟨_, (given_classesDeclarations o [] o.classes).append (given_functionDeclarations _ _)⟩

/-! ## Methods -/

/-- The methods that declarations give a type. -/
def methodNames (typeName : String) (ds : List Declared) : List String :=
  ds.filterMap (Declared.methodName? typeName)

/-- The methods of a class are told apart, and they are all methods of its type. -/
theorem methodNames_memberDeclarations (className typeName : String)
    (taken methods : List String) (fs : List FunctionDecl) (ofType : String) :
    let names := methodNames ofType (memberDeclarations className typeName taken methods fs)
    names.Nodup ∧ ∀ name ∈ names, ofType = typeName ∧ name ∉ methods := by
  induction fs generalizing taken methods with
  | nil => exact ⟨.nil, fun _ h => absurd h List.not_mem_nil⟩
  | cons f fs ih =>
    unfold memberDeclarations
    dsimp only
    split
    · exact ih _ methods
    · generalize className ++ "." ++ f.name = what
      have hfree := freeName_not_mem methods (declarationName f.name)
      generalize freeName methods (declarationName f.name) = name at hfree ⊢
      obtain ⟨hnodup, hnames⟩ := ih taken (name :: methods)
      by_cases htype : typeName = ofType
      · have hhead : Declared.methodName? ofType (.method name typeName (paramNames f) what) =
            some name := if_pos htype
        rw [methodNames, List.filterMap_cons_some hhead]
        refine ⟨List.nodup_cons.2 ⟨fun hmem => ?_, hnodup⟩, fun name hname => ?_⟩
        · exact (hnames _ hmem).2 (.head _)
        · rcases List.mem_cons.1 hname with rfl | hname
          · exact ⟨htype.symm, hfree⟩
          · exact ⟨htype.symm, fun hmem => (hnames name hname).2 (.tail _ hmem)⟩
      · have hhead : Declared.methodName? ofType (.method name typeName (paramNames f) what) =
            none := if_neg htype
        rw [methodNames, List.filterMap_cons_none hhead]
        exact ⟨hnodup, fun name hname => absurd (hnames name hname).1.symm htype⟩

/-- A type gets its methods from one class only, because it was free before. -/
theorem methodNames_classesDeclarations (o : Outline) (taken : List String)
    (classes : List ClassDecl) (ofType : String) :
    let names := methodNames ofType (classesDeclarations o taken classes)
    names.Nodup ∧ (ofType ∈ taken → names = []) := by
  induction classes generalizing taken with
  | nil => exact ⟨.nil, fun _ => rfl⟩
  | cons c rest ih =>
    have hclass := methodNames_memberDeclarations c.name (freeName taken (declarationName c.name))
      (freeName taken (declarationName c.name) :: taken) [] (o.methodsOf c.name) ofType
    have hgiven := given_classDeclarations o taken c
    obtain ⟨hnodup, hnone⟩ := ih (classPart o taken c).taken
    have hsplit : methodNames ofType (classesDeclarations o taken (c :: rest)) =
        methodNames ofType (classDeclarations o taken c) ++
          methodNames ofType (classesDeclarations o (classPart o taken c).taken rest) :=
      List.filterMap_append ..
    change (methodNames ofType (classDeclarations o taken c)).Nodup ∧
      ∀ name ∈ methodNames ofType (classDeclarations o taken c), _ at hclass
    dsimp only
    rw [hsplit]
    by_cases htype : ofType = freeName taken (declarationName c.name)
    · have hmem : ofType ∈ (classPart o taken c).taken := by
        rw [hgiven.after_eq, htype]
        exact List.mem_append_left _ (List.mem_reverse.2 (.head _))
      rw [hnone hmem, List.append_nil]
      refine ⟨hclass.1, fun htaken => ?_⟩
      exact absurd (htype ▸ htaken) (freeName_not_mem taken _)
    · have hempty : methodNames ofType (classDeclarations o taken c) = [] :=
        List.eq_nil_iff_forall_not_mem.2 fun name hname => htype (hclass.2 name hname).1
      rw [hempty, List.nil_append]
      exact ⟨hnodup, fun htaken => hnone (hgiven.subset htaken)⟩

theorem methodNames_functionDeclarations (taken : List String) (fs : List FunctionDecl)
    (ofType : String) : methodNames ofType (functionDeclarations taken fs) = [] := by
  induction fs generalizing taken with
  | nil => rfl
  | cons f fs ih => exact ih _

/-! ## Stubs -/

/-- A declaration whose parameters are told apart, and none of whose names gets in the way of
another one. -/
structure Declared.Proper (d : Declared) : Prop where
  params : d.params.Nodup
  receiver : d.isMember = true → receiver ∉ d.params
  usable : ∀ name ∈ d.name :: d.params, IsUsable name

theorem nodup_paramNames (f : FunctionDecl) : (paramNames f).Nodup := (given_freeNames _ _).nodup

theorem receiver_not_mem_paramNames {f : FunctionDecl} (h : f.owner.isSome = true) :
    receiver ∉ paramNames f := by
  intro hmem
  refine (given_freeNames _ _).free receiver hmem ?_
  rw [if_pos h]
  exact .head _

theorem isUsable_of_mem_freeNames (taken : List String) {bases : List String}
    (h : ∀ base ∈ bases, IsUsable base) : ∀ name ∈ freeNames taken bases, IsUsable name := by
  induction bases generalizing taken with
  | nil => exact fun _ hname => nomatch hname
  | cons base rest ih =>
    intro name hname
    rcases List.mem_cons.1 hname with rfl | hname
    · exact isUsable_freeName taken (h base (.head _))
    · exact ih _ (fun b hb => h b (.tail _ hb)) name hname

theorem isUsable_of_mem_paramNames (f : FunctionDecl) : ∀ name ∈ paramNames f, IsUsable name := by
  refine isUsable_of_mem_freeNames _ fun base hbase => ?_
  obtain ⟨p, -, rfl⟩ := List.mem_map.1 hbase
  exact isUsable_localName p

/-- A stub with the parameters of a function and a name that Go does not use is as it should be. -/
theorem proper_of_paramNames {d : Declared} {f : FunctionDecl} (hname : IsUsable d.name)
    (hparams : d.params = paramNames f) (howner : d.isMember = true → f.owner.isSome = true) :
    d.Proper := by
  refine ⟨hparams ▸ nodup_paramNames f, fun hmember => ?_, ?_⟩
  · rw [hparams]
    exact receiver_not_mem_paramNames (howner hmember)
  · rw [hparams, List.forall_mem_cons]
    exact ⟨hname, isUsable_of_mem_paramNames f⟩

theorem proper_memberDeclarations (className typeName : String) (taken methods : List String)
    {fs : List FunctionDecl} (h : ∀ f ∈ fs, f.owner.isSome = true) :
    ∀ d ∈ memberDeclarations className typeName taken methods fs, d.Proper := by
  induction fs generalizing taken methods with
  | nil => exact fun _ hd => nomatch hd
  | cons f fs ih =>
    have howner := h f (.head _)
    have hrest := fun g hg => h g (.tail _ hg)
    unfold memberDeclarations
    dsimp only
    split
    · refine List.forall_mem_cons.2 ⟨?_, ih _ _ hrest⟩
      exact proper_of_paramNames (isUsable_freeName _ (isUsable_constructor _)) rfl fun _ => howner
    · refine List.forall_mem_cons.2 ⟨?_, ih _ _ hrest⟩
      exact proper_of_paramNames (isUsable_freeName _ (isUsable_declarationName _)) rfl
        fun _ => howner

theorem proper_classesDeclarations (o : Outline) (taken : List String) (classes : List ClassDecl) :
    ∀ d ∈ classesDeclarations o taken classes, d.Proper := by
  induction classes generalizing taken with
  | nil => exact fun _ hd => nomatch hd
  | cons c rest ih =>
    have howner : ∀ f ∈ o.methodsOf c.name, f.owner.isSome = true := by
      intro f hf
      have hclass := (List.mem_filter.1 hf).2
      rw [eq_of_beq hclass]
      rfl
    have htype : (Declared.type (freeName taken (declarationName c.name)) c.name c.doc).Proper := by
      refine ⟨.nil, nofun, fun name hname => ?_⟩
      rw [List.mem_singleton.1 hname]
      exact isUsable_freeName _ (isUsable_declarationName _)
    intro d hd
    rcases List.mem_append.1 hd with hd | hd
    · rcases List.mem_cons.1 hd with rfl | hd
      · exact htype
      · exact proper_memberDeclarations _ _ _ _ howner d hd
    · exact ih _ d hd

theorem proper_functionDeclarations (taken : List String) (fs : List FunctionDecl) :
    ∀ d ∈ functionDeclarations taken fs, d.Proper := by
  induction fs generalizing taken with
  | nil => exact fun _ hd => nomatch hd
  | cons f fs ih =>
    refine List.forall_mem_cons.2 ⟨?_, ih _⟩
    exact proper_of_paramNames (f := f) (isUsable_freeName _ (isUsable_declarationName _)) rfl nofun

/-! ## No clashes -/

/-- Declarations none of which clash: in the package, among the methods of a type, or in a stub. -/
structure Unambiguous (ds : List Declared) : Prop where
  package : (ds.filterMap Declared.packageName?).Nodup
  methods : ∀ typeName, (methodNames typeName ds).Nodup
  params : ∀ d ∈ ds, d.params.Nodup
  receiver : ∀ d ∈ ds, d.isMember = true → receiver ∉ d.params
  keywords : ∀ d ∈ ds, ∀ name ∈ d.name :: d.params, name ∉ keywords
  relied : ∀ d ∈ ds, ∀ name ∈ d.name :: d.params, name ∉ ["any", "error", "errors", "nil"]

/-- Behind its heading a skeleton is the texts of declarations that do not clash, of whatever
outline it is made, and the search for a free name ends with the first one. -/
theorem unambiguous_declared (o : Outline) :
    (∀ module fileName, (render module fileName o).toList =
      heading module fileName o ++ (declared o).flatMap fun d => d.text.toList) ∧
    Unambiguous (declared o) ∧
    ∀ taken base, ∃ n, FirstFree taken base n ∧ freeName taken base = numbered base n := by
  have hproper : ∀ d ∈ declared o, d.Proper := by
    intro d hd
    rcases List.mem_append.1 hd with hd | hd
    · exact proper_classesDeclarations o [] o.classes d hd
    · exact proper_functionDeclarations _ _ d hd
  obtain ⟨after, hgiven⟩ := given_declared o
  refine ⟨fun module fileName => toList_render_declared module fileName o, ?_, fun taken base => ?_⟩
  · refine ⟨hgiven.nodup, fun typeName => ?_, fun d hd => (hproper d hd).params,
      fun d hd => (hproper d hd).receiver,
      fun d hd name hname => ((hproper d hd).usable name hname).1,
      fun d hd name hname => ((hproper d hd).usable name hname).2⟩
    rw [methodNames, declared, List.filterMap_append]
    have hfunctions := methodNames_functionDeclarations (classParts o [] o.classes).taken
      o.topLevelFunctions typeName
    rw [methodNames] at hfunctions
    rw [hfunctions, List.append_nil]
    exact (methodNames_classesDeclarations o [] o.classes typeName).1
  · obtain ⟨n, -, hfirst, hname⟩ := exists_firstFree taken base
    exact ⟨n, hfirst, hname⟩

end Skeleton

end Recast.Go
