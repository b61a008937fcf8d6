/-
  Proofs/Go/Stubs.lean --- what the declarations of a skeleton stand for.

  A skeleton has one type for each class, in the order of the classes (`types_declared`).  Its stubs
  are those of the methods of each class, found by the name of the class, and of the top-level
  functions (`stubs_declared`).  So a method has as many stubs as there are classes of the name of
  its class, and every function has one stub exactly if no class that has methods shares its name.
-/
import Mathlib.Algebra.GroupWithZero.Nat
import Mathlib.Data.List.Forall2
import Mathlib.Data.List.Perm.Basic
import Recast.Proofs.Go.Declared
import Recast.Proofs.Outline.Methods

set_option autoImplicit false

namespace Recast.Go.Skeleton

namespace Declared

/-- Whether the declaration is that of a type. -/
def isType : Declared → Bool
  | type _ _ _ => true
  | constructor _ _ _ _ | method _ _ _ _ | function _ _ _ _ => false

/-- Whether the declaration is a stub. -/
def isStub (d : Declared) : Bool := !d.isType

/-- A declaration is the type of a class. -/
def IsTypeOf : Declared → ClassDecl → Prop
  | type name pythonName doc, c =>
    pythonName = c.name ∧ doc = c.doc ∧ ∃ n, name = numbered (declarationName c.name) n
  | constructor _ _ _ _, _ | method _ _ _ _, _ | function _ _ _ _, _ => False

/-- What a stub that belongs to a type says is said of a method of the class that one of the
declarations makes the type for. -/
def SaysOf (ds : List Declared) (typeName : String) (params : List String) (what : String)
    (f : FunctionDecl) : Prop :=
  ∃ className doc, f.owner = some className ∧ type typeName className doc ∈ ds ∧
    params = paramNames f ∧ what = className ++ "." ++ f.name

/-- A declaration is the stub of a function, where types are told by a list of declarations. -/
def IsStubOf (ds : List Declared) : Declared → FunctionDecl → Prop
  | type _ _ _, _ => False
  | constructor name typeName params what, f =>
    f.name = "__init__" ∧ SaysOf ds typeName params what f ∧
      ∃ n, name = numbered ("New" ++ typeName) n
  | method name typeName params what, f =>
    f.name ≠ "__init__" ∧ SaysOf ds typeName params what f ∧
      ∃ n, name = numbered (declarationName f.name) n
  | function name pythonName params doc, f =>
    f.isTopLevel = true ∧ pythonName = f.name ∧ params = paramNames f ∧ doc = f.doc ∧
      ∃ n, name = numbered (declarationName f.name) n

end Declared

open Declared (IsTypeOf IsStubOf)

theorem exists_freeName_eq (taken : List String) (base : String) :
    ∃ n, freeName taken base = numbered base n := by
  obtain ⟨n, -, -, hname⟩ := exists_firstFree taken base
  exact ⟨n, hname⟩

/-! ## Types and stubs of a skeleton -/

/-- The members of a type are stubs of the functions of its class. -/
theorem stubs_memberDeclarations {ds : List Declared} {className typeName : String}
    {doc : Option String} (htype : .type typeName className doc ∈ ds)
    (taken methods : List String) {fs : List FunctionDecl}
    (h : ∀ f ∈ fs, f.owner = some className) :
    List.Forall₂ (IsStubOf ds) (memberDeclarations className typeName taken methods fs) fs := by
  induction fs generalizing taken methods with
  | nil => exact .nil
  | cons f fs ih =>
    have hsays : Declared.SaysOf ds typeName (paramNames f) (className ++ "." ++ f.name) f :=
      ⟨className, doc, h f (.head _), htype, rfl, rfl⟩
    have hrest := fun g hg => h g (.tail _ hg)
    unfold memberDeclarations
    dsimp only
    split
    · next hinit => exact .cons ⟨hinit, hsays, exists_freeName_eq _ _⟩ (ih _ _ hrest)
    · next hinit => exact .cons ⟨hinit, hsays, exists_freeName_eq _ _⟩ (ih _ _ hrest)

theorem isStub_of_mem_memberDeclarations (className typeName : String)
    (taken methods : List String) (fs : List FunctionDecl) :
    ∀ d ∈ memberDeclarations className typeName taken methods fs, d.isStub = true := by
  induction fs generalizing taken methods with
  | nil => nofun
  | cons f fs ih =>
    unfold memberDeclarations
    dsimp only
    split
    · exact List.forall_mem_cons.2 ⟨rfl, ih _ _⟩
    · exact List.forall_mem_cons.2 ⟨rfl, ih _ _⟩

theorem owner_of_mem_methodsOf {o : Outline} {className : String} :
    ∀ f ∈ o.methodsOf className, f.owner = some className :=
  fun _ hf => beq_iff_eq.1 (List.mem_filter.1 hf).2

theorem filter_isStub_classDeclarations (o : Outline) (taken : List String) (c : ClassDecl) :
    (classDeclarations o taken c).filter Declared.isStub =
      memberDeclarations c.name (freeName taken (declarationName c.name))
        (freeName taken (declarationName c.name) :: taken) [] (o.methodsOf c.name) :=
  List.filter_eq_self.2 (isStub_of_mem_memberDeclarations _ _ _ _ _)

theorem filter_isType_classDeclarations (o : Outline) (taken : List String) (c : ClassDecl) :
    (classDeclarations o taken c).filter Declared.isType =
      [.type (freeName taken (declarationName c.name)) c.name c.doc] := by
  refine congrArg (List.cons _) (List.filter_eq_nil_iff.2 fun d hd htype => ?_)
  have hstub := isStub_of_mem_memberDeclarations _ _ _ _ _ d hd
  rw [Declared.isStub, htype] at hstub
  cases hstub

theorem stubs_classesDeclarations {o : Outline} {ds : List Declared} (taken : List String)
    (classes : List ClassDecl) (h : classesDeclarations o taken classes ⊆ ds) :
    List.Forall₂ (IsStubOf ds) ((classesDeclarations o taken classes).filter Declared.isStub)
      (classes.flatMap fun c => o.methodsOf c.name) := by
  induction classes generalizing taken with
  | nil => exact .nil
  | cons c rest ih =>
    unfold classesDeclarations at h ⊢
    obtain ⟨hclass, hrest⟩ := List.append_subset.1 h
    rw [List.filter_append, filter_isStub_classDeclarations, List.flatMap_cons]
    exact List.rel_append (stubs_memberDeclarations (hclass (.head _)) _ _ owner_of_mem_methodsOf)
      (ih _ hrest)

theorem types_classesDeclarations (o : Outline) (taken : List String) (classes : List ClassDecl) :
    List.Forall₂ IsTypeOf ((classesDeclarations o taken classes).filter Declared.isType)
      classes := by
  induction classes generalizing taken with
  | nil => exact .nil
  | cons c rest ih =>
    unfold classesDeclarations
    rw [List.filter_append, filter_isType_classDeclarations]
    exact .cons ⟨rfl, rfl, exists_freeName_eq _ _⟩ (ih _)

theorem stubs_functionDeclarations {ds : List Declared} (taken : List String)
    {fs : List FunctionDecl} (h : ∀ f ∈ fs, f.isTopLevel = true) :
    List.Forall₂ (IsStubOf ds) (functionDeclarations taken fs) fs := by
  induction fs generalizing taken with
  | nil => exact .nil
  | cons f fs ih =>
    exact .cons ⟨h f (.head _), rfl, rfl, rfl, exists_freeName_eq _ _⟩
      (ih _ fun g hg => h g (.tail _ hg))

theorem isStub_of_mem_functionDeclarations (taken : List String) (fs : List FunctionDecl) :
    ∀ d ∈ functionDeclarations taken fs, d.isStub = true := by
  induction fs generalizing taken with
  | nil => nofun
  | cons f fs ih => exact List.forall_mem_cons.2 ⟨rfl, ih _⟩

/-- A skeleton has one type for each class. -/
theorem types_declared (o : Outline) :
    List.Forall₂ IsTypeOf ((declared o).filter Declared.isType) o.classes := by
  have hfunctions : (functionDeclarations (classParts o [] o.classes).taken
      o.topLevelFunctions).filter Declared.isType = [] := by
    refine List.filter_eq_nil_iff.2 fun d hd htype => ?_
    have hstub := isStub_of_mem_functionDeclarations _ _ d hd
    rw [Declared.isStub, htype] at hstub
    cases hstub
  rw [declared, List.filter_append, hfunctions, List.append_nil]
  exact types_classesDeclarations o [] o.classes

/-- The stubs of a skeleton are those of the methods found for each class, and of the top-level
functions. -/
theorem stubs_declared (o : Outline) :
    List.Forall₂ (IsStubOf (declared o)) ((declared o).filter Declared.isStub)
      ((o.classes.flatMap fun c => o.methodsOf c.name) ++ o.topLevelFunctions) := by
  have hfunctions : (functionDeclarations (classParts o [] o.classes).taken
      o.topLevelFunctions).filter Declared.isStub =
      functionDeclarations (classParts o [] o.classes).taken o.topLevelFunctions :=
    List.filter_eq_self.2 (isStub_of_mem_functionDeclarations _ _)
  have hsplit : (declared o).filter Declared.isStub = _ := List.filter_append ..
  rw [hsplit, hfunctions]
  refine List.rel_append (stubs_classesDeclarations [] o.classes (List.subset_append_left _ _)) ?_
  exact stubs_functionDeclarations _ fun f hf => (List.mem_filter.1 hf).2

/-! ## Counting by pairs -/

section Pairs

variable {α β : Type}

theorem flatMap_ite_singleton (p : α → Bool) (xs : List α) (y : β) :
    (xs.flatMap fun x => if p x then [y] else []) = List.replicate (xs.countP p) y := by
  induction xs with
  | nil => rfl
  | cons x xs ih =>
    rw [List.flatMap_cons, ih]
    cases hx : p x with
    | true => rw [List.countP_cons_of_pos hx, List.replicate_succ]; rfl
    | false => rw [List.countP_cons_of_neg (Bool.eq_false_iff.1 hx)]; rfl

/-- The items of one list that go with those of another one, each as often as it goes with one. -/
theorem flatMap_filter_perm (r : α → β → Bool) (xs : List α) (ys : List β) :
    (xs.flatMap fun x => ys.filter (r x)).Perm
      (ys.flatMap fun y => List.replicate (xs.countP fun x => r x y) y) := by
  induction ys with
  | nil => simp
  | cons y ys ih =>
    have hhead (x : α) : (y :: ys).filter (r x) = (if r x y then [y] else []) ++ ys.filter (r x) := by
      rw [List.filter_cons]
      split <;> rfl
    simp only [hhead]
    refine (List.flatMap_append_perm xs _ _).symm.trans ?_
    rw [flatMap_ite_singleton, List.flatMap_cons]
    exact ih.append_left _

/-- Counts that are nothing where a condition fails, and else at least one, are as many as there are
items with the condition if each of these counts once. -/
theorem sum_eq_length_filter_iff {p : α → Bool} {count : α → Nat} {xs : List α}
    (hnone : ∀ x ∈ xs, p x = false → count x = 0) (hsome : ∀ x ∈ xs, p x = true → 1 ≤ count x) :
    (xs.filter p).length ≤ (xs.map count).sum ∧
      ((xs.map count).sum = (xs.filter p).length ↔ ∀ x ∈ xs, p x = true → count x = 1) := by
  induction xs with
  | nil => simp
  | cons x xs ih =>
    obtain ⟨hle, hiff⟩ := ih (fun y hy => hnone y (.tail _ hy)) fun y hy => hsome y (.tail _ hy)
    rw [List.map_cons, List.sum_cons, List.forall_mem_cons, ← hiff]
    cases hx : p x with
    | true =>
      have hcount := hsome x (.head _) hx
      rw [List.filter_cons_of_pos hx, List.length_cons]
      refine ⟨by omega, ?_⟩
      constructor
      · exact fun h => ⟨fun _ => by omega, by omega⟩
      · exact fun h => by have := h.1 rfl; omega
    | false =>
      have hcount := hnone x (.head _) hx
      rw [List.filter_cons_of_neg (Bool.eq_false_iff.1 hx), hcount, Nat.zero_add]
      exact ⟨hle, fun h => ⟨nofun, h⟩, And.right⟩

/-- Items that are repeated once where a condition holds, and else not at all, are those with the
condition. -/
theorem flatMap_replicate_eq_filter {p : α → Bool} {count : α → Nat} {xs : List α}
    (hnone : ∀ x ∈ xs, p x = false → count x = 0) (hone : ∀ x ∈ xs, p x = true → count x = 1) :
    (xs.flatMap fun x => List.replicate (count x) x) = xs.filter p := by
  induction xs with
  | nil => rfl
  | cons x xs ih =>
    rw [List.flatMap_cons, ih (fun y hy => hnone y (.tail _ hy)) fun y hy => hone y (.tail _ hy)]
    cases hx : p x with
    | true => rw [hone x (.head _) hx, List.filter_cons_of_pos hx]; rfl
    | false => rw [hnone x (.head _) hx, List.filter_cons_of_neg (Bool.eq_false_iff.1 hx)]; rfl

end Pairs

/-! ## How often a function is stubbed -/

/-- The functions that are to be stubbed: the methods and the top-level functions. -/
def stubbable (o : Outline) : List FunctionDecl :=
  o.functions.filter (·.owner.isSome) ++ o.topLevelFunctions

/-- A skeleton has one stub for each function that is to be stubbed, and no other stubs. -/
def StubbedOnce (o : Outline) : Prop :=
  ∃ fs, fs.Perm (stubbable o) ∧
    List.Forall₂ (IsStubOf (declared o)) ((declared o).filter Declared.isStub) fs

/-- The number of classes that a function is a method of, going by their names. -/
def ownerCount (o : Outline) (f : FunctionDecl) : Nat :=
  o.classes.countP fun c => f.owner == some c.name

theorem length_stubs_of_stubbedOnce {o : Outline} (h : StubbedOnce o) :
    ((declared o).filter Declared.isStub).length = (stubbable o).length := by
  obtain ⟨fs, hperm, hstubs⟩ := h
  rw [hstubs.length_eq, hperm.length_eq]

theorem ownerCount_eq_zero {o : Outline} {f : FunctionDecl} (h : f.owner.isSome = false) :
    ownerCount o f = 0 := by
  have hnone : f.owner = none := by simpa using h
  simp [ownerCount, hnone]

/-- If each method is one of some class, then one stub each means that it is one of no other
class. -/
theorem stubbedOnce_iff_ownerCount {o : Outline}
    (h : ∀ f ∈ o.functions, f.owner.isSome = true → 1 ≤ ownerCount o f) :
    StubbedOnce o ↔ ∀ f ∈ o.functions, f.owner.isSome = true → ownerCount o f = 1 := by
  have hnone : ∀ f ∈ o.functions, f.owner.isSome = false → ownerCount o f = 0 :=
    fun _ _ => ownerCount_eq_zero
  have hperm : (o.classes.flatMap fun c => o.methodsOf c.name).Perm
      (o.functions.flatMap fun f => List.replicate (ownerCount o f) f) :=
    flatMap_filter_perm (fun (c : ClassDecl) (f : FunctionDecl) => f.owner == some c.name) _ _
  constructor
  · intro honce
    have hlength := length_stubs_of_stubbedOnce honce
    rw [(stubs_declared o).length_eq, stubbable, List.length_append, List.length_append,
      hperm.length_eq, List.length_flatMap] at hlength
    simp only [List.length_replicate] at hlength
    exact (sum_eq_length_filter_iff hnone h).2.1 (Nat.add_right_cancel hlength)
  · intro hone
    refine ⟨_, ?_, stubs_declared o⟩
    rw [stubbable, ← flatMap_replicate_eq_filter hnone hone]
    exact hperm.append_right _

/-- In the skeleton of a tree each stubbed function has one stub exactly if no class shares its name
with one that has methods. -/
theorem stubbedOnce_ofTree_iff (lines : List (List Char)) (body : List Python.Stmt) :
    let o := Outline.ofTree lines body
    StubbedOnce o ↔ ∀ f ∈ o.functions, ∀ className, f.owner = some className →
      (o.classes.filter fun c => c.name == className).length = 1 := by
  intro o
  have hcount {f : FunctionDecl} {className : String} (howner : f.owner = some className)
      (o : Outline) : ownerCount o f = (o.classes.filter fun c => c.name == className).length := by
    rw [ownerCount, ← List.countP_eq_length_filter, howner]
    refine List.countP_congr fun c _ => ?_
    rw [beq_iff_eq, beq_iff_eq, Option.some_inj, eq_comm]
  rw [stubbedOnce_iff_ownerCount]
  · refine forall₂_congr fun f _ => ?_
    rw [Option.isSome_iff_exists]
    constructor
    · intro hone className howner
      rw [← hcount howner]
      exact hone ⟨className, howner⟩
    · rintro hone ⟨className, howner⟩
      rw [hcount howner]
      exact hone className howner
  · intro f hf hsome
    obtain ⟨className, howner⟩ := Option.isSome_iff_exists.1 hsome
    obtain ⟨c, hc, hname⟩ := Outline.exists_class_of_owner hf howner
    exact List.countP_pos_iff.2 ⟨c, hc, by rw [howner, hname, beq_self_eq_true]⟩

/-- Behind its heading the skeleton of a file is the texts of its declarations.  These are one type
for each class, and the stubs of the methods found for each class and of the top-level functions:
one for each function exactly if no class of the file shares its name with one that has methods. -/
theorem declared_stubbedOnce_iff {text : List Char} {o : Outline}
    (h : Outline.ofText text = .ok o) :
    (∀ module fileName, (render module fileName o).toList =
      heading module fileName o ++ (declared o).flatMap fun d => d.text.toList) ∧
    List.Forall₂ IsTypeOf ((declared o).filter Declared.isType) o.classes ∧
    List.Forall₂ (IsStubOf (declared o)) ((declared o).filter Declared.isStub)
      ((o.classes.flatMap fun c => o.methodsOf c.name) ++ o.topLevelFunctions) ∧
    (StubbedOnce o ↔ ∀ f ∈ o.functions, ∀ className, f.owner = some className →
      (o.classes.filter fun c => c.name == className).length = 1) := by
  obtain ⟨body, -, rfl⟩ := Outline.ofText_eq_ok_iff.1 h
  exact ⟨fun module fileName => toList_render_declared module fileName _, types_declared _,
    stubs_declared _, stubbedOnce_ofTree_iff _ body⟩

/-- A class with a function, one in it, and a function with another one in it. -/
theorem declared_stubbedOnce_nested :
    let text := "class A:\n    def __init__(self):\n        pass\n\n    class B:\n" ++
      "        def f(self):\n            pass\n\ndef f():\n    def g():\n        pass\n"
    ∃ o, Outline.ofText text.toList = .ok o ∧
      (stubbable o).map (·.qualifiedName) = ["A.__init__", "B.f", "f"] ∧ StubbedOnce o := by
  intro text
  have hrun : (Python.parse? text.toList).any (fun body =>
      let o := Outline.ofTree (Text.lines text.toList) body
      decide ((stubbable o).map (·.qualifiedName) = ["A.__init__", "B.f", "f"] ∧
        ∀ f ∈ o.functions, ∀ className ∈ f.owner,
          (o.classes.filter fun c => c.name == className).length = 1)) = true := by
    decide +kernel
  obtain ⟨body, hparse, hrun⟩ := (Option.any_eq_true _ _).1 hrun
  obtain ⟨hnames, hone⟩ := of_decide_eq_true hrun
  have houtline := Outline.ofText_eq_ok_iff.2 ⟨body, hparse, rfl⟩
  exact ⟨_, houtline, hnames, (declared_stubbedOnce_iff houtline).2.2.2.2 hone⟩

/-- A class that is declared twice. -/
theorem stubbedOnce_fails_repeated :
    let text := "class A:\n    def f(self):\n        pass\n\n" ++
      "class A:\n    def g(self):\n        pass\n"
    ∃ o, Outline.ofText text.toList = .ok o ∧ (stubbable o).length = 2 ∧
      ((declared o).filter Declared.isStub).length = 4 ∧ ¬StubbedOnce o := by
  intro text
  have hrun : (Python.parse? text.toList).any (fun body =>
      let o := Outline.ofTree (Text.lines text.toList) body
      decide ((stubbable o).length = 2 ∧ ((declared o).filter Declared.isStub).length = 4)) =
        true := by
    decide +kernel
  obtain ⟨body, hparse, hrun⟩ := (Option.any_eq_true _ _).1 hrun
  obtain ⟨hstubbable, hstubs⟩ := of_decide_eq_true hrun
  refine ⟨_, Outline.ofText_eq_ok_iff.2 ⟨body, hparse, rfl⟩, hstubbable, hstubs, fun honce => ?_⟩
  have hlength := length_stubs_of_stubbedOnce honce
  omega

end Recast.Go.Skeleton
