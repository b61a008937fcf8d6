/-
  Proofs/Outline/Methods.lean --- which functions of a file count as the methods of a class.

  The class statements of a file (`bodyClasses`) and the functions that stand directly in the body of
  each (`ClassStmt.functions`) are read off the tree.  The analysis finds methods by the name of
  their class: in the part of the file that the class takes up for its own record, and in the whole
  file for the list of its methods.  Both agree with the tree exactly where no other class of the
  same name has functions there.
-/
import Mathlib.Data.List.Basic
import Recast.Proofs.Outline.Names

set_option autoImplicit false

namespace Recast.Outline

open Recast.Python

/-! ## Classes and functions of the tree -/

/-- A class statement. -/
structure ClassStmt where
  line : Nat
  name : Name
  bases : List String
  body : List Stmt

mutual

/-- The class statements in a statement, at any depth. -/
def stmtClasses : Stmt → List ClassStmt
  | .imports _ => []
  | .importsFrom _ _ => []
  | .expression _ _ => []
  | .plain _ => []
  | .function _ _ _ _ body _ => bodyClasses body
  | .classDef _ line name bases body => ⟨line, name, bases, body⟩ :: bodyClasses body
  | .compound clauses => clausesClasses clauses

/-- The class statements in a list of statements. -/
def bodyClasses : List Stmt → List ClassStmt
  | [] => []
  | s :: ss => stmtClasses s ++ bodyClasses ss

/-- The class statements in a clause; those in a closed one do not count. -/
def clauseClasses : Clause → List ClassStmt
  | .mk true _ body => bodyClasses body
  | .mk false _ _ => []

/-- The class statements in a list of clauses. -/
def clausesClasses : List Clause → List ClassStmt
  | [] => []
  | c :: cs => clauseClasses c ++ clausesClasses cs

end

section Functions

variable (lines : List (List Char)) (scope : Scope) (everywhere : Bool)

mutual

/-- The functions that a statement declares directly in a scope, at any depth of control flow: in
open clauses, or everywhere. -/
def stmtFunctions : Stmt → List FunctionDecl
  | .imports _ => []
  | .importsFrom _ _ => []
  | .expression _ _ => []
  | .plain _ => []
  | .function _ line name params body endLine =>
    [functionDecl scope name.text params (documentation lines line body) line endLine]
  | .classDef _ _ _ _ _ => []
  | .compound clauses => clausesFunctions clauses

/-- The functions that a list of statements declares directly in a scope. -/
def bodyFunctions : List Stmt → List FunctionDecl
  | [] => []
  | s :: ss => stmtFunctions s ++ bodyFunctions ss

/-- The functions that a clause declares directly in a scope. -/
def clauseFunctions : Clause → List FunctionDecl
  | .mk isOpen _ body => if isOpen || everywhere then bodyFunctions body else []

/-- The functions that a list of clauses declares directly in a scope. -/
def clausesFunctions : List Clause → List FunctionDecl
  | [] => []
  | c :: cs => clauseFunctions c ++ clausesFunctions cs

end

end Functions

namespace ClassStmt

variable (lines : List (List Char)) (c : ClassStmt)

/-- The functions directly in the body of a class, in the order of the file. -/
def functions : List FunctionDecl := bodyFunctions lines (.inClass c.name.text) true c.body

/-- Those of them that are in no closed clause. -/
def shown : List FunctionDecl := bodyFunctions lines (.inClass c.name.text) false c.body

/-- What is declared in the body of a class, at any depth. -/
def inner : Declarations := bodyDeclarations lines (.inClass c.name.text) c.body

/-- The record of a class. -/
def decl : ClassDecl :=
  ⟨c.name.text, c.bases, ownedNames c.name.text (c.inner lines).functions,
    documentation lines c.line c.body, lineWord c.line⟩

end ClassStmt

/-- The class that functions of a scope are in. -/
def Scope.className? : Scope → Option String
  | .inClass name => some name
  | .file | .inFunction _ => none

theorem className?_file : Scope.file.className? = none := rfl

theorem className?_inClass (name : String) : (Scope.inClass name).className? = some name := rfl

theorem className?_inFunction (qualifiedName : String) :
    (Scope.inFunction qualifiedName).className? = none := rfl

theorem owner_functionDecl (scope : Scope) (name : String) (params : List String)
    (doc : Option String) (startLine endLine : Nat) :
    (functionDecl scope name params doc startLine endLine).owner = scope.className? := by
  cases scope <;> rfl

/-- The records of the functions that are declared. -/
def Declarations.records (d : Declarations) : List FunctionDecl := d.functions.map (·.1)

theorem records_append (a b : Declarations) : (a ++ b).records = a.records ++ b.records :=
  List.map_append

/-! ## Induction over the tree -/

variable {lines : List (List Char)}

/-- A property of what is declared in a part of a scope, the classes of the part and the functions
directly in the scope, that goes over from parts to the whole. -/
structure Gathers (lines : List (List Char))
    (P : Scope → Declarations → List ClassStmt → List FunctionDecl → Prop) : Prop where
  none : ∀ scope imports, P scope { imports } [] []
  append : ∀ {scope d d' cs cs' fs fs'}, P scope d cs fs → P scope d' cs' fs' →
    P scope (d ++ d') (cs ++ cs') (fs ++ fs')
  function : ∀ scope decl body,
    let nested := Scope.inFunction decl.qualifiedName
    let inner := bodyDeclarations lines nested body
    decl.owner = scope.className? →
    P nested inner (bodyClasses body) (bodyFunctions lines nested false body) →
    P scope { inner with functions := (decl, body) :: inner.functions } (bodyClasses body) [decl]
  classStmt : ∀ scope (c : ClassStmt),
    P (.inClass c.name.text) (c.inner lines) (bodyClasses c.body) (c.shown lines) →
    P scope { c.inner lines with classes := c.decl lines :: (c.inner lines).classes }
      (c :: bodyClasses c.body) []

namespace Gathers

variable {P : Scope → Declarations → List ClassStmt → List FunctionDecl → Prop}

mutual

theorem stmt (h : Gathers lines P) (scope : Scope) : (s : Stmt) →
    P scope (stmtDeclarations lines scope s) (stmtClasses s) (stmtFunctions lines scope false s)
  | .imports _ => h.none scope _
  | .importsFrom _ _ => h.none scope _
  | .expression _ _ => h.none scope _
  | .plain _ => h.none scope _
  | .function _ _ _ _ body _ => h.function scope _ body (owner_functionDecl ..) (h.body _ body)
  | .classDef _ line name bases body =>
    h.classStmt scope ⟨line, name, bases, body⟩ (h.body (.inClass name.text) body)
  | .compound clauses => h.clauses scope clauses

theorem body (h : Gathers lines P) (scope : Scope) : (body : List Stmt) →
    P scope (bodyDeclarations lines scope body) (bodyClasses body)
      (bodyFunctions lines scope false body)
  | [] => h.none scope _
  | s :: ss => h.append (h.stmt scope s) (h.body scope ss)

theorem clause (h : Gathers lines P) (scope : Scope) : (c : Clause) →
    P scope (clauseDeclarations lines scope c) (clauseClasses c)
      (clauseFunctions lines scope false c)
  | .mk true _ body => h.body scope body
  | .mk false _ _ => h.none scope _

theorem clauses (h : Gathers lines P) (scope : Scope) : (cs : List Clause) →
    P scope (clausesDeclarations lines scope cs) (clausesClasses cs)
      (clausesFunctions lines scope false cs)
  | [] => h.none scope _
  | c :: cs => h.append (h.clause scope c) (h.clauses scope cs)

end

end Gathers

section Parts

variable (lines)

/-- The classes of a part have one record each. -/
theorem classes_bodyDeclarations (scope : Scope) (body : List Stmt) :
    (bodyDeclarations lines scope body).classes = (bodyClasses body).map (ClassStmt.decl lines) := by
  have h : Gathers lines fun _ d cs _ => d.classes = cs.map (ClassStmt.decl lines) := by
    refine ⟨fun _ _ => rfl, fun h h' => ?_, fun _ _ _ _ h => h, fun _ _ h => congrArg _ h⟩
    rw [List.map_append, ← h, ← h']
    rfl
  exact h.body scope body

/-- The functions directly in a scope are owned by its class. -/
theorem owner_of_mem_bodyFunctions (scope : Scope) (body : List Stmt) :
    ∀ f ∈ bodyFunctions lines scope false body, f.owner = scope.className? := by
  have h : Gathers lines fun scope _ _ fs => ∀ f ∈ fs, f.owner = scope.className? :=
    ⟨fun _ _ => nofun, fun h h' => List.forall_mem_append.2 ⟨h, h'⟩,
      fun _ _ _ h _ => List.forall_mem_singleton.2 h, fun _ _ _ => nofun⟩
  exact h.body scope body

/-- The functions directly in a scope are recorded in their order. -/
theorem bodyFunctions_sublist (scope : Scope) (body : List Stmt) :
    (bodyFunctions lines scope false body).Sublist (bodyDeclarations lines scope body).records := by
  have h : Gathers lines fun _ d _ fs => fs.Sublist d.records := by
    refine ⟨fun _ _ => .slnil, fun h h' => ?_, fun _ decl _ _ _ => ?_,
      fun _ _ _ => List.nil_sublist _⟩
    · rw [records_append]
      exact h.append h'
    · exact (List.nil_sublist _).cons_cons decl
  exact h.body scope body

/-- What is declared in a class is recorded in its order. -/
theorem inner_sublist (scope : Scope) (body : List Stmt) :
    ∀ c ∈ bodyClasses body,
      (c.inner lines).records.Sublist (bodyDeclarations lines scope body).records := by
  have h : Gathers lines fun _ d cs _ => ∀ c ∈ cs, (c.inner lines).records.Sublist d.records := by
    refine ⟨fun _ _ => nofun, fun h h' => ?_, fun _ _ _ _ h c hc => (h c hc).cons _, fun _ c h => ?_⟩
    · rw [records_append]
      refine List.forall_mem_append.2 ⟨fun c hc => ?_, fun c hc => ?_⟩
      · exact (h c hc).trans (List.sublist_append_left _ _)
      · exact (h' c hc).trans (List.sublist_append_right _ _)
    · exact List.forall_mem_cons.2 ⟨List.Sublist.refl _, h⟩
  exact h.body scope body

/-! ## Functions by the name of their class -/

/-- The functions that classes of a name own. -/
def ownedBy (className : String) (fs : List FunctionDecl) : List FunctionDecl :=
  fs.filter fun f => f.owner == some className

theorem ownedBy_append (className : String) (fs gs : List FunctionDecl) :
    ownedBy className (fs ++ gs) = ownedBy className fs ++ ownedBy className gs :=
  List.filter_append ..

/-- The functions directly in a scope are all owned by its class, and by no other one. -/
theorem ownedBy_bodyFunctions (className : String) (scope : Scope) (body : List Stmt) :
    ownedBy className (bodyFunctions lines scope false body) =
      if scope.className? = some className then bodyFunctions lines scope false body else [] := by
  have howner := owner_of_mem_bodyFunctions lines scope body
  split
  · next h => exact List.filter_eq_self.2 fun f hf => beq_iff_eq.2 ((howner f hf).trans h)
  · next h =>
    exact List.filter_eq_nil_iff.2 fun f hf heq => h ((howner f hf).symm.trans (beq_iff_eq.1 heq))

/-- The functions that classes of a name own in a part: those directly in the scope of the part, and
those directly in the classes of the part. -/
theorem ownedBy_records_perm (className : String) (scope : Scope) (body : List Stmt) :
    (ownedBy className (bodyDeclarations lines scope body).records).Perm
      (ownedBy className (bodyFunctions lines scope false body) ++
        (bodyClasses body).flatMap fun c => ownedBy className (c.shown lines)) := by
  have h : Gathers lines fun _ d cs fs => (ownedBy className d.records).Perm
      (ownedBy className fs ++ cs.flatMap fun c => ownedBy className (c.shown lines)) := by
    refine ⟨fun _ _ => .nil, fun h h' => ?_, fun scope decl body _ h => ?_, fun _ _ h => h⟩
    · rw [records_append, ownedBy_append, ownedBy_append, List.flatMap_append]
      refine (h.append h').trans ?_
      rw [List.append_assoc, List.append_assoc]
      exact List.Perm.append_left _ (List.perm_append_comm_assoc ..)
    · rw [ownedBy_bodyFunctions, className?_inFunction, if_neg (Option.some_ne_none _).symm,
        List.nil_append] at h
      change (ownedBy className ([decl] ++ (bodyDeclarations lines _ body).records)).Perm _
      rw [ownedBy_append]
      exact h.append_left _
  exact h.body scope body

end Parts

/-! ## Methods -/

/-- A list that has the members of its part and more is that part if there are no more. -/
theorem eq_part_iff {α : Type} {whole part rest : List α} (hperm : whole.Perm (part ++ rest))
    (hsublist : part.Sublist whole) : whole = part ↔ rest = [] := by
  have hlength := hperm.length_eq
  rw [List.length_append] at hlength
  constructor
  · rintro rfl
    exact List.length_eq_zero_iff.1 (by omega)
  · rintro rfl
    exact (hsublist.eq_of_length hlength.symm).symm

theorem ownedBy_shown (className : String) (c : ClassStmt) :
    ownedBy className (c.shown lines) =
      if c.name.text = className then c.shown lines else [] := by
  simp only [ClassStmt.shown, ownedBy_bodyFunctions, className?_inClass, Option.some.injEq]

/-- Among classes none but those of the name own functions of a class of that name. -/
theorem flatMap_ownedBy_shown_eq_nil_iff {className : String} {cs : List ClassStmt} :
    (cs.flatMap fun c => ownedBy className (c.shown lines)) = [] ↔
      ∀ c ∈ cs, c.name.text = className → c.shown lines = [] := by
  rw [List.flatMap_eq_nil_iff]
  refine forall₂_congr fun c _ => ?_
  rw [ownedBy_shown, ite_eq_right_iff]

/-- A function is owned by the name of some class of the file. -/
theorem exists_class_of_owner {body : List Stmt} {f : FunctionDecl} {className : String}
    (h : f ∈ (ofTree lines body).functions) (howner : f.owner = some className) :
    ∃ c ∈ (ofTree lines body).classes, c.name = className := by
  have hmem : f ∈ ownedBy className (bodyDeclarations lines .file body).records :=
    List.mem_filter.2 ⟨h, beq_iff_eq.2 howner⟩
  rw [(ownedBy_records_perm lines className .file body).mem_iff, ownedBy_bodyFunctions,
    className?_file, if_neg (Option.some_ne_none _).symm, List.nil_append] at hmem
  obtain ⟨c, hc, hf⟩ := List.mem_flatMap.1 hmem
  rw [ownedBy_shown] at hf
  split at hf
  · next hname =>
    refine ⟨c.decl lines, ?_, hname⟩
    change _ ∈ (bodyDeclarations lines .file body).classes
    rw [classes_bodyDeclarations]
    exact List.mem_map_of_mem hc
  · cases hf

theorem methods_decl (c : ClassStmt) :
    (c.decl lines).methods = (ownedBy c.name.text (c.inner lines).records).map (·.name) := by
  change ownedNames _ _ = _
  rw [ownedNames, ownedBy, Declarations.records, List.filter_map, List.map_map]
  rfl

/-- A class owns the functions directly in it, in their order. -/
theorem shown_sublist_inner (lines : List (List Char)) (c : ClassStmt) :
    (c.shown lines).Sublist (ownedBy c.name.text (c.inner lines).records) := by
  have h := (bodyFunctions_sublist lines (.inClass c.name.text) c.body).filter
    fun f => f.owner == some c.name.text
  rwa [← ownedBy, ← ownedBy, ← ClassStmt.shown, ownedBy_shown, if_pos rfl] at h

theorem inner_sublist_file {body : List Stmt} {c : ClassStmt} (h : c ∈ bodyClasses body) :
    (ownedBy c.name.text (c.inner lines).records).Sublist
      (ownedBy c.name.text (bodyDeclarations lines .file body).records) :=
  (inner_sublist lines .file body c h).filter _

/-- The functions that a class owns in its own part of the file are those directly in it if no class
of its name in it has any. -/
theorem ownedBy_inner_eq_iff (c : ClassStmt) :
    ownedBy c.name.text (c.inner lines).records = c.shown lines ↔
      ∀ nested ∈ bodyClasses c.body, nested.name.text = c.name.text → nested.shown lines = [] := by
  have hperm := ownedBy_records_perm lines c.name.text (.inClass c.name.text) c.body
  rw [ownedBy_bodyFunctions, className?_inClass, if_pos rfl] at hperm
  exact (eq_part_iff hperm (shown_sublist_inner lines c)).trans flatMap_ownedBy_shown_eq_nil_iff

/-- The functions that classes of a name own in a file are those directly in one of them if no other
one has any. -/
theorem ownedBy_file_eq_iff {body : List Stmt} {before after : List ClassStmt} {c : ClassStmt}
    (h : bodyClasses body = before ++ c :: after) :
    ownedBy c.name.text (bodyDeclarations lines .file body).records = c.shown lines ↔
      ∀ other ∈ before ++ after, other.name.text = c.name.text → other.shown lines = [] := by
  have hmem : c ∈ bodyClasses body := h ▸ List.mem_append_right _ (.head _)
  have hperm := ownedBy_records_perm lines c.name.text .file body
  rw [ownedBy_bodyFunctions, className?_file, if_neg (Option.some_ne_none _).symm,
    List.nil_append, h, List.flatMap_append, List.flatMap_cons, ownedBy_shown, if_pos rfl] at hperm
  have hothers := hperm.trans (List.perm_append_comm_assoc _ _ _)
  rw [← List.flatMap_append] at hothers
  exact (eq_part_iff hothers ((shown_sublist_inner lines c).trans (inner_sublist_file hmem))).trans
    flatMap_ownedBy_shown_eq_nil_iff

/-- In the outline of a tree the record of a class lists the functions directly in its body, and the
list of its methods has just these, exactly if no other class of its name has any; what the record
lists is told by the part of the file that the class takes up.  Functions in closed clauses have no
records at all. -/
theorem methodsOf_ofTree (lines : List (List Char)) (body : List Stmt) :
    (ofTree lines body).classes = (bodyClasses body).map (ClassStmt.decl lines) ∧
      ∀ before c after, bodyClasses body = before ++ c :: after →
        c.shown lines = c.functions lines →
        ((c.decl lines).methods = (c.functions lines).map (·.name) ↔
          ∀ nested ∈ bodyClasses c.body, nested.name.text = c.name.text →
            nested.shown lines = []) ∧
        ((c.decl lines).methods = (c.functions lines).map (·.name) ∧
            (ofTree lines body).methodsOf (c.decl lines).name = c.functions lines ↔
          ∀ other ∈ before ++ after, other.name.text = c.name.text → other.shown lines = []) := by
  refine ⟨classes_bodyDeclarations _ .file body, fun before c after hsplit hall => ?_⟩
  have hpart := shown_sublist_inner lines c
  -- Names that are as many as the functions directly in the class are those of these functions.
  have hmethods : (c.decl lines).methods = (c.functions lines).map (·.name) ↔
      ownedBy c.name.text (c.inner lines).records = c.shown lines := by
    rw [methods_decl, ← hall]
    refine ⟨fun heq => ?_, congrArg _⟩
    have hlength := congrArg List.length heq
    rw [List.length_map, List.length_map] at hlength
    exact (hpart.eq_of_length hlength.symm).symm
  refine ⟨hmethods.trans (ownedBy_inner_eq_iff c), ?_⟩
  rw [hmethods, ← hall, ← ownedBy_file_eq_iff hsplit]
  refine ⟨And.right, fun heq => ⟨?_, heq⟩⟩
  have hmem : c ∈ bodyClasses body := hsplit ▸ List.mem_append_right _ (.head _)
  exact (inner_sublist_file hmem |>.trans (heq ▸ .refl _)).eq_of_length_le hpart.length_le

/-- So it is in a text, whose outline is that of the tree it parses to. -/
theorem methodsOf_eq_iff {text : List Char} {o : Outline} (h : ofText text = .ok o) :
    ∃ body, Python.parse? text = some body ∧
      let lines := Text.lines text
      o.classes = (bodyClasses body).map (ClassStmt.decl lines) ∧
      ∀ before c after, bodyClasses body = before ++ c :: after →
        c.shown lines = c.functions lines →
        ((c.decl lines).methods = (c.functions lines).map (·.name) ↔
          ∀ nested ∈ bodyClasses c.body, nested.name.text = c.name.text →
            nested.shown lines = []) ∧
        ((c.decl lines).methods = (c.functions lines).map (·.name) ∧
            o.methodsOf (c.decl lines).name = c.functions lines ↔
          ∀ other ∈ before ++ after, other.name.text = c.name.text → other.shown lines = []) := by
  obtain ⟨body, hparse, rfl⟩ := ofText_eq_ok_iff.1 h
  exact ⟨body, hparse, methodsOf_ofTree _ body⟩

/-- A class with two functions of one name, and another class in it. -/
theorem methodsOf_eq_conditional :
    let text := "class A:\n    def f(self):\n        pass\n\n    if fast:\n        def g(self):\n" ++
      "            pass\n    else:\n        def g(self, x):\n            pass\n\n" ++
      "    class B:\n        def f(self):\n            def h():\n                pass\n"
    let lines := Text.lines text.toList
    ∃ o body a b, ofText text.toList = .ok o ∧ Python.parse? text.toList = some body ∧
      bodyClasses body = [a, b] ∧ a.shown lines = a.functions lines ∧
      (a.functions lines).map (·.name) = ["f", "g", "g"] ∧
      (a.decl lines).methods = (a.functions lines).map (·.name) ∧
      o.methodsOf (a.decl lines).name = a.functions lines := by
  intro text lines
  have hrun : (Python.parse? text.toList).any (fun body =>
      decide ((bodyClasses body).length = 2 ∧ ∀ a ∈ (bodyClasses body).take 1,
        a.shown lines = a.functions lines ∧ (a.functions lines).map (·.name) = ["f", "g", "g"] ∧
        ∀ other ∈ (bodyClasses body).drop 1, other.name.text = a.name.text →
          other.shown lines = [])) = true := by
    decide +kernel
  obtain ⟨body, hparse, hrun⟩ := (Option.any_eq_true _ _).1 hrun
  obtain ⟨hlength, hfirst⟩ := of_decide_eq_true hrun
  obtain ⟨a, b, hclasses⟩ := List.length_eq_two.1 hlength
  rw [hclasses] at hfirst
  obtain ⟨hall, hnames, hothers⟩ := hfirst a (List.mem_singleton_self a)
  have houtline := ofText_eq_ok_iff.2 ⟨body, hparse, rfl⟩
  obtain ⟨body', hparse', -, hmethods⟩ := methodsOf_eq_iff houtline
  cases hparse.symm.trans hparse'
  obtain ⟨hlisted, howned⟩ := (hmethods [] a [b] hclasses hall).2.2 hothers
  exact ⟨_, body, a, b, houtline, hparse, hclasses, hall, hnames, hlisted, howned⟩

/-- A class in a class of the same name. -/
theorem methodsOf_fails_nested :
    let text := "class A:\n    def f(self):\n        pass\n\n" ++
      "    class A:\n        def g(self):\n            pass\n"
    let lines := Text.lines text.toList
    ∃ o body a b, ofText text.toList = .ok o ∧ Python.parse? text.toList = some body ∧
      bodyClasses body = [a, b] ∧ o.classes = [a.decl lines, b.decl lines] ∧
      (∀ c ∈ [a, b], c.shown lines = c.functions lines ∧
        o.methodsOf (c.decl lines).name ≠ c.functions lines) ∧
      (a.decl lines).methods ≠ (a.functions lines).map (·.name) := by
  intro text lines
  have hrun : (Python.parse? text.toList).any (fun body =>
      decide ((bodyClasses body).length = 2 ∧
        (∀ c ∈ bodyClasses body, c.shown lines = c.functions lines ∧
          (ofTree lines body).methodsOf (c.decl lines).name ≠ c.functions lines) ∧
        ∀ a ∈ (bodyClasses body).take 1,
          (a.decl lines).methods ≠ (a.functions lines).map (·.name))) = true := by
    decide +kernel
  obtain ⟨body, hparse, hrun⟩ := (Option.any_eq_true _ _).1 hrun
  obtain ⟨hlength, howned, hlisted⟩ := of_decide_eq_true hrun
  obtain ⟨a, b, hclasses⟩ := List.length_eq_two.1 hlength
  rw [hclasses] at howned hlisted
  refine ⟨_, body, a, b, ofText_eq_ok_iff.2 ⟨body, hparse, rfl⟩, hparse, hclasses, ?_, howned,
    hlisted a (List.mem_singleton_self a)⟩
  change (bodyDeclarations lines .file body).classes = _
  rw [classes_bodyDeclarations, hclasses]
  rfl

end Recast.Outline
