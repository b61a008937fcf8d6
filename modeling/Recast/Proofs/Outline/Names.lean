/-
  Proofs/Outline/Names.lean --- what an outline calls a class or a function is a Python name.
-/
import Recast.Outline.OfText

set_option autoImplicit false

namespace Recast.Outline

open Recast.Python

/-- An outline whose classes and functions go by Python names. -/
structure Named (o : Outline) : Prop where
  classes : ∀ c ∈ o.classes, isName c.name.toList = true
  functions : ∀ f ∈ o.functions, isName f.name.toList = true

theorem isName_text (n : Name) : isName n.text.toList = true := by
  rw [Name.text, String.toList_ofList]
  exact n.wellFormed

@[simp] theorem name_functionDecl (scope : Scope) (name : String) (params : List String)
    (doc : Option String) (startLine endLine : Nat) :
    (functionDecl scope name params doc startLine endLine).name = name := by
  cases scope <;> rfl

/-- Properties that every declaration gets when it is made. -/
structure Given (P : ClassDecl → Prop) (Q : FunctionDecl → Prop) : Prop where
  ofClass : ∀ (name : Name) bases methods doc line,
    P ⟨name.text, bases, methods, doc, lineWord line⟩
  ofFunction : ∀ scope (name : Name) params doc startLine endLine,
    Q (functionDecl scope name.text params doc startLine endLine)

namespace Declarations

/-- Declarations that all have properties. -/
structure All (P : ClassDecl → Prop) (Q : FunctionDecl → Prop) (d : Declarations) : Prop where
  classes : ∀ c ∈ d.classes, P c
  functions : ∀ f ∈ d.functions, Q f.1

namespace All

variable {P : ClassDecl → Prop} {Q : FunctionDecl → Prop}

theorem none (imports : List String) : All P Q { imports := imports } :=
  ⟨fun _ h => absurd h List.not_mem_nil, fun _ h => absurd h List.not_mem_nil⟩

theorem append {a b : Declarations} (h : All P Q a) (h' : All P Q b) : All P Q (a ++ b) := by
  constructor
  · intro c hc
    exact (List.mem_append.1 hc).elim (h.classes c) (h'.classes c)
  · intro f hf
    exact (List.mem_append.1 hf).elim (h.functions f) (h'.functions f)

end All

end Declarations

variable {P : ClassDecl → Prop} {Q : FunctionDecl → Prop}

mutual

theorem all_stmt (h : Given P Q) (lines : List (List Char)) (scope : Scope) :
    (s : Stmt) → (stmtDeclarations lines scope s).All P Q
  | .imports _ => by
    unfold stmtDeclarations
    exact .none _
  | .importsFrom _ _ => by
    unfold stmtDeclarations
    exact .none _
  | .expression _ _ => by
    unfold stmtDeclarations
    exact .none _
  | .plain _ => by
    unfold stmtDeclarations
    exact .none _
  | .function _ line name params body endLine => by
    unfold stmtDeclarations
    have inner := all_body h lines (.inFunction (functionDecl scope name.text params
      (documentation lines line body) line endLine).qualifiedName) body
    refine ⟨inner.classes, fun f hf => ?_⟩
    rcases List.mem_cons.1 hf with rfl | hf
    · exact h.ofFunction ..
    · exact inner.functions f hf
  | .classDef _ line name bases body => by
    unfold stmtDeclarations
    have inner := all_body h lines (.inClass name.text) body
    refine ⟨fun c hc => ?_, inner.functions⟩
    rcases List.mem_cons.1 hc with rfl | hc
    · exact h.ofClass ..
    · exact inner.classes c hc
  | .compound clauses => by
    unfold stmtDeclarations
    exact all_clauses h lines scope clauses

theorem all_body (h : Given P Q) (lines : List (List Char)) (scope : Scope) :
    (body : List Stmt) → (bodyDeclarations lines scope body).All P Q
  | [] => by
    unfold bodyDeclarations
    exact .none _
  | s :: ss => by
    unfold bodyDeclarations
    exact (all_stmt h lines scope s).append (all_body h lines scope ss)

theorem all_clause (h : Given P Q) (lines : List (List Char)) (scope : Scope) :
    (c : Clause) → (clauseDeclarations lines scope c).All P Q
  | .mk true _ body => by
    unfold clauseDeclarations
    exact all_body h lines scope body
  | .mk false _ _ => by
    unfold clauseDeclarations
    exact .none _

theorem all_clauses (h : Given P Q) (lines : List (List Char)) (scope : Scope) :
    (cs : List Clause) → (clausesDeclarations lines scope cs).All P Q
  | [] => by
    unfold clausesDeclarations
    exact .none _
  | c :: cs => by
    unfold clausesDeclarations
    exact (all_clause h lines scope c).append (all_clauses h lines scope cs)

end

/-- What every declaration gets when it is made, those in an outline have. -/
theorem all_ofTree (h : Given P Q) (lines : List (List Char)) (body : List Stmt) :
    (∀ c ∈ (ofTree lines body).classes, P c) ∧ ∀ f ∈ (ofTree lines body).functions, Q f := by
  have hdecls := all_body h lines .file body
  refine ⟨hdecls.classes, fun f hf => ?_⟩
  obtain ⟨decl, hdecl, rfl⟩ := List.mem_map.1 hf
  exact hdecls.functions decl hdecl

/-- A text has an outline if it can be parsed: that of its statements. -/
theorem ofText_eq_ok_iff {text : List Char} {o : Outline} : ofText text = .ok o ↔
    ∃ body, Python.parse? text = some body ∧ o = ofTree (Text.lines text) body := by
  unfold ofText
  cases Python.parse? text with
  | some body => simp [eq_comm]
  | none => simp

theorem exists_ofTree_of_ofBytes {content : ByteArray} {o : Outline} (h : ofBytes content = .ok o) :
    ∃ lines body, o = ofTree lines body := by
  unfold ofBytes at h
  split at h
  · next text _ =>
    unfold ofText at h
    split at h
    · cases h
      exact ⟨_, _, rfl⟩
    · cases h
  · cases h

/-- The outline of a parsed file goes by Python names. -/
theorem named_ofTree (lines : List (List Char)) (body : List Stmt) : (ofTree lines body).Named := by
  have hgiven : Given (fun c => isName c.name.toList = true)
      (fun f => isName f.name.toList = true) := by
    refine ⟨fun name _ _ _ _ => isName_text name, fun scope name _ _ _ _ => ?_⟩
    rw [name_functionDecl]
    exact isName_text name
  obtain ⟨hclasses, hfunctions⟩ := all_ofTree hgiven lines body
  exact ⟨hclasses, hfunctions⟩

end Recast.Outline
