/-
  Proofs/Outline/Calls.lean --- which calls the call graph of a file tells.

  A body calls a name if an expression that it evaluates itself has a call of that name in it
  (`CallsBy`); the analysis collects just the calls whose target is written without a star
  (`mem_bodyCalls`).  The graph has one entry for each qualified name, and of functions that share
  one it keeps the last.  So it tells all calls exactly where the last function has, without a star,
  every call of the others.
-/
import Recast.Proofs.Outline.Names
import Recast.Proofs.Table

set_option autoImplicit false

namespace Recast

namespace Python

/-- An expression in another one, or that one itself. -/
inductive Expr.Within : Expr → Expr → Prop where
  | self (e : Expr) : Within e e
  | object {e object : Expr} (field : Name) (h : Within e object) : Within e (.attribute object field)
  | subscripted {e object : Expr} (indices : List Expr) (h : Within e object) :
    Within e (.subscript object indices)
  | index {e index : Expr} (object : Expr) {indices : List Expr} (hmem : index ∈ indices)
      (h : Within e index) : Within e (.subscript object indices)
  | callee {e callee : Expr} (arguments : List Expr) (h : Within e callee) :
    Within e (.call callee arguments)
  | argument {e argument : Expr} (callee : Expr) {arguments : List Expr}
      (hmem : argument ∈ arguments) (h : Within e argument) : Within e (.call callee arguments)
  | field {e field : Expr} (raw : String) {fields : List Expr} (hmem : field ∈ fields)
      (h : Within e field) : Within e (.string raw fields)
  | starred {e item : Expr} (h : Within e item) : Within e (.starred item)
  | item {e item : Expr} {items : List Expr} (hmem : item ∈ items) (h : Within e item) :
    Within e (.display items)
  | operand {e operand : Expr} {operands : List Expr} (hmem : operand ∈ operands)
      (h : Within e operand) : Within e (.compound operands)

/-- An expression that a statement evaluates itself, at any depth of control flow: not inside of a
function or class that it declares, but the decorators of these count. -/
inductive Stmt.Evaluates : Stmt → Expr → Prop where
  | first (first : Expr) (others : List Expr) : Evaluates (.expression first others) first
  | other (first : Expr) {others : List Expr} {e : Expr} (hmem : e ∈ others) :
    Evaluates (.expression first others) e
  | part {parts : List Expr} {e : Expr} (hmem : e ∈ parts) : Evaluates (.plain parts) e
  | ofFunction {decorators : List Expr} {e : Expr} (hmem : e ∈ decorators) (line : Nat) (name : Name)
      (parameters : List String) (body : List Stmt) (endLine : Nat) :
    Evaluates (.function decorators line name parameters body endLine) e
  | ofClass {decorators : List Expr} {e : Expr} (hmem : e ∈ decorators) (line : Nat) (name : Name)
      (bases : List String) (body : List Stmt) :
    Evaluates (.classDef decorators line name bases body) e
  | head {clauses : List Clause} {isOpen : Bool} {heads : List Expr} {body : List Stmt}
      (hclause : .mk isOpen heads body ∈ clauses) {e : Expr} (hmem : e ∈ heads) :
    Evaluates (.compound clauses) e
  | inner {clauses : List Clause} {isOpen : Bool} {heads : List Expr} {body : List Stmt}
      (hclause : .mk isOpen heads body ∈ clauses) {s : Stmt} (hmem : s ∈ body) {e : Expr}
      (h : Evaluates s e) : Evaluates (.compound clauses) e

end Python

namespace Outline

open Recast.Python

/-- The name that the target of a call goes by, whether or not a star is in front of it. -/
def calledName : Expr → Option String
  | .starred item => calledName item
  | e => calleeName e

/-- A body calls a name, where `nameOf?` tells the names that targets of calls go by. -/
def CallsBy (nameOf? : Expr → Option String) (body : List Stmt) (name : String) : Prop :=
  ∃ s ∈ body, ∃ e, s.Evaluates e ∧ ∃ target arguments,
    Expr.Within (.call target arguments) e ∧ nameOf? target = some name

/-! ## The targets of calls -/

mutual

/-- The targets of the calls in an expression. -/
def exprTargets : Expr → List Expr
  | .name _ => []
  | .attribute object _ => exprTargets object
  | .subscript object indices => exprTargets object ++ exprListTargets indices
  | .call callee arguments => callee :: exprTargets callee ++ exprListTargets arguments
  | .string _ fields => exprListTargets fields
  | .starred item => exprTargets item
  | .display items => exprListTargets items
  | .compound operands => exprListTargets operands

/-- The targets of the calls in a list of expressions. -/
def exprListTargets : List Expr → List Expr
  | [] => []
  | e :: es => exprTargets e ++ exprListTargets es

end

mutual

/-- The targets of the calls in the expressions that a statement evaluates itself. -/
def stmtTargets : Stmt → List Expr
  | .imports _ => []
  | .importsFrom _ _ => []
  | .expression first others => exprTargets first ++ exprListTargets others
  | .plain parts => exprListTargets parts
  | .function decorators _ _ _ _ _ => exprListTargets decorators
  | .classDef decorators _ _ _ _ => exprListTargets decorators
  | .compound clauses => clausesTargets clauses

/-- The targets of the calls in a list of statements. -/
def bodyTargets : List Stmt → List Expr
  | [] => []
  | s :: ss => stmtTargets s ++ bodyTargets ss

/-- The targets of the calls in a clause. -/
def clauseTargets : Clause → List Expr
  | .mk _ heads body => exprListTargets heads ++ bodyTargets body

/-- The targets of the calls in a list of clauses. -/
def clausesTargets : List Clause → List Expr
  | [] => []
  | c :: cs => clauseTargets c ++ clausesTargets cs

end

theorem mem_exprListTargets {target : Expr} {es : List Expr} :
    target ∈ exprListTargets es ↔ ∃ e ∈ es, target ∈ exprTargets e := by
  induction es with
  | nil => simp [exprListTargets]
  | cons e es ih => simp [exprListTargets, ih]

theorem mem_bodyTargets {target : Expr} {body : List Stmt} :
    target ∈ bodyTargets body ↔ ∃ s ∈ body, target ∈ stmtTargets s := by
  induction body with
  | nil => simp [bodyTargets]
  | cons s ss ih => simp [bodyTargets, ih]

theorem mem_clausesTargets {target : Expr} {clauses : List Clause} :
    target ∈ clausesTargets clauses ↔ ∃ c ∈ clauses, target ∈ clauseTargets c := by
  induction clauses with
  | nil => simp [clausesTargets]
  | cons c cs ih => simp [clausesTargets, ih]

/-- The targets of the calls within an expression are found. -/
theorem mem_exprTargets_of_within {target e : Expr} {arguments : List Expr}
    (h : Expr.Within (.call target arguments) e) : target ∈ exprTargets e := by
  induction h with
  | self => exact .head _
  | object field _ ih => exact ih
  | subscripted indices _ ih => exact List.mem_append_left _ ih
  | index object hmem _ ih =>
    exact List.mem_append_right _ (mem_exprListTargets.2 ⟨_, hmem, ih⟩)
  | callee arguments _ ih => exact .tail _ (List.mem_append_left _ ih)
  | argument callee hmem _ ih =>
    exact .tail _ (List.mem_append_right _ (mem_exprListTargets.2 ⟨_, hmem, ih⟩))
  | field raw hmem _ ih => exact mem_exprListTargets.2 ⟨_, hmem, ih⟩
  | starred _ ih => exact ih
  | item hmem _ ih => exact mem_exprListTargets.2 ⟨_, hmem, ih⟩
  | operand hmem _ ih => exact mem_exprListTargets.2 ⟨_, hmem, ih⟩

mutual

/-- What is found is the target of a call. -/
theorem exists_within {target : Expr} : (e : Expr) → target ∈ exprTargets e →
    ∃ arguments, Expr.Within (.call target arguments) e
  | .name _, h => absurd h List.not_mem_nil
  | .attribute object field, h => by
    obtain ⟨arguments, hwithin⟩ := exists_within object h
    exact ⟨arguments, hwithin.object field⟩
  | .subscript object indices, h => by
    rcases List.mem_append.1 h with h | h
    · obtain ⟨arguments, hwithin⟩ := exists_within object h
      exact ⟨arguments, hwithin.subscripted indices⟩
    · obtain ⟨e, he, arguments, hwithin⟩ := exists_mem_within indices h
      exact ⟨arguments, hwithin.index object he⟩
  | .call callee arguments, h => by
    rcases List.mem_cons.1 h with rfl | h
    · exact ⟨arguments, .self _⟩
    · rcases List.mem_append.1 h with h | h
      · obtain ⟨inner, hwithin⟩ := exists_within callee h
        exact ⟨inner, hwithin.callee arguments⟩
      · obtain ⟨e, he, inner, hwithin⟩ := exists_mem_within arguments h
        exact ⟨inner, hwithin.argument callee he⟩
  | .string raw fields, h => by
    obtain ⟨e, he, arguments, hwithin⟩ := exists_mem_within fields h
    exact ⟨arguments, hwithin.field raw he⟩
  | .starred item, h => by
    obtain ⟨arguments, hwithin⟩ := exists_within item h
    exact ⟨arguments, hwithin.starred⟩
  | .display items, h => by
    obtain ⟨e, he, arguments, hwithin⟩ := exists_mem_within items h
    exact ⟨arguments, hwithin.item he⟩
  | .compound operands, h => by
    obtain ⟨e, he, arguments, hwithin⟩ := exists_mem_within operands h
    exact ⟨arguments, hwithin.operand he⟩

theorem exists_mem_within {target : Expr} : (es : List Expr) → target ∈ exprListTargets es →
    ∃ e ∈ es, ∃ arguments, Expr.Within (.call target arguments) e
  | [], h => absurd h List.not_mem_nil
  | e :: es, h => by
    rcases List.mem_append.1 h with h | h
    · exact ⟨e, .head _, exists_within e h⟩
    · obtain ⟨e', he', hwithin⟩ := exists_mem_within es h
      exact ⟨e', .tail _ he', hwithin⟩

end

theorem mem_exprTargets_iff {target e : Expr} :
    target ∈ exprTargets e ↔ ∃ arguments, Expr.Within (.call target arguments) e :=
  ⟨exists_within e, fun ⟨_, h⟩ => mem_exprTargets_of_within h⟩

/-- The targets in the expressions that a statement evaluates are found. -/
theorem mem_stmtTargets_of_evaluates {target e : Expr} {s : Stmt} (h : s.Evaluates e)
    (htarget : target ∈ exprTargets e) : target ∈ stmtTargets s := by
  induction h with
  | first first others => exact List.mem_append_left _ htarget
  | other first hmem =>
    exact List.mem_append_right _ (mem_exprListTargets.2 ⟨_, hmem, htarget⟩)
  | part hmem => exact mem_exprListTargets.2 ⟨_, hmem, htarget⟩
  | ofFunction hmem => exact mem_exprListTargets.2 ⟨_, hmem, htarget⟩
  | ofClass hmem => exact mem_exprListTargets.2 ⟨_, hmem, htarget⟩
  | head hclause hmem =>
    exact mem_clausesTargets.2 ⟨_, hclause,
      List.mem_append_left _ (mem_exprListTargets.2 ⟨_, hmem, htarget⟩)⟩
  | inner hclause hmem _ ih =>
    exact mem_clausesTargets.2 ⟨_, hclause,
      List.mem_append_right _ (mem_bodyTargets.2 ⟨_, hmem, ih htarget⟩)⟩

mutual

/-- What is found is in an expression that the statement evaluates. -/
theorem exists_evaluates {target : Expr} : (s : Stmt) → target ∈ stmtTargets s →
    ∃ e, s.Evaluates e ∧ target ∈ exprTargets e
  | .imports _, h => absurd h List.not_mem_nil
  | .importsFrom _ _, h => absurd h List.not_mem_nil
  | .expression first others, h => by
    rcases List.mem_append.1 h with h | h
    · exact ⟨first, .first first others, h⟩
    · obtain ⟨e, he, htarget⟩ := mem_exprListTargets.1 h
      exact ⟨e, .other first he, htarget⟩
  | .plain parts, h => by
    obtain ⟨e, he, htarget⟩ := mem_exprListTargets.1 h
    exact ⟨e, .part he, htarget⟩
  | .function decorators line name parameters body endLine, h => by
    obtain ⟨e, he, htarget⟩ := mem_exprListTargets.1 h
    exact ⟨e, .ofFunction he line name parameters body endLine, htarget⟩
  | .classDef decorators line name bases body, h => by
    obtain ⟨e, he, htarget⟩ := mem_exprListTargets.1 h
    exact ⟨e, .ofClass he line name bases body, htarget⟩
  | .compound clauses, h => exists_evaluates_clauses clauses h fun _ hclause => hclause

theorem exists_evaluates_body {target : Expr} : (body : List Stmt) → target ∈ bodyTargets body →
    ∃ s ∈ body, ∃ e, s.Evaluates e ∧ target ∈ exprTargets e
  | [], h => absurd h List.not_mem_nil
  | s :: ss, h => by
    rcases List.mem_append.1 h with h | h
    · exact ⟨s, .head _, exists_evaluates s h⟩
    · obtain ⟨s', hs', hevaluates⟩ := exists_evaluates_body ss h
      exact ⟨s', .tail _ hs', hevaluates⟩

theorem exists_evaluates_clause {target : Expr} {clauses : List Clause} : (c : Clause) →
    target ∈ clauseTargets c → c ∈ clauses →
    ∃ e, (Stmt.compound clauses).Evaluates e ∧ target ∈ exprTargets e
  | .mk isOpen heads body, h, hclause => by
    rcases List.mem_append.1 h with h | h
    · obtain ⟨e, he, htarget⟩ := mem_exprListTargets.1 h
      exact ⟨e, .head hclause he, htarget⟩
    · obtain ⟨s, hs, e, hevaluates, htarget⟩ := exists_evaluates_body body h
      exact ⟨e, .inner hclause hs hevaluates, htarget⟩

theorem exists_evaluates_clauses {target : Expr} {clauses : List Clause} : (cs : List Clause) →
    target ∈ clausesTargets cs → cs ⊆ clauses →
    ∃ e, (Stmt.compound clauses).Evaluates e ∧ target ∈ exprTargets e
  | [], h, _ => absurd h List.not_mem_nil
  | c :: cs, h, hsubset => by
    rcases List.mem_append.1 h with h | h
    · exact exists_evaluates_clause c h (hsubset (.head _))
    · exact exists_evaluates_clauses cs h fun _ hc => hsubset (.tail _ hc)

end

theorem mem_stmtTargets_iff {target : Expr} {s : Stmt} :
    target ∈ stmtTargets s ↔ ∃ e, s.Evaluates e ∧ target ∈ exprTargets e :=
  ⟨exists_evaluates s, fun ⟨_, h, htarget⟩ => mem_stmtTargets_of_evaluates h htarget⟩

/-- The names that a body calls are those of the targets of its calls. -/
theorem callsBy_iff {nameOf? : Expr → Option String} {body : List Stmt} {name : String} :
    CallsBy nameOf? body name ↔ ∃ target ∈ bodyTargets body, nameOf? target = some name := by
  simp only [CallsBy, mem_bodyTargets, mem_stmtTargets_iff, mem_exprTargets_iff]
  constructor
  · rintro ⟨s, hs, e, hevaluates, target, arguments, hwithin, hname⟩
    exact ⟨target, ⟨s, hs, e, hevaluates, arguments, hwithin⟩, hname⟩
  · rintro ⟨target, ⟨s, hs, e, hevaluates, arguments, hwithin⟩, hname⟩
    exact ⟨s, hs, e, hevaluates, target, arguments, hwithin, hname⟩

instance (nameOf? : Expr → Option String) (body : List Stmt) (name : String) :
    Decidable (CallsBy nameOf? body name) :=
  decidable_of_iff _ callsBy_iff.symm

/-! ## The calls that are collected -/

mutual

theorem exprCalls_eq : (e : Expr) → exprCalls e = (exprTargets e).filterMap calleeName
  | .name _ => rfl
  | .attribute object _ => exprCalls_eq object
  | .subscript object indices => by
    rw [exprCalls, exprTargets, List.filterMap_append, exprCalls_eq object,
      exprListCalls_eq indices]
  | .call callee arguments => by
    rw [exprCalls, exprTargets, List.cons_append, List.filterMap_cons, List.filterMap_append,
      exprCalls_eq callee, exprListCalls_eq arguments]
    cases calleeName callee <;> rfl
  | .string _ fields => exprListCalls_eq fields
  | .starred item => exprCalls_eq item
  | .display items => exprListCalls_eq items
  | .compound operands => exprListCalls_eq operands

theorem exprListCalls_eq :
    (es : List Expr) → exprListCalls es = (exprListTargets es).filterMap calleeName
  | [] => rfl
  | e :: es => by
    rw [exprListCalls, exprListTargets, List.filterMap_append, exprCalls_eq e,
      exprListCalls_eq es]

end

mutual

theorem stmtCalls_eq : (s : Stmt) → stmtCalls s = (stmtTargets s).filterMap calleeName
  | .imports _ => rfl
  | .importsFrom _ _ => rfl
  | .expression first others => by
    rw [stmtCalls, stmtTargets, List.filterMap_append, exprCalls_eq first,
      exprListCalls_eq others]
  | .plain parts => exprListCalls_eq parts
  | .function decorators _ _ _ _ _ => exprListCalls_eq decorators
  | .classDef decorators _ _ _ _ => exprListCalls_eq decorators
  | .compound clauses => clausesCalls_eq clauses

theorem bodyCalls_eq :
    (body : List Stmt) → bodyCalls body = (bodyTargets body).filterMap calleeName
  | [] => rfl
  | s :: ss => by
    rw [bodyCalls, bodyTargets, List.filterMap_append, stmtCalls_eq s, bodyCalls_eq ss]

theorem clauseCalls_eq : (c : Clause) → clauseCalls c = (clauseTargets c).filterMap calleeName
  | .mk _ heads body => by
    rw [clauseCalls, clauseTargets, List.filterMap_append, exprListCalls_eq heads,
      bodyCalls_eq body]

theorem clausesCalls_eq :
    (cs : List Clause) → clausesCalls cs = (clausesTargets cs).filterMap calleeName
  | [] => rfl
  | c :: cs => by
    rw [clausesCalls, clausesTargets, List.filterMap_append, clauseCalls_eq c,
      clausesCalls_eq cs]

end

/-- The calls that are collected from a body are those whose target is written without a star. -/
theorem mem_bodyCalls {body : List Stmt} {name : String} :
    name ∈ bodyCalls body ↔ CallsBy calleeName body name := by
  rw [bodyCalls_eq, List.mem_filterMap, callsBy_iff]

theorem calledName_of_calleeName {target : Expr} {name : String} (h : calleeName target = some name) :
    calledName target = some name := by
  cases target <;> first | exact h | cases h

/-- What is called without a star is called. -/
theorem calls_of_calleeName {body : List Stmt} {name : String} (h : CallsBy calleeName body name) :
    CallsBy calledName body name := by
  obtain ⟨s, hs, e, hevaluates, target, arguments, hwithin, hname⟩ := h
  exact ⟨s, hs, e, hevaluates, target, arguments, hwithin, calledName_of_calleeName hname⟩

/-! ## The call graph -/

/-- The last one of the functions under a qualified name. -/
def LastUnder (functions : List (FunctionDecl × List Stmt)) (qualifiedName : String)
    (f : FunctionDecl × List Stmt) : Prop :=
  f.1.qualifiedName = qualifiedName ∧ ∃ before after, functions = before ++ f :: after ∧
    ∀ g ∈ after, g.1.qualifiedName ≠ qualifiedName

/-- A set of names is all that the functions under a qualified name call, of the functions that
there are. -/
def Tells (functions : List (FunctionDecl × List Stmt)) (qualifiedName : String)
    (callees : Table.Keys String) : Prop :=
  ∀ name, name ∈ callees.keys ↔ (∃ g ∈ functions, g.1.name = name) ∧
    ∃ f ∈ functions, f.1.qualifiedName = qualifiedName ∧ CallsBy calledName f.2 name

variable {functions : List (FunctionDecl × List Stmt)} {qualifiedName : String}

theorem find?_reverse_eq_some_iff {f : FunctionDecl × List Stmt} :
    (functions.reverse.find? fun g => g.1.qualifiedName = qualifiedName) = some f ↔
      LastUnder functions qualifiedName f := by
  rw [List.find?_eq_some_iff_append, decide_eq_true_eq]
  refine and_congr_right fun _ => ⟨?_, ?_⟩
  · rintro ⟨after, before, heq, hafter⟩
    refine ⟨before.reverse, after.reverse, ?_, fun g hg => ?_⟩
    · rw [← List.reverse_reverse functions, heq]
      simp
    · simpa using hafter g (List.mem_reverse.1 hg)
  · rintro ⟨before, after, rfl, hafter⟩
    refine ⟨after.reverse, before.reverse, by simp, fun g hg => ?_⟩
    simpa using hafter g (List.mem_reverse.1 hg)

/-- The names that the graph has for a function with the given body. -/
def collected (functions : List (FunctionDecl × List Stmt)) (body : List Stmt) :
    Table.Keys String :=
  let known := Table.Keys.ofList (functions.map (·.1.name))
  Table.Keys.ofList ((bodyCalls body).filter fun name => known.contains name)

/-- The graph has for each qualified name what was collected from the last function under it. -/
theorem get?_callGraphOf {callees : Table.Keys String} :
    (callGraphOf functions).get? qualifiedName = some callees ↔
      ∃ last, LastUnder functions qualifiedName last ∧ callees = collected functions last.2 := by
  have hgraph : callGraphOf functions =
      Table.ofList (functions.map fun f => (f.1.qualifiedName, collected functions f.2)) := rfl
  rw [hgraph, Table.get?_ofList, ← List.map_reverse, List.find?_map, Option.map_map,
    Option.map_eq_some_iff]
  exact exists_congr fun last => and_congr find?_reverse_eq_some_iff eq_comm

theorem mem_keys_collected {body : List Stmt} {name : String} :
    name ∈ (collected functions body).keys ↔
      (∃ g ∈ functions, g.1.name = name) ∧ CallsBy calleeName body name := by
  unfold collected
  dsimp only
  rw [Table.mem_keys_ofList, List.mem_filter, mem_bodyCalls, Table.contains_ofList, and_comm,
    List.mem_map]

/-- There is a last function under each qualified name. -/
theorem exists_lastUnder {f : FunctionDecl × List Stmt} (h : f ∈ functions) :
    ∃ last, LastUnder functions f.1.qualifiedName last := by
  cases hfind : functions.reverse.find? fun g => g.1.qualifiedName = f.1.qualifiedName with
  | some last => exact ⟨last, find?_reverse_eq_some_iff.1 hfind⟩
  | none =>
    have hnone := List.find?_eq_none.1 hfind f (List.mem_reverse.2 h)
    exact absurd (decide_eq_true rfl) hnone

theorem mem_of_lastUnder {last : FunctionDecl × List Stmt}
    (h : LastUnder functions qualifiedName last) : last ∈ functions := by
  obtain ⟨-, before, after, rfl, -⟩ := h
  exact List.mem_append_right _ (.head _)

/-- What was collected from the last function is all if it has, without a star, each call of the
others. -/
theorem tells_collected_iff {last : FunctionDecl × List Stmt}
    (h : LastUnder functions qualifiedName last) :
    Tells functions qualifiedName (collected functions last.2) ↔
      ∀ f ∈ functions, f.1.qualifiedName = qualifiedName → ∀ g ∈ functions,
        CallsBy calledName f.2 g.1.name → CallsBy calleeName last.2 g.1.name := by
  constructor
  · intro htells f hf hname g hg hcalls
    exact (mem_keys_collected.1 ((htells _).2 ⟨⟨g, hg, rfl⟩, f, hf, hname, hcalls⟩)).2
  · intro hlast name
    rw [mem_keys_collected]
    refine and_congr_right fun hknown => ⟨fun hcalls => ?_, ?_⟩
    · exact ⟨last, mem_of_lastUnder h, h.1, calls_of_calleeName hcalls⟩
    · obtain ⟨g, hg, rfl⟩ := hknown
      rintro ⟨f, hf, hname, hcalls⟩
      exact hlast f hf hname g hg hcalls

/-- The call graph of a tree has the qualified names of its functions.  For each of them it tells
the calls that the last function under it has without a star, and these are all calls exactly if
they are all that any function under it has, with a star or without. -/
theorem callGraph_ofTree (lines : List (List Char)) (body : List Stmt) :
    let functions := (bodyDeclarations lines .file body).functions
    let o := ofTree lines body
    (∀ qualifiedName, qualifiedName ∈ o.callGraph.keys ↔
      ∃ f ∈ o.functions, f.qualifiedName = qualifiedName) ∧
    ∀ qualifiedName callees, o.callGraph.get? qualifiedName = some callees →
      ∃ last, LastUnder functions qualifiedName last ∧
        (∀ name, name ∈ callees.keys ↔
          (∃ g ∈ o.functions, g.name = name) ∧ CallsBy calleeName last.2 name) ∧
        (Tells functions qualifiedName callees ↔
          ∀ f ∈ functions, f.1.qualifiedName = qualifiedName → ∀ g ∈ functions,
            CallsBy calledName f.2 g.1.name → CallsBy calleeName last.2 g.1.name) := by
  refine ⟨fun qualifiedName => ?_, fun qualifiedName callees hcallees => ?_⟩
  · rw [Table.mem_keys_iff, Option.ne_none_iff_exists']
    constructor
    · rintro ⟨callees, hcallees⟩
      obtain ⟨last, hlast, -⟩ := get?_callGraphOf.1 hcallees
      exact ⟨last.1, List.mem_map_of_mem (mem_of_lastUnder hlast), hlast.1⟩
    · rintro ⟨f, hf, rfl⟩
      obtain ⟨g, hg, rfl⟩ := List.mem_map.1 hf
      obtain ⟨last, hlast⟩ := exists_lastUnder hg
      exact ⟨_, get?_callGraphOf.2 ⟨last, hlast, rfl⟩⟩
  · obtain ⟨last, hlast, rfl⟩ := get?_callGraphOf.1 hcallees
    refine ⟨last, hlast, fun name => ?_, tells_collected_iff hlast⟩
    rw [mem_keys_collected]
    simp [ofTree]

/-- So it is in a text, whose outline is that of the tree it parses to. -/
theorem callGraph_tells_iff {text : List Char} {o : Outline} (h : ofText text = .ok o) :
    ∃ body, Python.parse? text = some body ∧
      let functions := (bodyDeclarations (Text.lines text) .file body).functions
      o.functions = functions.map (·.1) ∧
      (∀ qualifiedName, qualifiedName ∈ o.callGraph.keys ↔
        ∃ f ∈ o.functions, f.qualifiedName = qualifiedName) ∧
      ∀ qualifiedName callees, o.callGraph.get? qualifiedName = some callees →
        ∃ last, LastUnder functions qualifiedName last ∧
          (∀ name, name ∈ callees.keys ↔
            (∃ g ∈ o.functions, g.name = name) ∧ CallsBy calleeName last.2 name) ∧
          (Tells functions qualifiedName callees ↔
            ∀ f ∈ functions, f.1.qualifiedName = qualifiedName → ∀ g ∈ functions,
              CallsBy calledName f.2 g.1.name → CallsBy calleeName last.2 g.1.name) := by
  obtain ⟨body, hparse, rfl⟩ := ofText_eq_ok_iff.1 h
  exact ⟨body, hparse, rfl, callGraph_ofTree _ body⟩

/-- Of two functions under one name, the last one has all the calls of the first one. -/
theorem callGraph_tells_redefined :
    let text := "if fast:\n    def f(x):\n        return g(x)\nelse:\n    @g\n    def f(x):\n" ++
      "        @g(x)\n        def inner():\n            h()\n" ++
      "        return [lambda: x.f(y) for y in x]\n\ndef g(x):\n    return x\n\ndef h():\n    pass\n"
    ∃ o body callees, ofText text.toList = .ok o ∧ Python.parse? text.toList = some body ∧
      o.callGraph.get? "f" = some callees ∧ callees.keys = ["f", "g"] ∧
      Tells (bodyDeclarations (Text.lines text.toList) .file body).functions "f" callees := by
  intro text
  have hrun : (Python.parse? text.toList).any (fun body =>
      let functions := (bodyDeclarations (Text.lines text.toList) .file body).functions
      decide (((callGraphOf functions).get? "f").map Table.keys = some ["f", "g"]) &&
        decide (∀ f ∈ functions, f.1.qualifiedName = "f" → ∀ g ∈ functions,
          CallsBy calledName f.2 g.1.name → g.1.name ∈ ["f", "g"])) = true := by
    decide +kernel
  obtain ⟨body, hparse, hrun⟩ := (Option.any_eq_true _ _).1 hrun
  simp only [Bool.and_eq_true, decide_eq_true_eq, Option.map_eq_some_iff] at hrun
  obtain ⟨⟨callees, hcallees, hkeys⟩, hcalls⟩ := hrun
  have houtline := ofText_eq_ok_iff.2 ⟨body, hparse, rfl⟩
  obtain ⟨body', hparse', -, -, hgraph⟩ := callGraph_tells_iff houtline
  cases hparse.symm.trans hparse'
  obtain ⟨last, -, hlast, htells⟩ := hgraph "f" callees hcallees
  refine ⟨_, body, callees, houtline, hparse, hcallees, hkeys, htells.2 fun f hf hname g hg h => ?_⟩
  have hmem : g.1.name ∈ callees.keys := by
    rw [hkeys]
    exact hcalls f hf hname g hg h
  exact ((hlast _).1 hmem).2

/-- A property with a setter, and a call behind a star. -/
theorem callGraph_fails_tells :
    let text := "class A:\n    @property\n    def x(self):\n        return g()\n\n" ++
      "    @x.setter\n    def x(self, v):\n        pass\n\n" ++
      "def f():\n    return [*g()]\n\ndef g():\n    pass\n"
    ∃ o body, ofText text.toList = .ok o ∧ Python.parse? text.toList = some body ∧
      ∀ qualifiedName ∈ ["A.x", "f"], ∃ callees, o.callGraph.get? qualifiedName = some callees ∧
        ¬Tells (bodyDeclarations (Text.lines text.toList) .file body).functions qualifiedName
          callees := by
  intro text
  have hrun : (Python.parse? text.toList).any (fun body =>
      let functions := (bodyDeclarations (Text.lines text.toList) .file body).functions
      decide (∀ qualifiedName ∈ ["A.x", "f"],
        ((callGraphOf functions).get? qualifiedName).map Table.keys = some [] ∧
        (∃ g ∈ functions, g.1.name = "g") ∧ ∃ f ∈ functions, f.1.qualifiedName = qualifiedName ∧
          CallsBy calledName f.2 "g")) = true := by
    decide +kernel
  obtain ⟨body, hparse, hrun⟩ := (Option.any_eq_true _ _).1 hrun
  refine ⟨_, body, ofText_eq_ok_iff.2 ⟨body, hparse, rfl⟩, hparse, fun qualifiedName hname => ?_⟩
  obtain ⟨hkeys, hcalled⟩ := of_decide_eq_true hrun qualifiedName hname
  obtain ⟨callees, hcallees, hkeys⟩ := Option.map_eq_some_iff.1 hkeys
  refine ⟨callees, hcallees, fun htells => ?_⟩
  have hmem := (htells "g").2 hcalled
  rw [hkeys] at hmem
  exact absurd hmem List.not_mem_nil

end Outline

end Recast
