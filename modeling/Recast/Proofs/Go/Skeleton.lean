/-
  Proofs/Go/Skeleton.lean --- when a skeleton is Go.

  Whether a skeleton passes the check depends on its declarations alone
  (`valid_checkString_render`).  Comments never do any harm and plain names neither, so a skeleton
  of plain names passes, whatever else its outline says (`checkString_render`).
-/
import Recast.Proofs.Go.Identifier
import Recast.Proofs.Go.Package
import Recast.Proofs.Outline.Names

set_option autoImplicit false

namespace Recast.Go

namespace Lexer

/-! ## Texts without faults -/

theorem finish_eq_nil {l : Lexer} :
    l.finish = [] ↔ l.diagnostics = [] ∧ openLiteral l.mode = none ∧ l.kinds = [] := by
  simp only [finish, List.append_eq_nil_iff, List.map_eq_nil_iff, List.reverse_eq_nil_iff, kinds,
    Option.toList_eq_nil_iff, Option.map_eq_none_iff, and_assoc]

/-- Two states with the same mode and the same delimiters show the same texts to be free of
faults. -/
theorem Within.finish_feed {l m : Lexer} (h : Within [] [] l m) {cs : List Char}
    (hfinish : (l.feed cs).finish = []) : (m.feed cs).finish = [] := by
  obtain ⟨hdiagnostics, hliteral, hkinds⟩ := finish_eq_nil.1 hfinish
  have hfeed := h.feed hdiagnostics
  refine finish_eq_nil.2 ⟨hfeed.diagnostics, ?_, ?_⟩
  · rw [hfeed.mode]
    exact hliteral
  · rw [hfeed.kinds, hkinds]
    rfl

/-- A text that passes shows no fault on its own. -/
theorem finish_feed_of_passes {cs : List Char} (h : Passes cs) : (feed {} cs).finish = [] := by
  obtain ⟨hmode, hkinds, hdiagnostics⟩ := h {} [] rfl rfl
  refine finish_eq_nil.2 ⟨hdiagnostics, ?_, hkinds⟩
  rw [hmode]
  rfl

end Lexer

namespace Skeleton

open Lexer

/-! ## The heading -/

/-- The text of the declarations in a skeleton. -/
def declarations (o : Outline) : List Char :=
  let classes := classParts o [] o.classes
  let functions := functionParts classes.taken o.topLevelFunctions
  (classes.text ++ functions.text).toList

/-- The import that stubs need. -/
def importLine (o : Outline) : List Char :=
  let classes := classParts o [] o.classes
  let functions := functionParts classes.taken o.topLevelFunctions
  (if classes.stubs + functions.stubs > 0 then "\nimport \"errors\"\n" else "").toList

/-- The comment that a skeleton begins with, without its slashes. -/
def provenance (fileName : String) : List Char :=
  " Code generated from ".toList ++ fileName.toList ++
    " without a model translation. Port each stub by hand.".toList

theorem toList_render (module fileName : String) (o : Outline) :
    (render module fileName o).toList =
      '/' :: '/' :: provenance fileName ++ ['\n'] ++ ['\n'] ++
        ("package ".toList ++ module.toList ++ ['\n'] ++ (importLine o ++ declarations o)) := by
  have hopening : "// Code generated from ".toList = '/' :: '/' :: " Code generated from ".toList := by
    decide +kernel
  have hclosing : " without a model translation. Port each stub by hand.\n\npackage ".toList =
      " without a model translation. Port each stub by hand.".toList ++ ['\n', '\n'] ++
        "package ".toList := by
    decide +kernel
  have hend : "\n".toList = ['\n'] := rfl
  unfold render provenance importLine declarations
  dsimp only
  rw [String.toList_append, String.toList_append, String.toList_append, String.toList_append,
    String.toList_append, String.toList_append, String.toList_append, String.toList_append,
    hopening, hclosing, hend]
  generalize " Code generated from ".toList = opening
  generalize " without a model translation. Port each stub by hand.".toList = closing
  generalize "package ".toList = keyword
  simp only [List.append_assoc, List.cons_append, List.nil_append]

theorem not_newline_provenance {fileName : String} (h : '\n' ∉ fileName.toList) :
    '\n' ∉ provenance fileName := by
  intro hmem
  rcases List.mem_append.1 hmem with hmem | hmem
  · rcases List.mem_append.1 hmem with hmem | hmem
    · exact absurd hmem (by decide)
    · exact h hmem
  · exact absurd hmem (by decide)

/-- The import passes. -/
theorem passes_importLine (o : Outline) : Passes (importLine o) := by
  unfold importLine
  dsimp only
  split
  · exact .of_feed rfl rfl rfl
  · exact .of_feed rfl rfl rfl

/-- The heading of a skeleton leaves nothing open and names its package. -/
theorem feed_render {module fileName : String} (hmodule : isIdentifier module.toList = true)
    (hfile : '\n' ∉ fileName.toList) (o : Outline) :
    ∃ l : Lexer, Within [] [] {} l ∧
      feed {} (render module fileName o).toList = l.feed (declarations o) ∧
      (l.feed (declarations o)).packageName = some module.toList := by
  have hword := isWord_of_isIdentifier hmodule
  have hcomment : feed {} ('/' :: '/' :: provenance fileName ++ ['\n'] ++ ['\n']) = { line := 3 } := by
    rw [feed_append, feed_lineComment rfl (not_newline_provenance hfile)]
    rfl
  have hclause := feed_clauseLine (l := { line := 3 }) rfl rfl hword
  obtain ⟨hmode, hkinds, hdiagnostics⟩ := passes_importLine o
    (feed { line := 3 } ("package ".toList ++ module.toList ++ ['\n'])) [] (by rw [hclause]; rfl)
    (by rw [hclause]; rfl)
  refine ⟨_, ⟨hmode, hkinds, rfl, by rw [hdiagnostics, hclause]; rfl⟩, ?_, ?_⟩
  · rw [toList_render, feed_append, hcomment, feed_append, feed_append]
  · have htokens := firstTokens_clauseLine (l := { line := 3 }) rfl rfl hword
      (importLine o ++ declarations o)
    rw [← feed_append, ← feed_append]
    refine (packageName_eq_of_take (m := { head := ["package".toList, module.toList] })
      htokens).trans ?_
    simp only [packageName, firstTokens, List.isEmpty_nil, if_true, List.append_nil, hmodule,
      and_self]

/-- What the check says about a skeleton: its package, and the faults of its declarations. -/
theorem checkString_render_eq {module fileName : String}
    (hmodule : isIdentifier module.toList = true) (hfile : '\n' ∉ fileName.toList) (o : Outline) :
    ∃ l : Lexer, Within [] [] {} l ∧ checkString (render module fileName o) =
      { package := some module, diagnostics := (l.feed (declarations o)).finish } := by
  obtain ⟨l, hwithin, hfeed, hpackage⟩ := feed_render hmodule hfile o
  have hblank : Text.allBlank (render module fileName o).toList = false := by
    rw [toList_render]
    rfl
  refine ⟨l, hwithin, ?_⟩
  rw [checkString, check, hblank, hfeed]
  simp only [Bool.false_eq_true, if_false, hpackage, String.ofList_toList]

/-- A skeleton passes the check exactly if its declarations show no fault on their own. -/
theorem valid_checkString_render {module fileName : String}
    (hmodule : Layout.isPackageName module = true) (hfile : '\n' ∉ fileName.toList) (o : Outline) :
    (checkString (render module fileName o)).valid = true ↔
      (feed {} (declarations o)).finish = [] := by
  obtain ⟨l, hwithin, hcheck⟩ :=
    checkString_render_eq (isIdentifier_of_isPackageName hmodule).2 hfile o
  have hback : Within [] [] l {} :=
    ⟨hwithin.mode.symm, by rw [hwithin.kinds]; rfl, hwithin.diagnostics, rfl⟩
  rw [hcheck, CheckResult.valid, List.isEmpty_iff]
  exact ⟨hback.finish_feed, hwithin.finish_feed⟩

/-! ## Declarations -/

/-- Strings that lead on from one another, joined. -/
theorem leads_append {s t : String} {mode mode' mode'' : Mode} {opened opened' opened'' : List Char}
    (h : Leads s.toList mode opened mode' opened')
    (h' : Leads t.toList mode' opened' mode'' opened'') :
    Leads (s ++ t).toList mode opened mode'' opened'' := by
  rw [String.toList_append]
  exact h.append h'

section Plain

variable {s : String} (h : PlainString s) (opened : List Char)

include h

theorem leads_code : Leads s.toList .code opened .code opened := by
  refine .of_isInert opened fun c hc => ?_
  have hplain := h c hc
  simp only [isPlain, Bool.and_eq_true] at hplain
  exact hplain.1.1

theorem leads_comment : Leads s.toList .lineComment opened .lineComment opened := by
  refine .of_comment opened fun hmem => ?_
  exact absurd (h _ hmem) (by decide)

theorem leads_string : Leads s.toList (.interpreted false) opened (.interpreted false) opened := by
  refine .of_string opened fun c hc => ?_
  have hplain := h c hc
  refine ⟨?_, ?_, ?_⟩ <;> rintro rfl <;> exact absurd hplain (by decide)

end Plain

theorem not_newline_docLine {doc : Option String} {line : String} (h : docLine doc = some line) :
    '\n' ∉ line.toList := by
  obtain ⟨d, -, hfind⟩ := Option.bind_eq_some_iff.1 h
  obtain ⟨whole, hwhole, rfl⟩ := List.mem_map.1 (List.mem_of_find?_eq_some hfind)
  obtain ⟨chars, hchars, rfl⟩ := List.mem_map.1 hwhole
  rw [Text.trimmed, String.toList_ofList, String.toList_ofList]
  exact fun hmem => Text.not_newline_of_mem_lines chars hchars (Text.mem_of_mem_trim hmem)

/-- The body of a stub closes the brace that its head opened. -/
theorem leads_stubBody {returns what : String} (hreturns : PlainString returns)
    (hwhat : PlainString what) : Leads (stubBody returns what).toList .code ['{'] .code [] := by
  have hreturn : Leads "\treturn ".toList .code ['{'] .code ['{'] := .of_feed rfl rfl rfl
  have herror : Leads "errors.New(\"not implemented: ".toList .code ['{'] (.interpreted false)
      ['(', '{'] := .of_feed rfl rfl rfl
  have hend : Leads "\")\n\x7d\n".toList (.interpreted false) ['(', '{'] .code [] :=
    .of_feed rfl rfl rfl
  have hhead := leads_append (leads_append hreturn (leads_code hreturns _)) herror
  exact leads_append (leads_append hhead (leads_string hwhat _)) hend

/-- A comment on a declaration passes, whatever its documentation says. -/
theorem passes_comment {goName pythonName : String} (hgo : PlainString goName)
    (hpython : PlainString pythonName) (doc : Option String) {text : String}
    (htext : comment goName pythonName doc = some text) : Passes text.toList := by
  obtain ⟨line, hline, rfl⟩ := Option.map_eq_some_iff.1 htext
  have hbegin : Leads "// ".toList .code [] .lineComment [] := .of_feed rfl rfl rfl
  have hports : Leads " ports ".toList .lineComment [] .lineComment [] := .of_feed rfl rfl rfl
  have hcolon : Leads ": ".toList .lineComment [] .lineComment [] := .of_feed rfl rfl rfl
  have hend : Leads "\n".toList .lineComment [] .code [] := .of_feed rfl rfl rfl
  have hnames := leads_append (leads_append (leads_append hbegin (leads_comment hgo _)) hports)
    (leads_comment hpython _)
  have hdoc : Leads line.toList .lineComment [] .lineComment [] :=
    .of_comment _ (not_newline_docLine hline)
  exact leads_append (leads_append (leads_append hnames hcolon) hdoc) hend

/-- A function whose stub has a harmless head: its name is plain and its parameter list passes. -/
structure Harmless (f : FunctionDecl) : Prop where
  name : PlainString f.name
  params : Passes (paramList f).toList

theorem passes_empty : Passes "".toList := .of_feed rfl rfl rfl

theorem passes_methodParts {className typeName : String} (hclass : PlainString className)
    (htype : PlainString typeName) (taken methods : List String) {fs : List FunctionDecl}
    (h : ∀ f ∈ fs, Harmless f) :
    Passes (methodParts className typeName taken methods fs).text.toList := by
  induction fs generalizing taken methods with
  | nil => exact passes_empty
  | cons f fs ih =>
    have hf := h f (.head _)
    have hrest := fun g hg => h g (.tail _ hg)
    have hwhat : PlainString (className ++ "." ++ f.name) :=
      plainString_append (plainString_append hclass (by decide)) hf.name
    have hparams := hf.params.inside ['(']
    unfold methodParts
    dsimp only
    split
    · have hconstructor : PlainString (freeName taken ("New" ++ typeName)) :=
        plainString_freeName taken (plainString_append (by decide) htype)
      have hfunc : Leads "\nfunc ".toList .code [] .code [] := .of_feed rfl rfl rfl
      have hopen : Leads "(".toList .code [] .code ['('] := .of_feed rfl rfl rfl
      have hresult : Leads ") (*".toList .code ['('] .code ['('] := .of_feed rfl rfl rfl
      have hbrace : Leads ", error) \x7b\n".toList .code ['('] .code ['{'] := .of_feed rfl rfl rfl
      have hname := leads_append (leads_append hfunc (leads_code hconstructor _)) hopen
      have hhead := leads_append (leads_append (leads_append (leads_append hname hparams) hresult)
        (leads_code htype _)) hbrace
      exact leads_append (leads_append hhead (leads_stubBody (by decide) hwhat))
        (ih _ _ hrest)
    · have hname : PlainString (freeName methods (declarationName f.name)) :=
        plainString_freeName methods (plainString_declarationName hf.name)
      have hfunc : Leads "\nfunc (".toList .code [] .code ['('] := .of_feed rfl rfl rfl
      have hstar : Leads " *".toList .code ['('] .code ['('] := .of_feed rfl rfl rfl
      have hclose : Leads ") ".toList .code ['('] .code [] := .of_feed rfl rfl rfl
      have hopen : Leads "(".toList .code [] .code ['('] := .of_feed rfl rfl rfl
      have hbrace : Leads ") error \x7b\n".toList .code ['('] .code ['{'] := .of_feed rfl rfl rfl
      have hreceiver := leads_append (leads_append (leads_append (leads_append hfunc
        (leads_code (s := receiver) (by decide) _)) hstar) (leads_code htype _)) hclose
      have hhead := leads_append (leads_append (leads_append (leads_append hreceiver
        (leads_code hname _)) hopen) hparams) hbrace
      exact leads_append (leads_append hhead (leads_stubBody (by decide) hwhat))
        (ih _ _ hrest)

/-- A class whose name and whose stubs are harmless. -/
theorem passes_classPart {o : Outline} {c : ClassDecl} (hc : PlainString c.name)
    (ho : ∀ f ∈ o.functions, Harmless f) (taken : List String) :
    Passes (classPart o taken c).text.toList := by
  have htype : PlainString (freeName taken (declarationName c.name)) :=
    plainString_freeName taken (plainString_declarationName hc)
  have hcomment : Passes ((comment (freeName taken (declarationName c.name)) c.name c.doc).getD
      ("// " ++ freeName taken (declarationName c.name) ++ " ports " ++ c.name ++ ".\n")).toList := by
    cases htext : comment (freeName taken (declarationName c.name)) c.name c.doc with
    | some text => exact passes_comment htype hc c.doc htext
    | none =>
      have hbegin : Leads "// ".toList .code [] .lineComment [] := .of_feed rfl rfl rfl
      have hports : Leads " ports ".toList .lineComment [] .lineComment [] := .of_feed rfl rfl rfl
      have hend : Leads ".\n".toList .lineComment [] .code [] := .of_feed rfl rfl rfl
      exact leads_append (leads_append (leads_append (leads_append hbegin (leads_comment htype _))
        hports) (leads_comment hc _)) hend
  have hline : Passes "\n".toList := .of_feed rfl rfl rfl
  have htypeWord : Passes "type ".toList := .of_feed rfl rfl rfl
  have hstruct : Passes " struct\x7b\x7d\n".toList := .of_feed rfl rfl rfl
  have hhead := leads_append (leads_append (leads_append (leads_append hline hcomment) htypeWord)
    (leads_code htype _)) hstruct
  refine leads_append hhead (passes_methodParts hc htype _ _ fun f hf => ?_)
  exact ho f (List.mem_filter.1 hf).1

theorem passes_classParts {o : Outline} (ho : ∀ f ∈ o.functions, Harmless f)
    {classes : List ClassDecl} (hclasses : ∀ c ∈ classes, PlainString c.name)
    (taken : List String) : Passes (classParts o taken classes).text.toList := by
  induction classes generalizing taken with
  | nil => exact passes_empty
  | cons c rest ih =>
    exact leads_append (passes_classPart (hclasses c (.head _)) ho taken)
      (ih (fun d hd => hclasses d (.tail _ hd)) _)

theorem passes_functionPart {f : FunctionDecl} (h : Harmless f) (taken : List String) :
    Passes (functionPart taken f).text.toList := by
  have hname : PlainString (freeName taken (declarationName f.name)) :=
    plainString_freeName taken (plainString_declarationName h.name)
  have hcomment : Passes
      ((comment (freeName taken (declarationName f.name)) f.name f.doc).getD "").toList := by
    cases htext : comment (freeName taken (declarationName f.name)) f.name f.doc with
    | some text => exact passes_comment hname h.name f.doc htext
    | none => exact passes_empty
  have hline : Passes "\n".toList := .of_feed rfl rfl rfl
  have hfunc : Passes "func ".toList := .of_feed rfl rfl rfl
  have hopen : Leads "(".toList .code [] .code ['('] := .of_feed rfl rfl rfl
  have hbrace : Leads ") error \x7b\n".toList .code ['('] .code ['{'] := .of_feed rfl rfl rfl
  have hbefore := leads_append (leads_append (leads_append (leads_append hline hcomment) hfunc)
    (leads_code hname _)) hopen
  have hhead := leads_append (leads_append hbefore (h.params.inside ['('])) hbrace
  exact leads_append hhead (leads_stubBody (by decide) h.name)

theorem passes_functionParts {fs : List FunctionDecl} (h : ∀ f ∈ fs, Harmless f)
    (taken : List String) : Passes (functionParts taken fs).text.toList := by
  induction fs generalizing taken with
  | nil => exact passes_empty
  | cons f fs ih =>
    exact leads_append (passes_functionPart (h f (.head _)) taken)
      (ih (fun g hg => h g (.tail _ hg)) _)

/-- Declarations of harmless stubs pass: nothing else that is copied from the source can do harm. -/
theorem passes_declarations {o : Outline} (hclasses : ∀ c ∈ o.classes, PlainString c.name)
    (hfunctions : ∀ f ∈ o.functions, Harmless f) : Passes (declarations o) := by
  refine leads_append (passes_classParts hfunctions hclasses []) ?_
  exact passes_functionParts (fun f hf => hfunctions f (List.mem_filter.1 hf).1) _

/-- Where classes and functions go by Python names, declarations pass if every parameter list
does. -/
theorem passes_declarations_of_named {o : Outline} (ho : o.Named)
    (hparams : ∀ f ∈ o.functions, Passes (paramList f).toList) : Passes (declarations o) :=
  passes_declarations (fun c hc => plain_of_isName (ho.classes c hc)) fun f hf =>
    ⟨plain_of_isName (ho.functions f hf), hparams f hf⟩

/-! ## Parameters -/

theorem passes_intercalate {items : List String} (h : ∀ item ∈ items, Passes item.toList) :
    Passes (", ".intercalate items).toList := by
  induction items with
  | nil => exact passes_empty
  | cons first rest ih =>
    have hfirst := h first (.head _)
    cases rest with
    | nil =>
      rw [String.intercalate_singleton]
      exact hfirst
    | cons second rest =>
      have hcomma : Passes ", ".toList := .of_feed rfl rfl rfl
      have hrest := ih fun item hitem => h item (.tail _ hitem)
      rw [String.intercalate_cons_cons]
      exact leads_append (leads_append hfirst hcomma) hrest

/-- A parameter list of plain names passes. -/
theorem passes_paramList {f : FunctionDecl} (h : ∀ p ∈ f.params, PlainString p) :
    Passes (paramList f).toList := by
  have hown : ∀ p ∈ ownParams f, p ∈ f.params := by
    unfold ownParams
    split
    · next first rest _ heq =>
      intro p hp
      rw [heq]
      split at hp
      · exact .tail _ hp
      · exact hp
    · exact fun p hp => hp
  have hlocal : ∀ base ∈ (ownParams f).map localName, PlainString base := by
    intro base hbase
    obtain ⟨p, hp, rfl⟩ := List.mem_map.1 hbase
    exact plainString_localName (h p (hown p hp))
  unfold paramList
  refine passes_intercalate fun item hitem => ?_
  obtain ⟨name, hname, rfl⟩ := List.mem_map.1 hitem
  have hplain := plainString_freeNames _ hlocal name hname
  exact leads_code (plainString_append hplain (by decide)) _

/-! ## Skeletons of plain names -/

/-- A skeleton made of plain names passes the check, which finds nothing and tells just the package
that was asked for.  Whatever else an outline says, of any shape, does no harm. -/
theorem checkString_render {module fileName : String}
    (identifier : isIdentifier module.toList = true) (oneLine : '\n' ∉ fileName.toList)
    {o : Outline} (classes : ∀ c ∈ o.classes, PlainString c.name)
    (functions : ∀ f ∈ o.functions, PlainString f.name ∧ ∀ p ∈ f.params, PlainString p) :
    checkString (render module fileName o) = { package := some module, diagnostics := [] } := by
  have hpasses : Passes (declarations o) := by
    refine passes_declarations classes fun f hf => ?_
    obtain ⟨hname, hparams⟩ := functions f hf
    exact ⟨hname, passes_paramList hparams⟩
  obtain ⟨l, hwithin, hcheck⟩ := checkString_render_eq identifier oneLine o
  rw [hcheck, hwithin.finish_feed (finish_feed_of_passes hpasses)]

/-- A class that shares its name with another one, and documentation full of quotes and braces. -/
theorem checkString_render_documented :
    let o : Outline :=
      { imports := ["os\n\x7b"], doc := some "\x60 \x7b",
        classes := [⟨"gl_entry", ["dict(\""], [], some "\n  It's \"\x7b /* \x60open\n(", 1⟩,
          { name := "GlEntry" }],
        functions := [⟨"__init__", "gl_entry.__init__", some "gl_entry", ["self", "r", "type"], none,
            2, 3⟩,
          ⟨"über", "über", none, ["*args", "range"], some "'\\ [", 5, 6⟩] }
    isIdentifier "ledger".toList = true ∧ '\n' ∉ "gl\x60\".py".toList ∧
      (∀ c ∈ o.classes, PlainString c.name) ∧
      (∀ f ∈ o.functions, PlainString f.name ∧ ∀ p ∈ f.params, PlainString p) ∧
      checkString (render "ledger" "gl\x60\".py" o) = { package := some "ledger", diagnostics := [] } := by
  intro o
  have hidentifier : isIdentifier "ledger".toList = true := by decide
  have honeLine : '\n' ∉ "gl\x60\".py".toList := by decide
  have hclasses : ∀ c ∈ o.classes, PlainString c.name := by decide
  have hfunctions : ∀ f ∈ o.functions, PlainString f.name ∧ ∀ p ∈ f.params, PlainString p := by
    decide
  exact ⟨hidentifier, honeLine, hclasses, hfunctions,
    checkString_render hidentifier honeLine hclasses hfunctions⟩

end Skeleton

end Recast.Go
