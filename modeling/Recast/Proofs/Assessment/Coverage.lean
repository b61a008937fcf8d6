/-
  Proofs/Assessment/Coverage.lean --- which declarations a translation is found to take up.

  The words of a Go text are its maximal runs of word characters (`mem_words_iff`).  A Go name is its
  Python name up to case and underscores, so looking for the one among the words, up to case and
  underscores, is looking for the other (`contains_comparable_iff`).
-/
import Recast.Assessment.Coverage
import Recast.Proofs.Go.Naming

set_option autoImplicit false

namespace Recast.Assessment

/-! ## Words -/

/-- A word stands in a text between two others: it is as long a run of letters, digits and
underscores as there is at its place. -/
structure IsWordIn (text before word after : List Char) : Prop where
  text : text = before ++ word ++ after
  notEmpty : word ≠ []
  inside : ∀ c ∈ word, Text.isWordChar c = true
  left : ∀ c, before.getLast? = some c → Text.isWordChar c = false
  right : ∀ c, after.head? = some c → Text.isWordChar c = false

theorem isWordIn_iff {text before word after : List Char} :
    IsWordIn text before word after ↔
      word ≠ [] ∧ Text.IsPiece (fun c => !Text.isWordChar c) text before word after := by
  constructor
  · intro h
    exact ⟨h.notEmpty, h.text, by simpa using h.inside, by simpa using h.left,
      by simpa using h.right⟩
  · rintro ⟨hne, h⟩
    exact ⟨h.text, hne, by simpa using h.inside, by simpa using h.left, by simpa using h.right⟩

/-- The words of a text are its maximal runs of word characters. -/
theorem mem_words_iff {text word : List Char} :
    word ∈ words text ↔ ∃ before after, IsWordIn text before word after := by
  simp only [words, List.mem_filter, Text.mem_splitAtClass_iff, isWordIn_iff, exists_and_left]
  simp [and_comm]

/-! ## Names that a text takes up -/

/-- A Go text takes a Python name up: up to case and underscores the name is a word of the text. -/
def TakesUp (go name : String) : Prop :=
  ∃ before word after, IsWordIn go.toList before word after ∧
    Go.comparable word = Go.comparable name.toList

theorem takesUp_iff {go name : String} : TakesUp go name ↔
    ((words go.toList).map Go.comparable).contains (Go.comparable name.toList) = true := by
  simp only [TakesUp, List.contains_iff_mem, List.mem_map, mem_words_iff]
  constructor
  · rintro ⟨before, word, after, hword, heq⟩
    exact ⟨word, ⟨before, after, hword⟩, heq⟩
  · rintro ⟨word, ⟨before, after, hword⟩, heq⟩
    exact ⟨before, word, after, hword, heq⟩

instance (go name : String) : Decidable (TakesUp go name) := decidable_of_iff _ takesUp_iff.symm

/-- An ASCII identifier with a letter or a digit. -/
structure IsPlainName (name : String) : Prop where
  identifier : Go.isAsciiIdentifier name.toList = true
  alphanumeric : ∃ c ∈ name.toList, Go.isAsciiAlphanumeric c = true

theorem isPlainName_iff {name : String} : IsPlainName name ↔
    Go.isAsciiIdentifier name.toList = true ∧ name.toList.any Go.isAsciiAlphanumeric = true := by
  rw [List.any_eq_true]
  exact ⟨fun h => ⟨h.identifier, h.alphanumeric⟩, fun h => ⟨h.1, h.2⟩⟩

instance (name : String) : Decidable (IsPlainName name) := decidable_of_iff _ isPlainName_iff.symm

theorem comparable_declarationName {name : String} (h : IsPlainName name) :
    Go.comparable (Go.declarationName name).toList = Go.comparable name.toList := by
  rw [Go.declarationName, String.toList_ofList]
  exact Go.comparable_camelCase (Go.isAsciiWordChar_of_isAsciiIdentifier h.identifier) _
    h.alphanumeric

theorem comparable_append (before after : List Char) :
    Go.comparable (before ++ after) = Go.comparable before ++ Go.comparable after := by
  simp [Go.comparable]

theorem comparable_constructorName {name : String} (h : IsPlainName name) :
    Go.comparable ("New" ++ Go.declarationName name).toList =
      Go.comparable ("New" ++ name).toList := by
  rw [String.toList_append, String.toList_append, comparable_append, comparable_append,
    comparable_declarationName h]

/-- Whether a name is found depends on what it is up to case and underscores. -/
theorem contains_comparable_iff (go : String) {name goName : String}
    (h : Go.comparable goName.toList = Go.comparable name.toList) :
    ((words go.toList).map Go.comparable).contains (Go.comparable goName.toList) = true ↔
      TakesUp go name := by
  rw [takesUp_iff, h]

/-! ## Declarations -/

/-- A function that a translation is expected to take up: any but the special ones, and a
constructor. -/
def IsExpected (f : FunctionDecl) : Prop :=
  isSpecial f.name = false ∨ (f.name = "__init__" ∧ f.owner.isSome = true)

/-- A function that a Go text takes up: under its own name, or, for a constructor, under that of its
class behind `New`. -/
def IsTakenUp (go : String) (f : FunctionDecl) : Prop :=
  (isSpecial f.name = false ∧ TakesUp go f.name) ∨
    (f.name = "__init__" ∧ ∃ className ∈ f.owner, TakesUp go ("New" ++ className))

instance (f : FunctionDecl) : Decidable (IsExpected f) := inferInstanceAs (Decidable (_ ∨ _))

instance (go : String) (f : FunctionDecl) : Decidable (IsTakenUp go f) :=
  inferInstanceAs (Decidable (_ ∨ _))

/-- A file whose classes and functions have plain names. -/
structure HasPlainNames (o : Outline) : Prop where
  classes : ∀ c ∈ o.classes, IsPlainName c.name
  functions : ∀ f ∈ o.functions, IsPlainName f.name
  owners : ∀ f ∈ o.functions, ∀ className ∈ f.owner, IsPlainName className

theorem isSpecial_init : isSpecial "__init__" = true := by decide

theorem isSome_expectedName_iff (f : FunctionDecl) :
    (expectedName f).isSome = true ↔ IsExpected f := by
  unfold expectedName IsExpected
  by_cases hinit : f.name = "__init__"
  · cases howner : f.owner <;> simp [hinit, isSpecial_init]
  · cases howner : f.owner <;> simp [hinit]

/-- The expected name of a function is found if the function is taken up. -/
theorem map_expectedName_iff {go : String} {f : FunctionDecl} (hname : IsPlainName f.name)
    (howner : ∀ className ∈ f.owner, IsPlainName className) :
    ((expectedName f).map (fun name =>
      ((words go.toList).map Go.comparable).contains (Go.comparable name.toList))).getD false =
        true ↔ IsTakenUp go f := by
  have hplain := contains_comparable_iff go (comparable_declarationName hname)
  unfold expectedName IsTakenUp
  by_cases hinit : f.name = "__init__"
  · cases hclass : f.owner with
    | none => simp [hinit, isSpecial_init]
    | some className =>
      have hnew := contains_comparable_iff go
        (comparable_constructorName (howner className hclass))
      simpa [hinit, isSpecial_init] using hnew
  · cases hspecial : isSpecial f.name with
    | true => cases hclass : f.owner <;> simp [hinit]
    | false => cases hclass : f.owner <;> simpa [hinit] using hplain

theorem length_expectedNames (o : Outline) : (expectedNames o).length =
    o.classes.length + o.functions.countP fun f => IsExpected f := by
  rw [expectedNames, List.length_append, List.length_map, List.length_filterMap_eq_countP]
  congr 1
  apply List.countP_congr
  intro f _
  simp [isSome_expectedName_iff]

theorem length_foundNames {o : Outline} (h : HasPlainNames o) (go : String) :
    (foundNames o go.toList).length = (o.classes.countP fun c => TakesUp go c.name) +
      o.functions.countP fun f => IsTakenUp go f := by
  rw [foundNames, ← List.countP_eq_length_filter, expectedNames, List.countP_append,
    List.countP_map, List.countP_filterMap]
  congr 1
  · apply List.countP_congr
    intro c hc
    simpa using contains_comparable_iff go (comparable_declarationName (h.classes c hc))
  · apply List.countP_congr
    intro f hf
    rw [map_expectedName_iff (h.functions f hf) (h.owners f hf), decide_eq_true_iff]

/-- Of a file with plain names the share that is found counts each class and each function under its
own Python name, a constructor under that of its class behind `New`, and no other special function. -/
theorem coverage_counts {o : Outline} (h : HasPlainNames o) (go : String) :
    coverage o go =
      let expected := o.classes.length + o.functions.countP fun f => IsExpected f
      let found := (o.classes.countP fun c => TakesUp go c.name) +
        o.functions.countP fun f => IsTakenUp go f
      if expected = 0 then 1.0 else found.toFloat / expected.toFloat := by
  rw [coverage, length_expectedNames, length_foundNames h]

/-- A ledger with a constructor, a special method and a method under a keyword of Go. -/
def ledgerOutline : Outline where
  classes := [{ name := "GL_Entry" }]
  functions := [{ name := "__init__", owner := some "GL_Entry" },
    { name := "__repr__", owner := some "GL_Entry" }, { name := "_type", owner := some "GL_Entry" },
    { name := "round_off" }]

/-- What was made of the ledger: everything but its last function. -/
def ledgerGo : String := "type GLEntry struct\x7b\x7d\nfunc new_glEntry() \x7b\x7d\n// Type"

/-- Four of the five declarations count, and three of them are taken up. -/
theorem coverage_counts_ledger :
    HasPlainNames ledgerOutline ∧
      coverage ledgerOutline ledgerGo = Nat.toFloat 3 / Nat.toFloat 4 := by
  have hnames : HasPlainNames ledgerOutline :=
    ⟨by decide, by decide, by decide⟩
  have hexpected : (ledgerOutline.functions.countP fun f => IsExpected f) = 3 := by decide +kernel
  have hclasses : (ledgerOutline.classes.countP fun c => TakesUp ledgerGo c.name) = 1 := by
    decide +kernel
  have hfunctions : (ledgerOutline.functions.countP fun f => IsTakenUp ledgerGo f) = 2 := by
    decide +kernel
  refine ⟨hnames, ?_⟩
  rw [coverage_counts hnames, hexpected, hclasses, hfunctions]
  rfl

end Recast.Assessment
