/-
  Proofs/Go/Naming.lean --- what the Go names of ASCII identifiers look like.

  A Go name has the letters and digits of the Python name in their order, each in one case or the
  other (`recased_joinParts`).  So it is the same name up to case and underscores
  (`comparable_camelCase`), and all that can be wrong with it is its first character: underscores in
  front are lost, and the character behind them may be a digit (`isAsciiIdentifier_camelCase_iff`).
-/
import Mathlib.Data.List.Forall2
import Recast.Proofs.Go.Declared
import Recast.Proofs.Path

set_option autoImplicit false

namespace Recast.Go

/-! ## Identifiers in ASCII -/

/-- An ASCII letter or digit. -/
def isAsciiAlphanumeric (c : Char) : Bool := Text.isAsciiLetter c || Text.isAsciiDigit c

/-- What identifiers in ASCII are made of. -/
def isAsciiWordChar (c : Char) : Bool := isAsciiAlphanumeric c || c == '_'

/-- A letter or an underscore, then letters, digits and underscores, all of them ASCII.  In Python
and in Go these are the identifiers in ASCII. -/
def isAsciiIdentifier : List Char → Bool
  | [] => false
  | c :: cs => (Text.isAsciiLetter c || c == '_') && cs.all isAsciiWordChar

/-- Whether a Go name is exported: it begins with a capital letter. -/
def isExported (name : String) : Bool := name.toList.head?.any fun c => 'A' ≤ c && c ≤ 'Z'

/-- Whether a name begins with a digit behind its underscores. -/
def leadsWithDigit (name : String) : Bool :=
  (name.toList.find? (· != '_')).any Text.isAsciiDigit

theorem toNat_lt_of_isAsciiAlphanumeric {c : Char} (h : isAsciiAlphanumeric c = true) :
    c.toNat < 128 := by
  simp only [isAsciiAlphanumeric, Text.isAsciiLetter, Text.isAsciiDigit, Bool.or_eq_true,
    Bool.and_eq_true, decide_eq_true_eq] at h
  have hz : c ≤ 'z' → c.toNat ≤ 122 := fun hle => hle
  have hZ : c ≤ 'Z' → c.toNat ≤ 90 := fun hle => hle
  have hnine : c ≤ '9' → c.toNat ≤ 57 := fun hle => hle
  rcases h with (⟨-, h⟩ | ⟨-, h⟩) | ⟨-, h⟩
  · exact Nat.lt_of_le_of_lt (hz h) (by omega)
  · exact Nat.lt_of_le_of_lt (hZ h) (by omega)
  · exact Nat.lt_of_le_of_lt (hnine h) (by omega)

/-- What is known of the case of an ASCII letter or digit. -/
structure Cased (c : Char) : Prop where
  letter : (Text.isAsciiLetter c || c == '_') = true ↔ Text.isAsciiDigit c = false
  upperChar : Text.upperChar c = [c.toUpper]
  lowerChar : Text.lowerChar c = [c.toLower]
  alphanumeric : isAsciiAlphanumeric c.toUpper = true ∧ isAsciiAlphanumeric c.toLower = true
  /-- Case does not matter to the lower-case form. -/
  comparable : Text.lowerChar c.toUpper = Text.lowerChar c ∧
    Text.lowerChar c.toLower = Text.lowerChar c
  digit : Text.isAsciiDigit c.toUpper = Text.isAsciiDigit c ∧
    Text.isAsciiDigit c.toLower = Text.isAsciiDigit c
  capital : Text.isAsciiLetter c = true → c ≠ '_' ∧ 'A' ≤ c.toUpper ∧ c.toUpper ≤ 'Z'
  notCapital : ¬('A' ≤ c.toLower ∧ c.toLower ≤ 'Z')

theorem cased_iff {c : Char} : Cased c ↔
    ((Text.isAsciiLetter c || c == '_') = true ↔ Text.isAsciiDigit c = false) ∧
    Text.upperChar c = [c.toUpper] ∧ Text.lowerChar c = [c.toLower] ∧
    (isAsciiAlphanumeric c.toUpper = true ∧ isAsciiAlphanumeric c.toLower = true) ∧
    (Text.lowerChar c.toUpper = Text.lowerChar c ∧ Text.lowerChar c.toLower = Text.lowerChar c) ∧
    (Text.isAsciiDigit c.toUpper = Text.isAsciiDigit c ∧
      Text.isAsciiDigit c.toLower = Text.isAsciiDigit c) ∧
    (Text.isAsciiLetter c = true → c ≠ '_' ∧ 'A' ≤ c.toUpper ∧ c.toUpper ≤ 'Z') ∧
    ¬('A' ≤ c.toLower ∧ c.toLower ≤ 'Z') :=
  ⟨fun ⟨h₁, h₂, h₃, h₄, h₅, h₆, h₇, h₈⟩ => ⟨h₁, h₂, h₃, h₄, h₅, h₆, h₇, h₈⟩,
    fun ⟨h₁, h₂, h₃, h₄, h₅, h₆, h₇, h₈⟩ => ⟨h₁, h₂, h₃, h₄, h₅, h₆, h₇, h₈⟩⟩

instance (c : Char) : Decidable (Cased c) := decidable_of_iff _ cased_iff.symm

/-- There are few enough of them to look at them all. -/
theorem cased_of_isAsciiAlphanumeric {c : Char} (h : isAsciiAlphanumeric c = true) : Cased c := by
  have hall : ∀ n < 128, isAsciiAlphanumeric (Char.ofNat n) = true → Cased (Char.ofNat n) := by
    decide +kernel
  have hcode := hall c.toNat (toNat_lt_of_isAsciiAlphanumeric h)
  rw [Char.ofNat_toNat] at hcode
  exact hcode h

theorem isAsciiWordChar_of_isAsciiIdentifier {name : List Char}
    (h : isAsciiIdentifier name = true) : ∀ c ∈ name, isAsciiWordChar c = true := by
  cases name with
  | nil => simp [isAsciiIdentifier] at h
  | cons c cs =>
    simp only [isAsciiIdentifier, Bool.and_eq_true, Bool.or_eq_true, List.all_eq_true] at h
    intro d hd
    rcases List.mem_cons.1 hd with rfl | hd
    · rcases h.1 with hletter | hunderscore
      · simp [isAsciiWordChar, isAsciiAlphanumeric, hletter]
      · simp [isAsciiWordChar, hunderscore]
    · exact h.2 d hd

/-- Only a digit in front keeps such a text from being an identifier. -/
theorem isAsciiIdentifier_iff {name : List Char} (h : ∀ c ∈ name, isAsciiWordChar c = true) :
    isAsciiIdentifier name = true ↔ ∃ c, name.head? = some c ∧ Text.isAsciiDigit c = false := by
  cases name with
  | nil => simp [isAsciiIdentifier]
  | cons c cs =>
    have hrest : cs.all isAsciiWordChar = true := List.all_eq_true.2 fun d hd => h d (.tail _ hd)
    have hfirst := h c (.head _)
    simp only [isAsciiIdentifier, hrest, Bool.and_true, List.head?_cons, Option.some.injEq,
      exists_eq_left']
    simp only [isAsciiWordChar, Bool.or_eq_true, beq_iff_eq] at hfirst
    rcases hfirst with halnum | rfl
    · exact (cased_of_isAsciiAlphanumeric halnum).letter
    · decide

/-! ## The case of letters -/

/-- A character in one case or the other. -/
def Recased (c d : Char) : Prop := d = c ∨ d = c.toUpper ∨ d = c.toLower

namespace Recased

variable {c d : Char}

theorem isAsciiAlphanumeric (h : Recased c d) (hc : Go.isAsciiAlphanumeric c = true) :
    Go.isAsciiAlphanumeric d = true := by
  have hboth := (cased_of_isAsciiAlphanumeric hc).alphanumeric
  rcases h with rfl | rfl | rfl
  · exact hc
  · exact hboth.1
  · exact hboth.2

/-- Case does not matter to the lower-case form. -/
theorem lowerChar_eq (h : Recased c d) (hc : Go.isAsciiAlphanumeric c = true) :
    Text.lowerChar d = Text.lowerChar c := by
  have hboth := (cased_of_isAsciiAlphanumeric hc).comparable
  rcases h with rfl | rfl | rfl
  · rfl
  · exact hboth.1
  · exact hboth.2

theorem refl_of_list (cs : List Char) : List.Forall₂ Recased cs cs :=
  List.forall₂_same.2 fun _ _ => .inl rfl

theorem all_of_forall₂ {cs ds : List Char} (h : List.Forall₂ Recased cs ds)
    (hcs : ∀ c ∈ cs, Go.isAsciiAlphanumeric c = true) :
    ∀ d ∈ ds, Go.isAsciiAlphanumeric d = true := by
  induction h with
  | nil => exact fun _ hd => absurd hd List.not_mem_nil
  | @cons c d cs ds hfirst _ ih =>
    rw [List.forall_mem_cons] at hcs ⊢
    exact ⟨hfirst.isAsciiAlphanumeric hcs.1, ih hcs.2⟩

theorem flatMap_lowerChar_eq {cs ds : List Char} (h : List.Forall₂ Recased cs ds)
    (hcs : ∀ c ∈ cs, Go.isAsciiAlphanumeric c = true) :
    ds.flatMap Text.lowerChar = cs.flatMap Text.lowerChar := by
  induction h with
  | nil => rfl
  | @cons c d cs ds hfirst _ ih =>
    rw [List.forall_mem_cons] at hcs
    rw [List.flatMap_cons, List.flatMap_cons, hfirst.lowerChar_eq hcs.1, ih hcs.2]

end Recased

theorem recased_capitalised {part : List Char} (h : ∀ c ∈ part, isAsciiAlphanumeric c = true) :
    List.Forall₂ Recased part (capitalised part) := by
  cases part with
  | nil => exact .nil
  | cons c cs =>
    rw [capitalised, (cased_of_isAsciiAlphanumeric (h c (.head _))).upperChar, List.singleton_append]
    exact .cons (.inr (.inl rfl)) (Recased.refl_of_list cs)

theorem recased_uncapitalised {part : List Char} (h : ∀ c ∈ part, isAsciiAlphanumeric c = true) :
    List.Forall₂ Recased part (uncapitalised part) := by
  cases part with
  | nil => exact .nil
  | cons c cs =>
    rw [uncapitalised, (cased_of_isAsciiAlphanumeric (h c (.head _))).lowerChar, List.singleton_append]
    exact .cons (.inr (.inr rfl)) (Recased.refl_of_list cs)

/-- Joining changes nothing but the case of letters. -/
theorem recased_joinParts (exported : Bool) {parts : List (List Char)}
    (h : ∀ c ∈ parts.flatten, isAsciiAlphanumeric c = true) :
    List.Forall₂ Recased parts.flatten (joinParts exported parts) := by
  cases parts with
  | nil => exact .nil
  | cons first rest =>
    have hfirst : ∀ c ∈ first, isAsciiAlphanumeric c = true := fun c hc =>
      h c (List.mem_append_left _ hc)
    have hrest : ∀ part ∈ rest, List.Forall₂ Recased part (capitalised part) := by
      intro part hpart
      apply recased_capitalised
      intro c hc
      exact h c (List.mem_append_right _ (List.mem_flatten.2 ⟨part, hpart, hc⟩))
    have hflat : List.Forall₂ Recased rest.flatten (rest.flatMap capitalised) := by
      clear h hfirst
      induction rest with
      | nil => exact .nil
      | cons part rest ih =>
        rw [List.flatten_cons, List.flatMap_cons]
        exact List.rel_append (hrest part (.head _)) (ih fun p hp => hrest p (.tail _ hp))
    rw [List.flatten_cons, joinParts]
    refine List.rel_append ?_ hflat
    split
    · exact recased_capitalised hfirst
    · exact recased_uncapitalised hfirst

/-! ## The parts of a name -/

/-- The parts of a name together are the name without its underscores. -/
theorem flatten_nameParts (name : List Char) :
    (nameParts name).flatten = name.filter (· != '_') := by
  rw [nameParts, List.flatten_filter_not_isEmpty, Text.flatten_splitAtClass]
  rfl

theorem ne_nil_of_mem_nameParts {name part : List Char} (h : part ∈ nameParts name) :
    part ≠ [] := by
  have hkept := (List.mem_filter.1 h).2
  simpa using hkept

theorem isAsciiAlphanumeric_of_mem_nameParts {name : List Char}
    (h : ∀ c ∈ name, isAsciiWordChar c = true) :
    ∀ c ∈ (nameParts name).flatten, isAsciiAlphanumeric c = true := by
  intro c hc
  rw [flatten_nameParts, List.mem_filter, bne_iff_ne] at hc
  have hword := h c hc.1
  simpa [isAsciiWordChar, hc.2] using hword

/-- The first character of a joined name is that of its parts, in the case that was asked for. -/
theorem head?_joinParts (exported : Bool) {parts : List (List Char)} (hne : ∀ part ∈ parts, part ≠ [])
    (h : ∀ c ∈ parts.flatten, isAsciiAlphanumeric c = true) :
    (joinParts exported parts).head? =
      parts.flatten.head?.map fun c => if exported then c.toUpper else c.toLower := by
  cases parts with
  | nil => rfl
  | cons first rest =>
    obtain ⟨c, cs, rfl⟩ := List.exists_cons_of_ne_nil (hne first (.head _))
    have hc : isAsciiAlphanumeric c = true := h c (by simp)
    cases exported <;>
      simp [joinParts, capitalised, uncapitalised, (cased_of_isAsciiAlphanumeric hc).upperChar,
        (cased_of_isAsciiAlphanumeric hc).lowerChar]

/-! ## Go names -/

section

variable {name : List Char} (hname : ∀ c ∈ name, isAsciiWordChar c = true) (exported : Bool)

/-- The joined parts of a name, or a name for a name without parts. -/
def stemOf (name : List Char) (exported : Bool) : List Char :=
  if (joinParts exported (nameParts name)).isEmpty then ['x'] else joinParts exported (nameParts name)

/-- A Go name is its stem, or its stem with an underscore behind it. -/
theorem camelCase_eq (name : List Char) (exported : Bool) :
    camelCase name exported = stemOf name exported ∨
      camelCase name exported = stemOf name exported ++ ['_'] := by
  change (if isReserved (stemOf name exported) = true then stemOf name exported ++ ['_']
    else stemOf name exported) = _ ∨ (if isReserved (stemOf name exported) = true then
      stemOf name exported ++ ['_'] else stemOf name exported) = _
  split
  · exact .inr rfl
  · exact .inl rfl

include hname

theorem isAsciiAlphanumeric_of_mem_stemOf :
    ∀ c ∈ stemOf name exported, isAsciiAlphanumeric c = true := by
  have hparts := isAsciiAlphanumeric_of_mem_nameParts hname
  intro c hc
  unfold stemOf at hc
  split at hc
  · rw [List.mem_singleton.1 hc]
    decide
  · exact Recased.all_of_forall₂ (recased_joinParts exported hparts) hparts c hc

theorem isAsciiWordChar_of_mem_camelCase :
    ∀ c ∈ camelCase name exported, isAsciiWordChar c = true := by
  have hstem : ∀ c ∈ stemOf name exported, isAsciiWordChar c = true := by
    intro c hc
    simp [isAsciiWordChar, isAsciiAlphanumeric_of_mem_stemOf hname exported c hc]
  rcases camelCase_eq name exported with heq | heq
  · rwa [heq]
  · rw [heq]
    intro c hc
    rcases List.mem_append.1 hc with hc | hc
    · exact hstem c hc
    · simp [isAsciiWordChar, List.mem_singleton.1 hc]

/-- A Go name begins with the first character of the Python name that is no underscore. -/
theorem head?_camelCase :
    (camelCase name exported).head? = some (((name.find? (· != '_')).map fun c =>
      if exported then c.toUpper else c.toLower).getD 'x') := by
  have hparts := isAsciiAlphanumeric_of_mem_nameParts hname
  have hjoined := head?_joinParts exported (fun _ => ne_nil_of_mem_nameParts) hparts
  rw [flatten_nameParts, List.head?_filter] at hjoined
  have hstem : (stemOf name exported).head? = some (((name.find? (· != '_')).map fun c =>
      if exported then c.toUpper else c.toLower).getD 'x') := by
    unfold stemOf
    split
    · next hempty =>
      rw [List.isEmpty_iff.1 hempty, List.head?_nil] at hjoined
      rw [← hjoined]
      rfl
    · next hsome =>
      obtain ⟨c, cs, hcons⟩ := List.exists_cons_of_ne_nil (fun hnil => hsome (List.isEmpty_iff.2 hnil))
      rw [hcons, List.head?_cons] at hjoined ⊢
      rw [← hjoined]
      rfl
  rcases camelCase_eq name exported with heq | heq
  · rw [heq, hstem]
  · rw [heq, List.head?_append, hstem]
    rfl

/-- A Go name is an identifier unless the Python name begins with a digit behind its underscores. -/
theorem isAsciiIdentifier_camelCase_iff :
    isAsciiIdentifier (camelCase name exported) = true ↔
      (name.find? (· != '_')).any Text.isAsciiDigit = false := by
  rw [isAsciiIdentifier_iff (isAsciiWordChar_of_mem_camelCase hname exported),
    head?_camelCase hname exported]
  cases hfind : name.find? (· != '_') with
  | none =>
    have hx : Text.isAsciiDigit 'x' = false := by decide
    simp [hx]
  | some c =>
    have hc : isAsciiAlphanumeric c = true := by
      have hword := hname c (List.mem_of_find?_eq_some hfind)
      have hplain := List.find?_some hfind
      simp_all [isAsciiWordChar]
    have hdigit := (cased_of_isAsciiAlphanumeric hc).digit
    cases exported <;> simp [hdigit.1, hdigit.2]

/-- Up to case and underscores a Go name is the Python name, if that has a letter or a digit. -/
theorem comparable_camelCase (hsome : ∃ c ∈ name, isAsciiAlphanumeric c = true) :
    comparable (camelCase name exported) = comparable name := by
  have hparts := isAsciiAlphanumeric_of_mem_nameParts hname
  have hrecased := recased_joinParts exported hparts
  have hstem : stemOf name exported = joinParts exported (nameParts name) := by
    refine if_neg fun hempty => ?_
    rw [List.isEmpty_iff.1 hempty, List.forall₂_nil_right_iff, flatten_nameParts,
      List.filter_eq_nil_iff] at hrecased
    obtain ⟨c, hc, halnum⟩ := hsome
    have hunderscore : c = '_' := by simpa using hrecased c hc
    subst hunderscore
    exact absurd halnum (by decide)
  have hnone : (stemOf name exported).filter (· != '_') = stemOf name exported := by
    rw [List.filter_eq_self]
    intro c hc
    rw [bne_iff_ne]
    rintro rfl
    exact absurd (isAsciiAlphanumeric_of_mem_stemOf hname exported _ hc) (by decide)
  have hlower : (stemOf name exported).flatMap Text.lowerChar =
      (nameParts name).flatten.flatMap Text.lowerChar := by
    rw [hstem]
    exact Recased.flatMap_lowerChar_eq hrecased hparts
  rw [flatten_nameParts] at hlower
  rcases camelCase_eq name exported with heq | heq
  · rw [heq, comparable, hnone, hlower, comparable]
  · rw [heq, comparable, List.filter_append, hnone]
    simp [hlower, comparable]

end

/-! ## Declarations and parameters -/

theorem not_mem_reserved_camelCase (name : List Char) (exported : Bool) :
    String.ofList (camelCase name exported) ∉ keywords ++ predeclared := by
  apply not_mem_reserved
  rw [String.toList_ofList]
  exact isReserved_camelCase name exported

/-- A declaration is exported unless its Python name begins with an underscore. -/
theorem isExported_declarationName_iff {p : String} (h : isAsciiIdentifier p.toList = true) :
    isExported (declarationName p) = true ↔ p.toList.head? ≠ some '_' := by
  have hword := isAsciiWordChar_of_isAsciiIdentifier h
  rw [isExported, declarationName, String.toList_ofList, head?_camelCase hword]
  generalize p.toList = name at h hword ⊢
  cases name with
  | nil => simp [isAsciiIdentifier] at h
  | cons c cs =>
    simp only [isAsciiIdentifier, Bool.and_eq_true, Bool.or_eq_true, beq_iff_eq] at h
    rcases h.1 with hletter | rfl
    · have hc : isAsciiAlphanumeric c = true := by simp [isAsciiAlphanumeric, hletter]
      -- The name begins with a letter, so it has no underscores in front to lose.
      have hupper := (cased_of_isAsciiAlphanumeric hc).capital hletter
      simp [hupper.1, hupper.2.1, hupper.2.2]
    · cases hfind : ('_' :: cs).find? (· != '_') with
      | none => simp
      | some d =>
        have hplain := List.find?_some hfind
        have hd : isAsciiAlphanumeric d = true := by
          have hmember := hword d (List.mem_of_find?_eq_some hfind)
          simp_all [isAsciiWordChar]
        have hlower := (cased_of_isAsciiAlphanumeric hd).notCapital
        simpa using hlower

/-- Of an ASCII identifier the names for a declaration and for a parameter are identifiers unless it
begins with a digit behind its underscores; they are never names that Go uses itself, and the
declaration is exported exactly if the identifier does not begin with an underscore. -/
theorem goNames_of_asciiIdentifier {p : String} (h : isAsciiIdentifier p.toList = true) :
    (isAsciiIdentifier (declarationName p).toList = true ↔ leadsWithDigit p = false) ∧
    (isAsciiIdentifier (localName p).toList = true ↔ leadsWithDigit p = false) ∧
    declarationName p ∉ keywords ++ predeclared ∧ localName p ∉ keywords ++ predeclared ∧
    (isExported (declarationName p) = true ↔ p.toList.head? ≠ some '_') := by
  have hword := isAsciiWordChar_of_isAsciiIdentifier h
  refine ⟨?_, ?_, not_mem_reserved_camelCase _ _, not_mem_reserved_camelCase _ _,
    isExported_declarationName_iff h⟩
  · rw [declarationName, String.toList_ofList]
    exact isAsciiIdentifier_camelCase_iff hword _
  · rw [localName, String.toList_ofList]
    exact isAsciiIdentifier_camelCase_iff hword false

/-- A private name that is a keyword behind its underscores. -/
theorem goNames_of_asciiIdentifier_keyword :
    isAsciiIdentifier "__type".toList = true ∧ leadsWithDigit "__type" = false ∧
      declarationName "__type" = "type_" ∧
      isAsciiIdentifier (declarationName "__type").toList = true ∧
      declarationName "__type" ∉ keywords ++ predeclared ∧
      isExported (declarationName "__type") = false := by
  have hname : isAsciiIdentifier "__type".toList = true := by decide
  have hdigit : leadsWithDigit "__type" = false := by decide
  obtain ⟨hidentifier, -, hreserved, -, hexported⟩ := goNames_of_asciiIdentifier hname
  refine ⟨hname, hdigit, by decide +kernel, hidentifier.2 hdigit, hreserved, ?_⟩
  rw [Bool.eq_false_iff, ne_eq, hexported]
  decide

/-- Names of ASCII identifiers need not be identifiers: without the underscore in front, nothing but
a digit is left of this one. -/
theorem declarationName_fails_digit :
    ¬∀ p : String, isAsciiIdentifier p.toList = true →
      isAsciiIdentifier (declarationName p).toList = true ∧
        isAsciiIdentifier (localName p).toList = true := by
  intro hall
  have hdigit : isAsciiIdentifier "_1".toList = true ∧ declarationName "_1" = "1" ∧
      isAsciiIdentifier "1".toList = false := by
    decide +kernel
  obtain ⟨hname, hone, hnot⟩ := hdigit
  have hidentifier := (hall "_1" hname).1
  rw [hone, hnot] at hidentifier
  exact Bool.noConfusion hidentifier

end Recast.Go
