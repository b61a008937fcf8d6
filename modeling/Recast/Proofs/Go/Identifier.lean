/-
  Proofs/Go/Identifier.lean --- the names in generated Go hold nothing that the lexer stumbles over.

  A character is plain if it is no delimiter, no quote and no backslash, and begins no comment and
  no line.  Every character that is not plain is an ASCII character, so it is enough to know where
  the case tables lead into ASCII.
-/
import Recast.Go.Identifier
import Recast.Go.Skeleton
import Recast.Proofs.Go.Lexer
import Recast.Proofs.Text.Numeral
import Recast.Python.Name

set_option autoImplicit false

namespace Recast.Go

/-- Whether a character can stand in a name or in a string without meaning anything else. -/
def isPlain (c : Char) : Bool := Lexer.isInert c && c != '\\' && c != '\n'

/-- A text of plain characters. -/
def Plain (cs : List Char) : Prop := ∀ c ∈ cs, isPlain c = true

namespace Plain

theorem nil : Plain [] := fun _ h => nomatch h

theorem append {cs ds : List Char} (h : Plain cs) (h' : Plain ds) : Plain (cs ++ ds) := by
  intro c hc
  exact (List.mem_append.1 hc).elim (h c) (h' c)

end Plain

/-! ## Plain characters -/

/-- The characters that are not plain. -/
def special : List Char := ['(', '[', '{', ')', ']', '}', '"', '\'', '\x60', '/', '\\', '\n']

/-- Whatever is not plain is one of twelve characters. -/
theorem isPlain_of_not_mem {c : Char} (h : c ∉ special) : isPlain c = true := by
  simp only [special, List.mem_cons, List.not_mem_nil, or_false, not_or] at h
  obtain ⟨h₁, h₂, h₃, h₄, h₅, h₆, h₇, h₈, h₉, h₁₀, h₁₁, h₁₂⟩ := h
  simp [isPlain, Lexer.isInert, Lexer.isOpener, Lexer.isCloser, *]

/-- A class that none of them belongs to holds plain characters only. -/
theorem isPlain_of_class {p : Char → Bool} (hp : special.all (fun d => !p d) = true) {c : Char}
    (h : p c = true) : isPlain c = true := by
  refine isPlain_of_not_mem fun hmem => ?_
  have hc := List.all_eq_true.1 hp c hmem
  rw [h] at hc
  exact Bool.noConfusion hc

theorem isPlain_of_toNat_ge {c : Char} (h : 0x80 ≤ c.toNat) : isPlain c = true :=
  isPlain_of_class (p := fun d => decide (0x80 ≤ d.toNat)) (by decide) (decide_eq_true h)

theorem isPlain_of_isAsciiLetter {c : Char} (h : Text.isAsciiLetter c = true) :
    isPlain c = true :=
  isPlain_of_class (by decide) h

theorem isPlain_of_isAsciiDigit {c : Char} (h : Text.isAsciiDigit c = true) :
    isPlain c = true :=
  isPlain_of_class (by decide) h

/-- The characters of Python names are plain. -/
theorem isPlain_of_isNameRest {c : Char} (h : Python.isNameRest c = true) : isPlain c = true := by
  unfold Python.isNameRest at h
  split at h
  · simp only [Bool.or_eq_true, beq_iff_eq] at h
    rcases h with (h | h) | rfl
    · exact isPlain_of_isAsciiLetter h
    · exact isPlain_of_isAsciiDigit h
    · decide
  · next hascii => exact isPlain_of_toNat_ge (by omega)

theorem isPlain_of_isNameStart {c : Char} (h : Python.isNameStart c = true) : isPlain c = true := by
  unfold Python.isNameStart at h
  split at h
  · simp only [Bool.or_eq_true, beq_iff_eq] at h
    rcases h with h | rfl
    · exact isPlain_of_isAsciiLetter h
    · decide
  · next hascii => exact isPlain_of_toNat_ge (by omega)

/-- A Python name is plain. -/
theorem plain_of_isName {cs : List Char} (h : Python.isName cs = true) : Plain cs := by
  cases cs with
  | nil => exact .nil
  | cons c cs =>
    simp only [Python.isName, Bool.and_eq_true, List.all_eq_true] at h
    intro d hd
    rcases List.mem_cons.1 hd with rfl | hd
    · exact isPlain_of_isNameStart h.1
    · exact isPlain_of_isNameRest (h.2 d hd)

/-! ## Case -/

theorem isPlain_ofNat {n : Nat} (h : 0x80 ≤ n) : isPlain (Char.ofNat n) = true := by
  by_cases hn : n.isValidChar
  · have hchar : Char.ofNat n = Char.ofNatAux n hn := dif_pos hn
    rw [hchar]
    exact isPlain_of_toNat_ge h
  · have hchar : Char.ofNat n = '\x00' := dif_neg hn
    rw [hchar]
    decide

/-- The runs of a table that lead out of ASCII or to plain characters one by one. -/
def staysPlain (run : Text.CaseRun) : Bool :=
  decide (0x80 ≤ (run.1 : Int) + run.2.2.2) ||
    (run.1 == run.2.1 && isPlain (Char.ofNat ((run.1 : Int) + run.2.2.2).toNat))

theorem isPlain_mapByRuns {runs : List Text.CaseRun} (h : ∀ run ∈ runs, staysPlain run = true)
    {code mapped : Nat} (hmap : Text.mapByRuns runs code = some mapped) :
    isPlain (Char.ofNat mapped) = true := by
  unfold Text.mapByRuns at hmap
  obtain ⟨run, hrun, hmap⟩ := List.exists_of_findSome?_eq_some hmap
  have hstays := h run hrun
  obtain ⟨first, last, distance, offset⟩ := run
  dsimp only at hmap
  split at hmap
  · next hin =>
    obtain ⟨hfirst, hlast, -⟩ := hin
    cases hmap
    simp only [staysPlain, Bool.or_eq_true, Bool.and_eq_true, decide_eq_true_eq, beq_iff_eq]
      at hstays
    rcases hstays with hout | ⟨hsingle, hplain⟩
    · exact isPlain_ofNat (by omega)
    · obtain rfl : code = first := by omega
      exact hplain
  · cases hmap

theorem staysPlain_upperRuns : ∀ run ∈ Text.upperRuns, staysPlain run = true := by decide +kernel

theorem staysPlain_lowerRuns : ∀ run ∈ Text.lowerRuns, staysPlain run = true := by decide +kernel

theorem plain_upperSequences :
    ∀ entry ∈ Text.upperSequences, ∀ code ∈ entry.2, isPlain (Char.ofNat code) = true := by
  decide +kernel

theorem isPlain_capital {c : Char} (h : 'a' ≤ c ∧ c ≤ 'z') :
    isPlain (Char.ofNat (c.toNat - 32)) = true := by
  have hrange : ∀ n, n < 26 → isPlain (Char.ofNat (n + 65)) = true := by decide +kernel
  have hlow : 97 ≤ c.toNat := h.1
  have hhigh : c.toNat ≤ 122 := h.2
  have := hrange (c.toNat - 97) (by omega)
  rwa [show c.toNat - 97 + 65 = c.toNat - 32 by omega] at this

theorem isPlain_small {c : Char} (h : 'A' ≤ c ∧ c ≤ 'Z') :
    isPlain (Char.ofNat (c.toNat + 32)) = true := by
  have hrange : ∀ n, n < 26 → isPlain (Char.ofNat (n + 97)) = true := by decide +kernel
  have hlow : 65 ≤ c.toNat := h.1
  have hhigh : c.toNat ≤ 90 := h.2
  have := hrange (c.toNat - 65) (by omega)
  rwa [show c.toNat - 65 + 97 = c.toNat + 32 by omega] at this

theorem plain_singleton {c : Char} (h : isPlain c = true) : Plain [c] := by
  intro d hd
  rwa [List.mem_singleton.1 hd]

/-- A mapping by runs keeps a character plain, whether or not a run is about it. -/
theorem plain_mapByRuns {runs : List Text.CaseRun} (h : ∀ run ∈ runs, staysPlain run = true)
    {c : Char} (hc : isPlain c = true) :
    Plain [((Text.mapByRuns runs c.toNat).map Char.ofNat).getD c] := by
  refine plain_singleton ?_
  cases hmap : Text.mapByRuns runs c.toNat with
  | none => exact hc
  | some mapped => exact isPlain_mapByRuns h hmap

theorem plain_upperChar {c : Char} (h : isPlain c = true) : Plain (Text.upperChar c) := by
  unfold Text.upperChar
  split
  · refine plain_singleton ?_
    split
    · next hletter => exact isPlain_capital hletter
    · exact h
  · split
    · next codes hfind =>
      intro d hd
      obtain ⟨code, hcode, rfl⟩ := List.mem_map.1 hd
      exact plain_upperSequences _ (List.mem_of_find?_eq_some hfind) code hcode
    · exact plain_mapByRuns staysPlain_upperRuns h

theorem plain_lowerChar {c : Char} (h : isPlain c = true) : Plain (Text.lowerChar c) := by
  unfold Text.lowerChar
  split
  · refine plain_singleton ?_
    split
    · next hletter => exact isPlain_small hletter
    · exact h
  · split
    · exact List.all_eq_true.1 (by decide : ['i', Char.ofNat 0x307].all isPlain = true)
    · exact plain_mapByRuns staysPlain_lowerRuns h

/-! ## Names -/

theorem plain_splitAtClass {p : Char → Bool} {cs : List Char} (h : Plain cs) :
    ∀ piece ∈ Text.splitAtClass p cs, Plain piece := by
  induction cs with
  | nil =>
    intro piece hpiece
    rw [List.mem_singleton.1 hpiece]
    exact .nil
  | cons c cs ih =>
    have hc := h c (.head _)
    have hrest := ih fun d hd => h d (.tail _ hd)
    unfold Text.splitAtClass
    split
    · intro piece hpiece
      rcases List.mem_cons.1 hpiece with rfl | hpiece
      · exact .nil
      · exact hrest piece hpiece
    · split
      · intro piece hpiece
        rw [List.mem_singleton.1 hpiece]
        exact plain_singleton hc
      · next first rest heq =>
        rw [heq] at hrest
        intro piece hpiece
        rcases List.mem_cons.1 hpiece with rfl | hpiece
        · exact (plain_singleton hc).append (hrest first (.head _))
        · exact hrest piece (.tail _ hpiece)

theorem plain_nameParts {name : List Char} (h : Plain name) : ∀ part ∈ nameParts name, Plain part :=
  fun part hpart => plain_splitAtClass h part (List.mem_filter.1 hpart).1

theorem plain_capitalised {part : List Char} (h : Plain part) : Plain (capitalised part) := by
  cases part with
  | nil => exact .nil
  | cons c cs =>
    exact (plain_upperChar (h c (.head _))).append fun d hd => h d (.tail _ hd)

theorem plain_uncapitalised {part : List Char} (h : Plain part) : Plain (uncapitalised part) := by
  cases part with
  | nil => exact .nil
  | cons c cs =>
    exact (plain_lowerChar (h c (.head _))).append fun d hd => h d (.tail _ hd)

theorem plain_joinParts (exported : Bool) {parts : List (List Char)}
    (h : ∀ part ∈ parts, Plain part) : Plain (joinParts exported parts) := by
  cases parts with
  | nil => exact .nil
  | cons first rest =>
    have hfirst := h first (.head _)
    refine Plain.append ?_ ?_
    · split
      · exact plain_capitalised hfirst
      · exact plain_uncapitalised hfirst
    · intro d hd
      obtain ⟨part, hpart, hd⟩ := List.mem_flatMap.1 hd
      exact plain_capitalised (h part (.tail _ hpart)) d hd

/-- The Go name of a plain name is plain. -/
theorem plain_camelCase {name : List Char} (h : Plain name) (exported : Bool) :
    Plain (camelCase name exported) := by
  have hnamed : Plain (if (joinParts exported (nameParts name)).isEmpty then ['x']
      else joinParts exported (nameParts name)) := by
    split
    · exact plain_singleton (c := 'x') (by decide)
    · exact plain_joinParts exported (plain_nameParts h)
  unfold camelCase
  dsimp only
  generalize (if (joinParts exported (nameParts name)).isEmpty then ['x']
      else joinParts exported (nameParts name)) = named at hnamed
  split
  · exact hnamed.append (plain_singleton (c := '_') (by decide))
  · exact hnamed

/-- A string of plain characters. -/
def PlainString (s : String) : Prop := Plain s.toList

instance (s : String) : Decidable (PlainString s) :=
  decidable_of_iff (s.toList.all isPlain = true) List.all_eq_true

theorem plainString_append {s t : String} (h : PlainString s) (h' : PlainString t) :
    PlainString (s ++ t) := by
  rw [PlainString, String.toList_append]
  exact Plain.append h h'

theorem plainString_declarationName {name : String} (h : PlainString name) :
    PlainString (declarationName name) := by
  rw [PlainString, declarationName, String.toList_ofList]
  exact plain_camelCase h _

theorem plainString_localName {name : String} (h : PlainString name) :
    PlainString (localName name) := by
  rw [PlainString, localName, String.toList_ofList]
  exact plain_camelCase h _

theorem plainString_toString (n : Nat) : PlainString (toString n) := by
  intro c hc
  have hdigit : c.isDigit = true := Text.isDigit_of_mem_toString hc
  refine isPlain_of_isAsciiDigit ?_
  simp only [Char.isDigit, Bool.and_eq_true, decide_eq_true_eq] at hdigit
  simp only [Text.isAsciiDigit, Bool.and_eq_true, decide_eq_true_eq]
  exact hdigit

namespace Skeleton

/-- A name that is told apart by a number stays plain. -/
theorem plainString_freeName (taken : List String) {base : String} (h : PlainString base) :
    PlainString (freeName taken base) := by
  have hcandidates : ∀ name ∈ base :: (List.range taken.length).map fun i => base ++ toString (i + 2),
      PlainString name := by
    intro name hname
    rcases List.mem_cons.1 hname with rfl | hname
    · exact h
    · obtain ⟨i, -, rfl⟩ := List.mem_map.1 hname
      exact plainString_append h (plainString_toString _)
  unfold freeName
  dsimp only
  cases hfind : List.find? (fun name => !taken.contains name)
      (base :: (List.range taken.length).map fun i => base ++ toString (i + 2)) with
  | none => exact h
  | some name => exact hcandidates name (List.mem_of_find?_eq_some hfind)

theorem plainString_freeNames (taken : List String) {bases : List String}
    (h : ∀ base ∈ bases, PlainString base) : ∀ name ∈ freeNames taken bases, PlainString name := by
  induction bases generalizing taken with
  | nil => exact fun _ hname => nomatch hname
  | cons base rest ih =>
    intro name hname
    rcases List.mem_cons.1 hname with rfl | hname
    · exact plainString_freeName taken (h base (.head _))
    · exact ih _ (fun b hb => h b (.tail _ hb)) name hname

end Skeleton

end Recast.Go
