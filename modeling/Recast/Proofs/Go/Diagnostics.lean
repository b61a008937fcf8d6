/-
  Proofs/Go/Diagnostics.lean --- the diagnostics of a text point at its faults.

  The lexer reports the faults of the fragments of a text and then its openers that stay open
  (`finish_feed`).  Which diagnostics there are, and on which lines, can so be told from the fragments
  alone (`Pinpoints`), however malformed the text is.
-/
import Recast.Proofs.Go.Faults

set_option autoImplicit false

namespace Recast.Go

open Lexer (isOpener isCloser openerOf neverClosed)

/-! ## Fragments of a list -/

/-- A fragment in a list is the first one or a later one. -/
theorem exists_fragment_cons_iff {g : Fragment} {fs : List Fragment}
    {P : List Fragment → Fragment → Prop} :
    (∃ before f after, g :: fs = before ++ f :: after ∧ P before f) ↔
      P [] g ∨ ∃ before f after, fs = before ++ f :: after ∧ P (g :: before) f := by
  constructor
  · rintro ⟨before, f, after, heq, hf⟩
    cases before with
    | nil =>
      obtain ⟨rfl, rfl⟩ := List.cons.inj heq
      exact .inl hf
    | cons b before =>
      obtain ⟨rfl, rfl⟩ := List.cons.inj heq
      exact .inr ⟨before, f, after, rfl, hf⟩
  · rintro (hg | ⟨before, f, after, rfl, hf⟩)
    · exact ⟨[], g, fs, rfl, hg⟩
    · exact ⟨g :: before, f, after, rfl, hf⟩

theorem count_textOf_cons (g : Fragment) (fs : List Fragment) :
    (textOf (g :: fs)).count '\n' = g.text.count '\n' + (textOf fs).count '\n' :=
  List.count_append

/-- The delimiters of a text are those of its fragments, each on its line. -/
theorem mem_delimitersFrom {line : Nat} {fs : List Fragment} {d : Delimiter} :
    d ∈ delimitersFrom line fs ↔ ∃ before f after, fs = before ++ f :: after ∧
      d.2 = line + (textOf before).count '\n' ∧ f.delimiter? = some d.1 := by
  induction fs generalizing line with
  | nil => simp [delimitersFrom]
  | cons g fs ih =>
    have hfirst : d ∈ (g.delimiter?.map (·, line)).toList ↔
        d.2 = line + (textOf []).count '\n' ∧ g.delimiter? = some d.1 := by
      obtain ⟨c, n⟩ := d
      cases g.delimiter? <;> simp [textOf, eq_comm, and_comm]
    rw [exists_fragment_cons_iff (P := fun before f =>
      d.2 = line + (textOf before).count '\n' ∧ f.delimiter? = some d.1)]
    simp only [delimitersFrom, List.mem_append, hfirst, ih, count_textOf_cons, Nat.add_assoc]

/-- The faults of a text are those of its fragments, each on the line where its fragment begins. -/
theorem mem_faultsFrom {line : Nat} {opened : List Delimiter} {fs : List Fragment}
    {d : Diagnostic} :
    d ∈ faultsFrom line opened fs ↔ ∃ before f after, fs = before ++ f :: after ∧
      d.line = line + (textOf before).count '\n' ∧
      f.fault? (openAfter opened (delimitersFrom line before)) = some d.fault := by
  induction fs generalizing line opened with
  | nil => simp [faultsFrom]
  | cons g fs ih =>
    have hfirst : d ∈ ((g.fault? opened).map (Diagnostic.mk line)).toList ↔
        d.line = line + (textOf []).count '\n' ∧
          g.fault? (openAfter opened (delimitersFrom line [])) = some d.fault := by
      obtain ⟨n, fault⟩ := d
      cases hfault : g.fault? opened <;> simp [textOf, delimitersFrom, hfault, eq_comm]
    rw [exists_fragment_cons_iff (P := fun before f =>
      d.line = line + (textOf before).count '\n' ∧
        f.fault? (openAfter opened (delimitersFrom line before)) = some d.fault)]
    simp only [faultsFrom, List.mem_append, hfirst, ih, count_textOf_cons, Nat.add_assoc,
      delimitersFrom, openAfter_append]

/-! ## Kinds of faults -/

theorem misfit?_eq_mismatched_iff {opened : List Delimiter} {c closer opener : Char} {line : Nat} :
    misfit? opened c = some (.mismatched closer opener line) ↔
      c = closer ∧ isOpener closer = false ∧ openerOf closer ≠ opener ∧
        opened.head? = some (opener, line) := by
  unfold misfit?
  cases hopener : isOpener c with
  | true =>
    simp only [if_true, reduceCtorEq, false_iff]
    rintro ⟨rfl, hcloser, -⟩
    simp [hopener] at hcloser
  | false =>
    cases opened with
    | nil => simp
    | cons top rest =>
      obtain ⟨kind, begun⟩ := top
      by_cases hfits : kind = openerOf c
      · simp only [Bool.false_eq_true, if_false, if_pos hfits, reduceCtorEq, false_iff]
        rintro ⟨rfl, -, hmisfit, heq⟩
        simp only [List.head?_cons, Option.some.injEq, Prod.mk.injEq] at heq
        exact hmisfit (hfits.symm.trans heq.1)
      · simp only [Bool.false_eq_true, if_false, if_neg hfits, Option.some.injEq,
          Fault.mismatched.injEq, List.head?_cons, Prod.mk.injEq]
        constructor
        · rintro ⟨rfl, rfl, rfl⟩
          exact ⟨rfl, hopener, fun heq => hfits heq.symm, rfl, rfl⟩
        · rintro ⟨rfl, -, -, rfl, rfl⟩
          exact ⟨rfl, rfl, rfl⟩

theorem misfit?_eq_unopened_iff {opened : List Delimiter} {c closer : Char} :
    misfit? opened c = some (.unopened closer) ↔
      c = closer ∧ isOpener closer = false ∧ opened = [] := by
  unfold misfit?
  cases hopener : isOpener c with
  | true =>
    simp only [if_true, reduceCtorEq, false_iff]
    rintro ⟨rfl, hcloser, -⟩
    simp [hopener] at hcloser
  | false =>
    cases opened with
    | nil =>
      simp only [Bool.false_eq_true, if_false, Option.some.injEq, Fault.unopened.injEq, and_true]
      exact ⟨fun heq => ⟨heq, heq ▸ hopener⟩, And.left⟩
    | cons top rest => simp

/-- The fault of a delimiter is that of a closer. -/
theorem of_misfit? {opened : List Delimiter} {c : Char} {fault : Fault}
    (h : misfit? opened c = some fault) :
    fault = .unopened c ∨ ∃ opener line, fault = .mismatched c opener line := by
  unfold misfit? at h
  split at h
  · cases h
  · split at h
    · exact .inl (Option.some.inj h).symm
    · split at h
      · cases h
      · exact .inr ⟨_, _, (Option.some.inj h).symm⟩

theorem fault?_of_delimiter? {f : Fragment} {c : Char} (h : f.delimiter? = some c)
    (opened : List Delimiter) : f.fault? opened = misfit? opened c := by
  rw [Fragment.eq_of_delimiter? h]
  simp [Fragment.fault?, Fragment.delimiter?, Fragment.broken?]

theorem fault?_of_not_delimiter {f : Fragment} (h : f.delimiter? = none)
    (opened : List Delimiter) : f.fault? opened = f.broken?.map .unterminated := by
  simp [Fragment.fault?, h]

/-- A fragment is a fault as a closer that does not fit, or as a literal or a comment that is broken
off. -/
theorem fault?_eq_some_iff {f : Fragment} {opened : List Delimiter} {fault : Fault} :
    f.fault? opened = some fault ↔
      (∃ c, f = .whole (.delimiter c) ∧ misfit? opened c = some fault) ∨
      ∃ kind, f.broken? = some kind ∧ fault = .unterminated kind := by
  cases hdelimiter : f.delimiter? with
  | none =>
    have hno (c : Char) : f ≠ .whole (.delimiter c) := by
      intro heq
      rw [heq] at hdelimiter
      cases hdelimiter
    rw [fault?_of_not_delimiter hdelimiter, Option.map_eq_some_iff]
    simp [hno, eq_comm]
  | some c =>
    have heq := Fragment.eq_of_delimiter? hdelimiter
    rw [fault?_of_delimiter? hdelimiter]
    subst heq
    simp [Fragment.broken?]

theorem fault?_eq_unterminated_iff {f : Fragment} {opened : List Delimiter} {kind : String} :
    f.fault? opened = some (.unterminated kind) ↔ f.broken? = some kind := by
  rw [fault?_eq_some_iff]
  constructor
  · rintro (⟨c, -, hmisfit⟩ | ⟨kind', hbroken, heq⟩)
    · rcases of_misfit? hmisfit with heq | ⟨opener, line, heq⟩ <;> cases heq
    · rw [hbroken, Fault.unterminated.inj heq]
  · intro hbroken
    exact .inr ⟨kind, hbroken, rfl⟩

/-! ## The diagnostics of a text -/

/-- The diagnostics of a text in fragments. -/
def diagnosticsOf (fs : List Fragment) : List Diagnostic :=
  faultsFrom 1 [] fs ++ neverClosed (openIn fs)

theorem finish_feed {fs : List Fragment} {text : List Char} (h : Scan fs text) :
    (Lexer.feed {} text).finish = diagnosticsOf fs := by
  rw [Lexer.finish_feed_scan (l := {}) rfl h, openAfter_nil, List.reverse_reverse]
  rfl

theorem mem_diagnosticsOf {fs : List Fragment} {d : Diagnostic} :
    d ∈ diagnosticsOf fs ↔
      (∃ before f after, fs = before ++ f :: after ∧ d.line = lineAfter before ∧
        f.fault? (openIn before).reverse = some d.fault) ∨
      ∃ opener, (opener, d.line) ∈ openIn fs ∧ d.fault = .unclosed opener := by
  have hunclosed : d ∈ neverClosed (openIn fs) ↔
      ∃ opener, (opener, d.line) ∈ openIn fs ∧ d.fault = .unclosed opener := by
    simp only [neverClosed, List.mem_map]
    constructor
    · rintro ⟨⟨opener, line⟩, hmem, rfl⟩
      exact ⟨opener, hmem, rfl⟩
    · rintro ⟨opener, hmem, hfault⟩
      exact ⟨_, hmem, by rw [← hfault]⟩
  rw [diagnosticsOf, List.mem_append, mem_faultsFrom, hunclosed]
  simp only [lineAfter, openIn, openAfter_nil, Nat.add_comm]

/-- A diagnostic that is about no unclosed opener is about a fragment. -/
theorem mem_diagnosticsOf_iff_of_ne {fs : List Fragment} {line : Nat} (fault : Fault)
    (h : ∀ opener, fault ≠ .unclosed opener) :
    ⟨line, fault⟩ ∈ diagnosticsOf fs ↔ ∃ before f after, fs = before ++ f :: after ∧
      line = lineAfter before ∧ f.fault? (openIn before).reverse = some fault := by
  rw [mem_diagnosticsOf]
  simp [h]

/-- An opener that stays open is given with the line on which it stands. -/
theorem exists_of_mem_openIn {fs : List Fragment} {d : Delimiter} (h : d ∈ openIn fs) :
    ∃ before after, fs = before ++ .whole (.delimiter d.1) :: after ∧ d.2 = lineAfter before := by
  obtain ⟨before, f, after, rfl, hline, hf⟩ := mem_delimitersFrom.1 ((unclosed_sublist _).subset h)
  rw [Fragment.eq_of_delimiter? hf]
  exact ⟨before, after, rfl, by rw [hline, lineAfter, Nat.add_comm]⟩

/-- The line on which a fragment begins is a line of the text, and a delimiter stands on it. -/
theorem getElem?_lines_lineAfter (before : List Fragment) (f : Fragment) (after : List Fragment) :
    ∃ content, (Text.lines (textOf (before ++ f :: after)))[lineAfter before - 1]? = some content ∧
      ∀ c, c ≠ '\n' → c ≠ '\r' → f.delimiter? = some c → c ∈ content := by
  obtain ⟨c, cs, hf⟩ := List.exists_cons_of_ne_nil f.text_ne_nil
  have htext : textOf (before ++ f :: after) = textOf before ++ c :: (cs ++ textOf after) := by
    rw [textOf_append, ← List.cons_append, ← hf]
    rfl
  obtain ⟨line, hline, hmem⟩ := Text.getElem?_linesWithEnds (textOf before) c (cs ++ textOf after)
  refine ⟨Text.stripLineEnd line, ?_, ?_⟩
  · rw [Text.lines, List.getElem?_map, htext, lineAfter, Nat.add_sub_cancel, hline, Option.map_some]
  · intro d hnewline hreturn hd
    have hsame : c = d := by
      rw [Fragment.eq_of_delimiter? hd] at hf
      exact (List.cons.inj hf).1.symm
    exact Text.mem_stripLineEnd (hsame ▸ hmem) hnewline hreturn

/-! ## Pointing at faults -/

/-- The delimiter that a fault is about. -/
def Fault.delimiter? : Fault → Option Char
  | mismatched closer _ _ => some closer
  | unopened closer => some closer
  | unclosed opener => some opener
  | _ => none

/-- The opener that a diagnostic finds never closed. -/
def Diagnostic.unclosed? : Diagnostic → Option Delimiter
  | ⟨line, .unclosed opener⟩ => some (opener, line)
  | _ => none

/-- Diagnostics that point at the faults of a text in fragments. -/
structure Pinpoints (fs : List Fragment) (ds : List Diagnostic) : Prop where
  /-- Each is on a line of the text, counted from one, and the delimiter it is about stands there. -/
  lines : ∀ d ∈ ds, 1 ≤ d.line ∧ ∃ content,
    (Text.lines (textOf fs))[d.line - 1]? = some content ∧
      ∀ c, d.fault.delimiter? = some c → c ∈ content
  /-- Each is about a delimiter or about something that does not end. -/
  kinds : ∀ d ∈ ds, (∃ c, d.fault.delimiter? = some c) ∨ ∃ kind, d.fault = .unterminated kind
  /-- A closer is unexpected in front of the innermost open delimiter, which is of another kind and
  given with its line. -/
  mismatched : ∀ line closer opener openLine,
    ⟨line, .mismatched closer opener openLine⟩ ∈ ds ↔
      ∃ before after, fs = before ++ .whole (.delimiter closer) :: after ∧
        line = lineAfter before ∧ isCloser closer = true ∧ openerOf closer ≠ opener ∧
        (openIn before).getLast? = some (opener, openLine)
  /-- A closer is unexpected with nothing open. -/
  unopened : ∀ line closer,
    ⟨line, .unopened closer⟩ ∈ ds ↔
      ∃ before after, fs = before ++ .whole (.delimiter closer) :: after ∧
        line = lineAfter before ∧ isCloser closer = true ∧ openIn before = []
  /-- What is broken off is reported on the line on which it begins. -/
  unterminated : ∀ line kind,
    ⟨line, .unterminated kind⟩ ∈ ds ↔
      ∃ before f after, fs = before ++ f :: after ∧ line = lineAfter before ∧ f.broken? = some kind
  /-- The openers that stay open are reported in their order and with their own lines. -/
  unclosed : ds.filterMap Diagnostic.unclosed? = openIn fs
  /-- At every place in the text an open delimiter is one of those in front, on its line. -/
  openers : ∀ before, before <+: fs → ∀ d ∈ openIn before, ∃ start rest,
    before = start ++ .whole (.delimiter d.1) :: rest ∧ d.2 = lineAfter start

/-- A delimiter among fragments opens or closes. -/
theorem isCloser_iff_of_scan {before after : List Fragment} {c : Char} {text : List Char}
    (h : Scan (before ++ .whole (.delimiter c) :: after) text) :
    isCloser c = true ↔ isOpener c = false := by
  have hfits : isOpener c = true ∨ isCloser c = true := h.fits
  constructor
  · intro hcloser
    exact (mem_delimiterPairs_of_isCloser hcloser).2
  · intro hopener
    exact hfits.resolve_left (by simp [hopener])

theorem delimiter_ne_lineEnd {c : Char} (h : isOpener c = true ∨ isCloser c = true) :
    c ≠ '\n' ∧ c ≠ '\r' := by
  simp only [isOpener, isCloser, Bool.or_eq_true, beq_iff_eq] at h
  rcases h with ((rfl | rfl) | rfl) | ((rfl | rfl) | rfl) <;> decide

section Scanned

variable {fs : List Fragment} {text : List Char}

/-- The diagnostics of a text are on its lines. -/
theorem lines_of_scan (h : Scan fs text) {d : Diagnostic} (hd : d ∈ diagnosticsOf fs) :
    1 ≤ d.line ∧ ∃ content, (Text.lines (textOf fs))[d.line - 1]? = some content ∧
      ∀ c, d.fault.delimiter? = some c → c ∈ content := by
  have place (before : List Fragment) (f : Fragment) (after : List Fragment)
      (hfs : fs = before ++ f :: after) (hline : d.line = lineAfter before)
      (hdelimiter : ∀ c, d.fault.delimiter? = some c → f.delimiter? = some c) :
      1 ≤ d.line ∧ ∃ content, (Text.lines (textOf fs))[d.line - 1]? = some content ∧
        ∀ c, d.fault.delimiter? = some c → c ∈ content := by
    subst hfs
    obtain ⟨content, hcontent, hmem⟩ := getElem?_lines_lineAfter before f after
    refine ⟨by rw [hline, lineAfter]; omega, content, by rw [hline, hcontent], ?_⟩
    intro c hc
    have hf := hdelimiter c hc
    rw [Fragment.eq_of_delimiter? hf] at h
    obtain ⟨hnewline, hreturn⟩ := delimiter_ne_lineEnd h.fits
    exact hmem c hnewline hreturn hf
  rcases mem_diagnosticsOf.1 hd with ⟨before, f, after, hfs, hline, hfault⟩ | ⟨opener, hopener, hfault⟩
  · refine place before f after hfs hline ?_
    intro c hc
    rcases fault?_eq_some_iff.1 hfault with ⟨closer, rfl, hmisfit⟩ | ⟨kind, -, hkind⟩
    · rcases of_misfit? hmisfit with heq | ⟨opener, line, heq⟩ <;>
      · rw [heq] at hc
        exact hc
    · rw [hkind] at hc
      cases hc
  · obtain ⟨before, after, hfs, hline⟩ := exists_of_mem_openIn hopener
    refine place before _ after hfs hline ?_
    intro c hc
    rw [hfault] at hc
    exact hc

theorem kinds_of_mem {d : Diagnostic} (hd : d ∈ diagnosticsOf fs) :
    (∃ c, d.fault.delimiter? = some c) ∨ ∃ kind, d.fault = .unterminated kind := by
  rcases mem_diagnosticsOf.1 hd with ⟨before, f, after, -, -, hfault⟩ | ⟨opener, -, hfault⟩
  · rcases fault?_eq_some_iff.1 hfault with ⟨closer, -, hmisfit⟩ | ⟨kind, -, hkind⟩
    · rcases of_misfit? hmisfit with heq | ⟨opener, line, heq⟩
      · exact .inl ⟨closer, by rw [heq]; rfl⟩
      · exact .inl ⟨closer, by rw [heq]; rfl⟩
    · exact .inr ⟨kind, hkind⟩
  · exact .inl ⟨opener, by rw [hfault]; rfl⟩

/-- A misfit of a text is a closer among its fragments behind the openers that are open there. -/
theorem mem_diagnosticsOf_of_misfit (h : Scan fs text) {line : Nat} (fault : Fault) {closer : Char}
    {P : List Delimiter → Prop} (hunclosed : ∀ opener, fault ≠ .unclosed opener)
    (hbroken : ∀ kind, fault ≠ .unterminated kind)
    (hmisfit : ∀ opened c, misfit? opened c = some fault ↔
      c = closer ∧ isOpener closer = false ∧ P opened.reverse) :
    ⟨line, fault⟩ ∈ diagnosticsOf fs ↔
      ∃ before after, fs = before ++ .whole (.delimiter closer) :: after ∧
        line = lineAfter before ∧ isCloser closer = true ∧ P (openIn before) := by
  rw [mem_diagnosticsOf_iff_of_ne fault hunclosed]
  constructor
  · rintro ⟨before, f, after, rfl, hline, hfault⟩
    rcases fault?_eq_some_iff.1 hfault with ⟨c, rfl, hc⟩ | ⟨kind, -, hkind⟩
    · obtain ⟨rfl, hopener, hP⟩ := (hmisfit _ _).1 hc
      rw [List.reverse_reverse] at hP
      exact ⟨before, after, rfl, hline, (isCloser_iff_of_scan h).2 hopener, hP⟩
    · exact absurd hkind (hbroken kind)
  · rintro ⟨before, after, rfl, hline, hcloser, hP⟩
    refine ⟨before, _, after, rfl, hline, fault?_eq_some_iff.2 (.inl ⟨closer, rfl, ?_⟩)⟩
    rw [hmisfit, List.reverse_reverse]
    exact ⟨rfl, (isCloser_iff_of_scan h).1 hcloser, hP⟩

/-- No fault of a fragment is an opener that is never closed. -/
theorem filterMap_unclosed?_faultsFrom (line : Nat) (opened : List Delimiter) :
    (faultsFrom line opened fs).filterMap Diagnostic.unclosed? = [] := by
  rw [List.filterMap_eq_nil_iff]
  intro d hd
  obtain ⟨before, f, after, -, -, hfault⟩ := mem_faultsFrom.1 hd
  obtain ⟨n, fault⟩ := d
  rcases fault?_eq_some_iff.1 hfault with ⟨closer, -, hmisfit⟩ | ⟨kind, -, hkind⟩
  · rcases of_misfit? hmisfit with heq | ⟨opener, line, heq⟩ <;>
    · dsimp only at heq
      rw [heq, Diagnostic.unclosed?]
      exact nofun
  · dsimp only at hkind
    rw [hkind, Diagnostic.unclosed?]
    exact nofun

theorem filterMap_unclosed?_neverClosed (ds : List Delimiter) :
    (neverClosed ds).filterMap Diagnostic.unclosed? = ds := by
  rw [neverClosed, List.filterMap_map]
  exact List.filterMap_some

/-- The diagnostics of a text in fragments point at its faults. -/
theorem pinpoints_of_scan (h : Scan fs text) : Pinpoints fs (diagnosticsOf fs) where
  lines _ hd := lines_of_scan h hd
  kinds _ hd := kinds_of_mem hd
  mismatched line closer opener openLine :=
    mem_diagnosticsOf_of_misfit h (.mismatched closer opener openLine) nofun nofun
      (P := fun opened => openerOf closer ≠ opener ∧ opened.getLast? = some (opener, openLine))
      fun opened c => by rw [misfit?_eq_mismatched_iff, List.getLast?_reverse]
  unopened line closer :=
    mem_diagnosticsOf_of_misfit h (.unopened closer) nofun nofun (P := (· = []))
      fun opened c => by rw [misfit?_eq_unopened_iff, List.reverse_eq_nil_iff]
  unterminated line kind := by
    rw [mem_diagnosticsOf_iff_of_ne (.unterminated kind) nofun]
    simp only [fault?_eq_unterminated_iff]
  unclosed := by
    rw [diagnosticsOf, List.filterMap_append, filterMap_unclosed?_faultsFrom,
      filterMap_unclosed?_neverClosed, List.nil_append]
  openers _ _ _ hd := exists_of_mem_openIn hd

end Scanned

/-- Every text can be cut into fragments, and its diagnostics point at the faults of these. -/
theorem diagnostics_pinpoint (text : List Char) :
    (∃ fs, Scan fs text) ∧ ∀ fs, Scan fs text → Pinpoints fs (Lexer.feed {} text).finish := by
  refine ⟨exists_scan text, ?_⟩
  intro fs h
  rw [finish_feed h]
  exact pinpoints_of_scan h

/-- A string that its line breaks off, and a closer that fits neither of the two open delimiters. -/
theorem diagnostics_pinpoint_misfit :
    let text := "package x\nfunc f() \x7b\n\ts := \"open\n\tg(]\n".toList
    (∃ fs, Scan fs text ∧ Pinpoints fs (Lexer.feed {} text).finish) ∧
      (Lexer.feed {} text).finish =
        [⟨3, .unterminated "string literal"⟩, ⟨4, .mismatched ']' '(' 4⟩, ⟨2, .unclosed '\x7b'⟩,
          ⟨4, .unclosed '('⟩] := by
  intro text
  obtain ⟨⟨fs, hscan⟩, hpinpoints⟩ := diagnostics_pinpoint text
  refine ⟨⟨fs, hscan, hpinpoints fs hscan⟩, ?_⟩
  decide +kernel

end Recast.Go
