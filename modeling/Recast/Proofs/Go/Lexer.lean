/-
  Proofs/Go/Lexer.lean --- what the lexer makes of a part of a text.

  The tokens do not steer the lexer, so two states that differ only in them go on alike (`Alike`).
  A part that `Passes` leaves code in code with the same delimiters open and nothing reported; such
  parts compose, and a text made of them can be checked part by part.
-/
import Recast.Go.Check

set_option autoImplicit false

namespace Recast.Go.Lexer

/-! ## States that go on alike -/

/-- The state with other tokens. -/
def withTokens (l : Lexer) (head : List (List Char)) (word : List Char) : Lexer :=
  { l with head, word }

/-- Two states that differ at most in their tokens. -/
def Alike (l m : Lexer) : Prop := ∃ head word, m = l.withTokens head word

namespace Alike

theorem refl (l : Lexer) : Alike l l := ⟨l.head, l.word, rfl⟩

theorem symm {l m : Lexer} (h : Alike l m) : Alike m l := by
  obtain ⟨head, word, rfl⟩ := h
  exact ⟨l.head, l.word, rfl⟩

theorem trans {l m n : Lexer} (h : Alike l m) (h' : Alike m n) : Alike l n := by
  obtain ⟨head, word, rfl⟩ := h
  obtain ⟨head', word', rfl⟩ := h'
  exact ⟨head', word', rfl⟩

theorem finish_eq {l m : Lexer} (h : Alike l m) : m.finish = l.finish := by
  obtain ⟨head, word, rfl⟩ := h
  rfl

theorem diagnostics_eq {l m : Lexer} (h : Alike l m) : m.diagnostics = l.diagnostics := by
  obtain ⟨head, word, rfl⟩ := h
  rfl

theorem token (t : List Char) (l : Lexer) : Alike l (l.token t) := by
  unfold Lexer.token
  split
  · exact ⟨_, _, rfl⟩
  · exact refl l

theorem endWord (l : Lexer) : Alike l l.endWord := by
  unfold Lexer.endWord
  split
  · exact refl l
  · exact trans ⟨_, _, rfl⟩ (token _ _)

theorem close {l m : Lexer} (h : Alike l m) (c : Char) : Alike (l.close c) (m.close c) := by
  obtain ⟨head, word, rfl⟩ := h
  refine ⟨head, word, ?_⟩
  obtain ⟨mode, line, stack, opened, literalLine, diagnostics, head₀, word₀⟩ := l
  cases stack with
  | nil => rfl
  | cons top rest =>
    unfold Lexer.close withTokens
    dsimp only
    split <;> rfl

theorem mark {l m : Lexer} (h : Alike l m) (c : Char) : Alike (l.mark c) (m.mark c) := by
  have hclose := close h c
  obtain ⟨head, word, rfl⟩ := h
  unfold Lexer.mark
  repeat' split
  all_goals first | exact hclose | exact ⟨head, word, rfl⟩

theorem code {l m : Lexer} (h : Alike l m) (c : Char) : Alike (l.code c) (m.code c) := by
  have hword : Alike l.endWord m.endWord := ((endWord l).symm.trans h).trans (endWord m)
  have hmark := mark hword c
  unfold Lexer.code
  split
  · obtain ⟨head, word, rfl⟩ := h
    exact ⟨head, word ++ [c], rfl⟩
  · dsimp only
    split
    · obtain ⟨head, word, hw⟩ := hword
      exact ⟨head, word, by rw [hw]; rfl⟩
    · split
      · exact hmark
      · exact ((token _ _).symm.trans hmark).trans (token _ _)

theorem stepMode {l m : Lexer} (h : Alike l m) (c : Char) :
    Alike (l.stepMode c) (m.stepMode c) := by
  have hcode := code h c
  obtain ⟨head, word, rfl⟩ := h
  unfold Lexer.stepMode
  rw [show (l.withTokens head word).mode = l.mode from rfl]
  split
  · exact hcode
  · split
    · exact ⟨head, word, rfl⟩
    · split
      · exact ⟨head, word, rfl⟩
      · refine code ?_ c
        exact ((token _ _).symm.trans ⟨head, word, rfl⟩).trans (token _ _)
  · split <;> exact ⟨head, word, rfl⟩
  · split <;> exact ⟨head, word, rfl⟩
  · unfold quoted
    repeat' split
    all_goals exact ⟨head, word, rfl⟩
  · unfold quoted
    repeat' split
    all_goals exact ⟨head, word, rfl⟩
  · split <;> exact ⟨head, word, rfl⟩

theorem step {l m : Lexer} (h : Alike l m) (c : Char) : Alike (l.step c) (m.step c) := by
  obtain ⟨head, word, hm⟩ := stepMode h c
  unfold Lexer.step
  rw [hm]
  dsimp only
  split <;> exact ⟨head, word, rfl⟩

/-- States that differ only in their tokens differ only in their tokens after any text. -/
theorem feed {l m : Lexer} (h : Alike l m) (cs : List Char) : Alike (l.feed cs) (m.feed cs) := by
  induction cs generalizing l m with
  | nil => exact h
  | cons c cs ih => exact ih (h.step c)

end Alike

/-! ## Characters in code -/

@[simp] theorem mode_step (l : Lexer) (c : Char) : (l.step c).mode = (l.stepMode c).mode := by
  unfold step
  dsimp only
  split <;> rfl

@[simp] theorem stack_step (l : Lexer) (c : Char) : (l.step c).stack = (l.stepMode c).stack := by
  unfold step
  dsimp only
  split <;> rfl

@[simp] theorem diagnostics_step (l : Lexer) (c : Char) :
    (l.step c).diagnostics = (l.stepMode c).diagnostics := by
  unfold step
  dsimp only
  split <;> rfl

theorem step_of_ne_newline (l : Lexer) {c : Char} (h : c ≠ '\n') : l.step c = l.stepMode c := by
  simp only [step, if_neg h]

theorem stepMode_of_code {l : Lexer} (h : l.mode = .code) (c : Char) : l.stepMode c = l.code c := by
  simp only [stepMode, h]

/-- Whether a character in code opens and closes nothing and begins no literal and no comment. -/
def isInert (c : Char) : Bool :=
  !isOpener c && !isCloser c && c != '"' && c != '\'' && c != '\x60' && c != '/'

theorem mark_of_isInert {c : Char} (h : isInert c = true) (l : Lexer) : l.mark c = l := by
  simp only [isInert, Bool.and_eq_true, Bool.not_eq_true', bne_iff_ne] at h
  obtain ⟨⟨⟨⟨⟨hopen, hclose⟩, hstring⟩, hrune⟩, hraw⟩, -⟩ := h
  simp [mark, hopen, hclose, hstring, hrune, hraw]

/-- A character in code other than a slash or a part of a word does what its mark does. -/
theorem alike_code_of_mark (l : Lexer) {c : Char} (hword : Text.isWordChar c = false)
    (hslash : c ≠ '/') : Alike (l.mark c) (l.code c) := by
  have hend : Alike (l.mark c) (l.endWord.mark c) := (Alike.endWord l).mark c
  simp only [code, hword, Bool.false_eq_true, if_false, if_neg hslash]
  split
  · exact hend
  · exact hend.trans (.token _ _)

/-- An inert character in code touches the tokens only. -/
theorem alike_code_of_isInert (l : Lexer) {c : Char} (h : isInert c = true) :
    Alike l (l.code c) := by
  cases hword : Text.isWordChar c with
  | true => exact ⟨l.head, l.word ++ [c], by simp [code, hword, withTokens]⟩
  | false =>
    have hslash : c ≠ '/' := by
      rintro rfl
      exact absurd h (by decide)
    have hmark := alike_code_of_mark l hword hslash
    rwa [mark_of_isInert h] at hmark

/-! ## States with more around them -/

/-- The open delimiters, innermost first. -/
def kinds (l : Lexer) : List Char := l.stack.map Prod.fst

/-- A state without faults, and the same state inside more delimiters and behind other faults. -/
structure Within (around : List Char) (before : List Diagnostic) (l m : Lexer) : Prop where
  mode : m.mode = l.mode
  kinds : m.kinds = l.kinds ++ around
  silent : l.diagnostics = []
  diagnostics : m.diagnostics = before

namespace Within

variable {around : List Char} {before : List Diagnostic} {l m : Lexer}

theorem of_alike {l' m' : Lexer} (h : Within around before l m) (hl : Alike l l')
    (hm : Alike m m') : Within around before l' m' := by
  obtain ⟨head, word, rfl⟩ := hl
  obtain ⟨head', word', rfl⟩ := hm
  exact ⟨h.mode, h.kinds, h.silent, h.diagnostics⟩

theorem setMode (h : Within around before l m) (next : Mode) (line line' : Nat) :
    Within around before { l with mode := next, literalLine := line }
      { m with mode := next, literalLine := line' } :=
  ⟨rfl, h.kinds, h.silent, h.diagnostics⟩

theorem close (h : Within around before l m) {c : Char} (hsilent : (l.close c).diagnostics = []) :
    Within around before (l.close c) (m.close c) := by
  have hkinds := h.kinds
  unfold Lexer.close at hsilent ⊢
  cases hl : l.stack with
  | nil => simp [hl, report] at hsilent
  | cons top rest =>
    obtain ⟨opener, line⟩ := top
    simp only [hl] at hsilent ⊢
    cases hm : m.stack with
    | nil => simp [Lexer.kinds, hl, hm] at hkinds
    | cons top' rest' =>
      obtain ⟨opener', line'⟩ := top'
      simp only [Lexer.kinds, hl, hm, List.map_cons, List.cons_append, List.cons.injEq] at hkinds
      obtain ⟨rfl, hrest⟩ := hkinds
      split at hsilent
      · next heq =>
        simp only [if_pos heq]
        exact ⟨h.mode, hrest, h.silent, h.diagnostics⟩
      · simp [report] at hsilent

theorem mark (h : Within around before l m) {c : Char} (hsilent : (l.mark c).diagnostics = []) :
    Within around before (l.mark c) (m.mark c) := by
  unfold Lexer.mark at hsilent ⊢
  by_cases hstring : c = '"'
  · simp only [if_pos hstring]
    exact h.setMode _ _ _
  by_cases hrune : c = '\''
  · simp only [if_neg hstring, if_pos hrune]
    exact h.setMode _ _ _
  by_cases hraw : c = '\x60'
  · simp only [if_neg hstring, if_neg hrune, if_pos hraw]
    exact h.setMode _ _ _
  simp only [if_neg hstring, if_neg hrune, if_neg hraw] at hsilent ⊢
  split
  · exact ⟨h.mode, congrArg (c :: ·) h.kinds, h.silent, h.diagnostics⟩
  · next hopener =>
    rw [if_neg hopener] at hsilent
    split
    · next hcloser =>
      rw [if_pos hcloser] at hsilent
      exact h.close hsilent
    · exact h

theorem code (h : Within around before l m) {c : Char} (hsilent : (l.code c).diagnostics = []) :
    Within around before (l.code c) (m.code c) := by
  have hend := h.of_alike (.endWord l) (.endWord m)
  unfold Lexer.code at hsilent ⊢
  split
  · exact h.of_alike ⟨_, _, rfl⟩ ⟨_, _, rfl⟩
  · next hword =>
    rw [if_neg hword] at hsilent
    dsimp only at hsilent ⊢
    split
    · exact hend.setMode .slash _ _
    · next hslash =>
      rw [if_neg hslash] at hsilent
      split
      · next hblank =>
        rw [if_pos hblank] at hsilent
        exact hend.mark hsilent
      · next hblank =>
        rw [if_neg hblank, (Alike.token _ _).diagnostics_eq] at hsilent
        exact (hend.mark hsilent).of_alike (.token _ _) (.token _ _)

theorem quoted (h : Within around before l m) {quote : Char} {kind : String}
    {again : Bool → Mode} {escaped : Bool} {c : Char}
    (hsilent : (l.quoted quote kind again escaped c).diagnostics = []) :
    Within around before (l.quoted quote kind again escaped c)
      (m.quoted quote kind again escaped c) := by
  unfold Lexer.quoted at hsilent ⊢
  split
  · next hbreak => simp [hbreak, breakLiteral, report] at hsilent
  · split
    · exact h.setMode .code _ _
    · exact h.setMode _ _ _

theorem stepMode (h : Within around before l m) {c : Char}
    (hsilent : (l.stepMode c).diagnostics = []) :
    Within around before (l.stepMode c) (m.stepMode c) := by
  unfold Lexer.stepMode at hsilent ⊢
  rw [h.mode]
  cases hmode : l.mode with
  | code =>
    rw [hmode] at hsilent
    exact h.code hsilent
  | slash =>
    simp only [hmode] at hsilent ⊢
    split
    · exact h.setMode .lineComment _ _
    · split
      · exact h.setMode (.blockComment false) _ _
      · next hline hblock =>
        rw [if_neg hline, if_neg hblock] at hsilent
        exact ((h.setMode .code _ _).of_alike (.token _ _) (.token _ _)).code hsilent
  | lineComment =>
    dsimp only
    split
    · exact h.setMode .code _ _
    · exact h
  | blockComment star =>
    dsimp only
    split
    · exact h.setMode .code _ _
    · exact h.setMode _ _ _
  | interpreted escaped =>
    rw [hmode] at hsilent
    exact h.quoted hsilent
  | rune escaped =>
    rw [hmode] at hsilent
    exact h.quoted hsilent
  | raw =>
    dsimp only
    split
    · exact h.setMode .code _ _
    · exact h

/-- What is around a state does not matter to a step that finds no fault. -/
theorem step (h : Within around before l m) {c : Char} (hsilent : (l.step c).diagnostics = []) :
    Within around before (l.step c) (m.step c) := by
  rw [diagnostics_step] at hsilent
  have hstep := h.stepMode hsilent
  unfold Lexer.step
  dsimp only
  split
  · exact ⟨hstep.mode, hstep.kinds, hstep.silent, hstep.diagnostics⟩
  · exact hstep

end Within

/-! ## Faults stay -/

theorem prefix_close (l : Lexer) (c : Char) : l.diagnostics <+: (l.close c).diagnostics := by
  unfold close
  split
  · split
    · exact List.prefix_refl _
    · exact List.prefix_append _ _
  · exact List.prefix_append _ _

theorem prefix_mark (l : Lexer) (c : Char) : l.diagnostics <+: (l.mark c).diagnostics := by
  unfold mark
  repeat' split
  all_goals first | exact prefix_close l c | exact List.prefix_refl _

theorem prefix_code (l : Lexer) (c : Char) : l.diagnostics <+: (l.code c).diagnostics := by
  have hend := (Alike.endWord l).diagnostics_eq
  have hmark := prefix_mark l.endWord c
  rw [hend] at hmark
  unfold code
  split
  · exact List.prefix_refl _
  · dsimp only
    split
    · exact ⟨[], (List.append_nil _).trans hend.symm⟩
    · split
      · exact hmark
      · rwa [(Alike.token _ _).diagnostics_eq]

theorem prefix_quoted (l : Lexer) (quote : Char) (kind : String) (again : Bool → Mode)
    (escaped : Bool) (c : Char) :
    l.diagnostics <+: (l.quoted quote kind again escaped c).diagnostics := by
  unfold quoted
  split
  · exact List.prefix_append _ _
  · split <;> exact List.prefix_refl _

theorem prefix_step (l : Lexer) (c : Char) : l.diagnostics <+: (l.step c).diagnostics := by
  rw [diagnostics_step]
  unfold stepMode
  split
  · exact prefix_code l c
  · split
    · exact List.prefix_refl _
    · split
      · exact List.prefix_refl _
      · have htoken := (Alike.token ['/'] { l with mode := .code }).diagnostics_eq
        have hcode := prefix_code ({ l with mode := .code }.token ['/']) c
        rwa [htoken] at hcode
  · split <;> exact List.prefix_refl _
  · split <;> exact List.prefix_refl _
  · exact prefix_quoted l _ _ _ _ c
  · exact prefix_quoted l _ _ _ _ c
  · split <;> exact List.prefix_refl _

/-- No text takes a fault back. -/
theorem prefix_feed (l : Lexer) (cs : List Char) : l.diagnostics <+: (l.feed cs).diagnostics := by
  induction cs generalizing l with
  | nil => exact List.prefix_refl _
  | cons c cs ih => exact (prefix_step l c).trans (ih (l.step c))

/-- What is around a state does not matter to a text that shows no fault. -/
theorem Within.feed {around : List Char} {before : List Diagnostic} {l m : Lexer}
    (h : Within around before l m) {cs : List Char} (hsilent : (l.feed cs).diagnostics = []) :
    Within around before (l.feed cs) (m.feed cs) := by
  induction cs generalizing l m with
  | nil => exact h
  | cons c cs ih =>
    have hstep : (l.step c).diagnostics = [] := by
      have hprefix := prefix_feed (l.step c) cs
      rw [feed_cons] at hsilent
      rw [hsilent] at hprefix
      exact List.prefix_nil.1 hprefix
    exact ih (h.step hstep) hsilent

/-! ## Parts of a text -/

/-- A text that leads from one mode and the innermost open delimiters to others without a fault,
whatever else is open. -/
def Leads (cs : List Char) (mode : Mode) (opened : List Char) (mode' : Mode)
    (opened' : List Char) : Prop :=
  ∀ (l : Lexer) (around : List Char), l.mode = mode → l.kinds = opened ++ around →
    (l.feed cs).mode = mode' ∧ (l.feed cs).kinds = opened' ++ around ∧
      (l.feed cs).diagnostics = l.diagnostics

/-- A text that leads from code to code and leaves the open delimiters alone. -/
abbrev Passes (cs : List Char) : Prop := Leads cs .code [] .code []

/-- The state in a mode with delimiters open, and nothing else. -/
def opening (mode : Mode) (opened : List Char) : Lexer :=
  { mode, stack := opened.map fun c => (c, 1) }

namespace Leads

variable {cs ds : List Char} {mode mode' mode'' : Mode} {opened opened' opened'' : List Char}

theorem append (h : Leads cs mode opened mode' opened')
    (h' : Leads ds mode' opened' mode'' opened'') :
    Leads (cs ++ ds) mode opened mode'' opened'' := by
  intro l around hmode hkinds
  obtain ⟨hmode', hkinds', hdiagnostics⟩ := h l around hmode hkinds
  obtain ⟨hmode'', hkinds'', hdiagnostics'⟩ := h' (l.feed cs) around hmode' hkinds'
  rw [feed_append]
  exact ⟨hmode'', hkinds'', hdiagnostics'.trans hdiagnostics⟩

/-- More delimiters may be open further out. -/
theorem inside (h : Leads cs mode opened mode' opened') (more : List Char) :
    Leads cs mode (opened ++ more) mode' (opened' ++ more) := by
  intro l around hmode hkinds
  rw [List.append_assoc] at hkinds ⊢
  exact h l (more ++ around) hmode hkinds

/-- It is enough to read the text once, with nothing else around it. -/
theorem of_feed (hmode : ((opening mode opened).feed cs).mode = mode')
    (hkinds : ((opening mode opened).feed cs).kinds = opened')
    (hsilent : ((opening mode opened).feed cs).diagnostics = []) :
    Leads cs mode opened mode' opened' := by
  intro l around hl hopened
  have hkindsOpening : (opening mode opened).kinds = opened := by
    simp [kinds, opening, Function.comp_def]
  have hwithin : Within around l.diagnostics (opening mode opened) l :=
    ⟨hl, by rw [hopened, hkindsOpening], rfl, rfl⟩
  have hfeed := hwithin.feed hsilent
  exact ⟨hfeed.mode.trans hmode, by rw [hfeed.kinds, hkinds], hfeed.diagnostics⟩

end Leads

/-! ## Comments and strings -/

theorem step_slash {l : Lexer} (hl : l.mode = .code) :
    l.step '/' = { l.endWord with mode := .slash } := by
  rw [step_of_ne_newline l (by decide), stepMode_of_code hl]
  rfl

theorem feed_of_lineComment {l : Lexer} (hl : l.mode = .lineComment) {cs : List Char}
    (h : '\n' ∉ cs) : l.feed cs = l := by
  induction cs with
  | nil => rfl
  | cons c cs ih =>
    have hc : '\n' ≠ c := List.ne_of_not_mem_cons h
    have hcs : '\n' ∉ cs := List.not_mem_of_not_mem_cons h
    have hstep : l.step c = l := by
      rw [step_of_ne_newline l hc.symm]
      simp only [stepMode, hl, if_neg hc.symm]
    rw [feed_cons, hstep]
    exact ih hcs

/-- A comment to the end of its line only ends the word before it and the line. -/
theorem feed_lineComment {l : Lexer} (hl : l.mode = .code) {cs : List Char} (h : '\n' ∉ cs) :
    l.feed ('/' :: '/' :: cs ++ ['\n']) = { l.endWord with line := l.line + 1 } := by
  have hbegin : (l.feed ['/', '/']) = { l.endWord with mode := .lineComment } := by
    rw [feed_cons, feed_cons, feed_nil, step_slash hl, step_of_ne_newline _ (by decide)]
    rfl
  have hmode : l.endWord.mode = .code := by
    obtain ⟨head, word, hw⟩ := Alike.endWord l
    rw [hw]
    exact hl
  have hline : l.endWord.line = l.line := by
    obtain ⟨head, word, hw⟩ := Alike.endWord l
    rw [hw]
    rfl
  have hsplit : '/' :: '/' :: cs ++ ['\n'] = ['/', '/'] ++ (cs ++ ['\n']) := rfl
  rw [hsplit, feed_append, hbegin, feed_append, feed_of_lineComment rfl h, feed_cons, feed_nil]
  simp only [step, stepMode, if_true, hline, ← hmode]

theorem feed_of_interpreted {l : Lexer} (hl : l.mode = .interpreted false) {cs : List Char}
    (h : ∀ c ∈ cs, c ≠ '"' ∧ c ≠ '\\' ∧ c ≠ '\n') : l.feed cs = l := by
  induction cs with
  | nil => rfl
  | cons c cs ih =>
    obtain ⟨hquote, hescape, hnewline⟩ := h c (.head _)
    have hstep : l.step c = l := by
      rw [step_of_ne_newline l hnewline]
      have hbeq : (c == '\\') = false := beq_false_of_ne hescape
      simp only [stepMode, hl, quoted, if_neg hnewline, hquote, false_and, if_false, hbeq,
        Bool.and_false]
      rw [← hl]
    rw [feed_cons, hstep]
    exact ih fun d hd => h d (.tail _ hd)

namespace Leads

variable {cs : List Char} (opened : List Char)

/-- Code goes on over inert characters. -/
theorem of_isInert (h : ∀ c ∈ cs, isInert c = true) : Leads cs .code opened .code opened := by
  induction cs with
  | nil => exact fun _ _ hmode hkinds => ⟨hmode, hkinds, rfl⟩
  | cons c cs ih =>
    have hstep : Leads [c] .code opened .code opened := by
      intro l around hmode hkinds
      have hc := h c (.head _)
      obtain ⟨head, word, hcode⟩ := alike_code_of_isInert l hc
      have hdiagnostics := diagnostics_step l c
      have hstack := stack_step l c
      have hnext := mode_step l c
      rw [stepMode_of_code hmode, hcode] at hdiagnostics hstack hnext
      refine ⟨hnext.trans hmode, ?_, hdiagnostics⟩
      rw [← hkinds, kinds, kinds, feed_cons, feed_nil, hstack]
      rfl
    exact hstep.append (ih fun d hd => h d (.tail _ hd))

/-- A comment goes on to the end of its line. -/
theorem of_comment (h : '\n' ∉ cs) : Leads cs .lineComment opened .lineComment opened := by
  intro l around hmode hkinds
  rw [feed_of_lineComment hmode h]
  exact ⟨hmode, hkinds, rfl⟩

/-- A string goes on over characters that neither end it nor escape anything. -/
theorem of_string (h : ∀ c ∈ cs, c ≠ '"' ∧ c ≠ '\\' ∧ c ≠ '\n') :
    Leads cs (.interpreted false) opened (.interpreted false) opened := by
  intro l around hmode hkinds
  rw [feed_of_interpreted hmode h]
  exact ⟨hmode, hkinds, rfl⟩

end Leads

end Recast.Go.Lexer
