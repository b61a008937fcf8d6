/-
  Proofs/Go/Beginning.lean --- what the beginnings of a valid text are like.

  The lines that a text stands on do not decide how it is read (`Abreast`), so blank lines in front of
  it do not matter (`abreast_blankLines`).  A beginning of a valid text that leaves nothing open, and
  in which something was opened, is valid itself, with the same package clause
  (`check_beginning`).
-/
import Recast.Proofs.Go.Check

set_option autoImplicit false

namespace Recast.Text

/-- A blank is no part of a word. -/
theorem isWordChar_of_isBlank {c : Char} (h : isBlank c = true) : isWordChar c = false := by
  have hall : ((List.range' 9 5 ++ [0x20, 0x85, 0xA0, 0x1680] ++ List.range' 0x2000 11 ++
      [0x2028, 0x2029, 0x202F, 0x205F, 0x3000]).all fun n => !isWordChar (Char.ofNat n)) = true := by
    decide +kernel
  have hcode : c.toNat ∈ List.range' 9 5 ++ [0x20, 0x85, 0xA0, 0x1680] ++ List.range' 0x2000 11 ++
      [0x2028, 0x2029, 0x202F, 0x205F, 0x3000] := by
    simp only [isBlank] at h
    simp only [List.mem_append, List.mem_range'_1, List.mem_cons, List.not_mem_nil, or_false]
    split at h <;> simp at h <;> omega
  have hc := List.all_eq_true.1 hall _ hcode
  rw [Char.ofNat_toNat] at hc
  simpa using hc

end Recast.Text

namespace Recast.Go

namespace Lexer

/-- Blanks open and close nothing and begin nothing. -/
theorem isInert_of_isBlank {c : Char} (h : Text.isBlank c = true) : isInert c = true := by
  have hspecial : ['(', '[', '{', ')', ']', '}', '"', '\'', '\x60', '/'].all
      (fun d => !Text.isBlank d) = true := by decide
  have hne : ∀ d ∈ ['(', '[', '{', ')', ']', '}', '"', '\'', '\x60', '/'], c ≠ d := by
    rintro d hd rfl
    have hnot := List.all_eq_true.1 hspecial c hd
    rw [h] at hnot
    exact Bool.noConfusion hnot
  simp only [List.mem_cons, List.not_mem_nil, or_false, forall_eq_or_imp, forall_eq] at hne
  obtain ⟨h₁, h₂, h₃, h₄, h₅, h₆, h₇, h₈, h₉, h₀⟩ := hne
  simp [isInert, isOpener, isCloser, *]

/-! ## States on other lines -/

/-- Two states that differ at most in the lines on which they found things. -/
structure Abreast (l m : Lexer) : Prop where
  mode : m.mode = l.mode
  kinds : m.kinds = l.kinds
  opened : m.opened = l.opened
  head : m.head = l.head
  word : m.word = l.word
  faults : m.diagnostics.length = l.diagnostics.length

namespace Abreast

variable {l m : Lexer}

theorem setMode (h : Abreast l m) (next : Mode) (line line' : Nat) :
    Abreast { l with mode := next, literalLine := line }
      { m with mode := next, literalLine := line' } :=
  ⟨rfl, h.kinds, h.opened, h.head, h.word, h.faults⟩

theorem token (h : Abreast l m) (t : List Char) : Abreast (l.token t) (m.token t) := by
  unfold Lexer.token
  rw [h.head]
  split
  · exact ⟨h.mode, h.kinds, h.opened, rfl, h.word, h.faults⟩
  · exact h

theorem endWord (h : Abreast l m) : Abreast l.endWord m.endWord := by
  unfold Lexer.endWord
  rw [h.word]
  split
  · exact h
  · have hended : Abreast { l with word := [] } { m with word := [] } :=
      ⟨h.mode, h.kinds, h.opened, h.head, rfl, h.faults⟩
    exact hended.token _

theorem report (h : Abreast l m) (fault fault' : Fault) :
    Abreast (l.report fault) (m.report fault') := by
  refine ⟨h.mode, h.kinds, h.opened, h.head, h.word, ?_⟩
  simp only [Lexer.report, List.length_append, List.length_singleton, h.faults]

theorem close (h : Abreast l m) (c : Char) : Abreast (l.close c) (m.close c) := by
  have hkinds := h.kinds
  unfold Lexer.close
  cases hl : l.stack with
  | nil =>
    cases hm : m.stack with
    | nil => exact h.report _ _
    | cons top rest => simp [Lexer.kinds, hl, hm] at hkinds
  | cons top rest =>
    cases hm : m.stack with
    | nil => simp [Lexer.kinds, hl, hm] at hkinds
    | cons top' rest' =>
      simp only [Lexer.kinds, hl, hm, List.map_cons, List.cons.injEq] at hkinds
      obtain ⟨htop, hrest⟩ := hkinds
      dsimp only
      rw [htop]
      split
      · exact ⟨h.mode, hrest, h.opened, h.head, h.word, h.faults⟩
      · exact h.report _ _

theorem mark (h : Abreast l m) (c : Char) : Abreast (l.mark c) (m.mark c) := by
  unfold Lexer.mark
  split
  · exact h.setMode _ _ _
  · split
    · exact h.setMode _ _ _
    · split
      · exact h.setMode _ _ _
      · split
        · exact ⟨h.mode, congrArg (c :: ·) h.kinds, rfl, h.head, h.word, h.faults⟩
        · split
          · exact h.close c
          · exact h

theorem code (h : Abreast l m) (c : Char) : Abreast (l.code c) (m.code c) := by
  have hmark := h.endWord.mark c
  unfold Lexer.code
  split
  · exact ⟨h.mode, h.kinds, h.opened, h.head, congrArg (· ++ [c]) h.word, h.faults⟩
  · dsimp only
    split
    · exact h.endWord.setMode .slash _ _
    · split
      · exact hmark
      · exact hmark.token [c]

theorem quoted (h : Abreast l m) (quote : Char) (kind : String) (again : Bool → Mode)
    (escaped : Bool) (c : Char) :
    Abreast (l.quoted quote kind again escaped c) (m.quoted quote kind again escaped c) := by
  unfold Lexer.quoted
  split
  · exact (h.report _ _).setMode .code _ _
  · split
    · exact h.setMode .code _ _
    · exact h.setMode _ _ _

theorem stepMode (h : Abreast l m) (c : Char) : Abreast (l.stepMode c) (m.stepMode c) := by
  unfold Lexer.stepMode
  rw [h.mode]
  cases l.mode with
  | code => exact h.code c
  | slash =>
    dsimp only
    split
    · exact h.setMode .lineComment _ _
    · split
      · exact h.setMode (.blockComment false) _ _
      · exact ((h.setMode .code l.literalLine m.literalLine).token ['/']).code c
  | lineComment | raw =>
    dsimp only
    split
    · exact h.setMode .code _ _
    · exact h
  | blockComment star =>
    dsimp only
    split
    · exact h.setMode .code _ _
    · exact h.setMode _ _ _
  | interpreted escaped | rune escaped => exact h.quoted _ _ _ _ _

theorem step (h : Abreast l m) (c : Char) : Abreast (l.step c) (m.step c) := by
  have hmode := h.stepMode c
  unfold Lexer.step
  dsimp only
  split
  · exact ⟨hmode.mode, hmode.kinds, hmode.opened, hmode.head, hmode.word, hmode.faults⟩
  · exact hmode

/-- A text is read alike from two states that differ in lines only. -/
theorem feed (h : Abreast l m) (cs : List Char) : Abreast (l.feed cs) (m.feed cs) := by
  induction cs generalizing l m with
  | nil => exact h
  | cons c cs ih => exact ih (h.step c)

theorem balanced (h : Abreast l m) : m.balanced = l.balanced := by
  have hempty : m.stack.isEmpty = l.stack.isEmpty := by
    have hkinds := congrArg List.isEmpty h.kinds
    simpa only [Lexer.kinds, List.isEmpty_map] using hkinds
  rw [Lexer.balanced, Lexer.balanced, hempty, h.mode]

end Abreast

/-- Blank lines in front of a text move it to another line, and that is all. -/
theorem abreast_blankLines {blanks : List Char} (h : Text.allBlank blanks = true) :
    Abreast {} (Lexer.feed {} blanks) := by
  suffices hline : ∀ line, ∃ line', ({ line } : Lexer).feed blanks = { line := line' } by
    obtain ⟨line, heq⟩ := hline 1
    rw [heq]
    exact ⟨rfl, rfl, rfl, rfl, rfl, rfl⟩
  induction blanks with
  | nil => exact fun line => ⟨line, rfl⟩
  | cons c blanks ih =>
    intro line
    obtain ⟨hc, hblanks⟩ := Bool.and_eq_true_iff.1 h
    have hcode : ({ line } : Lexer).code c = { line } := by
      rw [code_of_isBlank _ hc (Text.isWordChar_of_isBlank hc) (isInert_of_isBlank hc)]
      rfl
    have hstep : ∃ line', ({ line } : Lexer).step c = { line := line' } := by
      rw [step, stepMode_of_code rfl, hcode]
      split
      · exact ⟨_, rfl⟩
      · exact ⟨_, rfl⟩
    obtain ⟨line', hstep⟩ := hstep
    rw [feed_cons, hstep]
    exact ih hblanks line'

/-! ## Tokens stay -/

theorem leads_token (t : List Char) (l : Lexer) : l.head <+: (l.token t).head := by
  unfold token
  split
  · exact List.prefix_append _ _
  · exact List.prefix_refl _

theorem leads_endWord (l : Lexer) : l.head <+: l.endWord.head := by
  unfold endWord
  split
  · exact List.prefix_refl _
  · exact leads_token _ { l with word := [] }

theorem leads_head_code (l : Lexer) (c : Char) : l.head <+: (l.code c).head := by
  have hmark : l.head <+: (l.endWord.mark c).head := by
    rw [head_mark]
    exact leads_endWord l
  unfold code
  split
  · exact List.prefix_refl _
  · dsimp only
    split
    · exact leads_endWord l
    · split
      · exact hmark
      · exact hmark.trans (leads_token _ _)

theorem leads_head_stepMode (l : Lexer) (c : Char) : l.head <+: (l.stepMode c).head := by
  unfold stepMode
  cases l.mode with
  | code => exact leads_head_code l c
  | slash =>
    dsimp only
    split
    · exact List.prefix_refl _
    · split
      · exact List.prefix_refl _
      · exact (leads_token ['/'] { l with mode := .code }).trans (leads_head_code _ c)
  | lineComment | blockComment | raw =>
    dsimp only
    split <;> exact List.prefix_refl _
  | interpreted | rune =>
    dsimp only [quoted, breakLiteral, report]
    repeat' split
    all_goals exact List.prefix_refl _

@[simp] theorem head_step (l : Lexer) (c : Char) : (l.step c).head = (l.stepMode c).head := by
  unfold step
  dsimp only
  split <;> rfl

/-- The tokens that are known stay the first ones. -/
theorem leads_head_feed (l : Lexer) (cs : List Char) : l.head <+: (l.feed cs).head := by
  induction cs generalizing l with
  | nil => exact List.prefix_refl _
  | cons c cs ih =>
    have hstep : l.head <+: (l.step c).head := by
      rw [head_step]
      exact leads_head_stepMode l c
    exact hstep.trans (ih _)

/-! ## Openers are tokens -/

/-- An opener shows among the first two tokens, unless two others came before it. -/
def OpenerShows (l : Lexer) : Prop :=
  l.opened = true → 2 ≤ l.head.length ∨ ∃ c, isOpener c = true ∧ [c] ∈ l.head

theorem OpenerShows.of_leads {l m : Lexer} (h : OpenerShows l) (hopened : m.opened = l.opened)
    (hhead : l.head <+: m.head) : OpenerShows m := by
  intro hm
  rcases h (hopened ▸ hm) with htwo | ⟨c, hc, hmem⟩
  · exact .inl (htwo.trans hhead.length_le)
  · exact .inr ⟨c, hc, hhead.subset hmem⟩

theorem mem_head_token (t : List Char) (l : Lexer) :
    2 ≤ (l.token t).head.length ∨ t ∈ (l.token t).head := by
  unfold token
  split
  · exact .inr (List.mem_append_right _ (.head _))
  · exact .inl (by omega)

@[simp] theorem opened_token (t : List Char) (l : Lexer) : (l.token t).opened = l.opened := by
  unfold token
  split <;> rfl

@[simp] theorem opened_endWord (l : Lexer) : l.endWord.opened = l.opened := by
  unfold endWord
  split
  · rfl
  · exact opened_token _ _

@[simp] theorem opened_close (c : Char) (l : Lexer) : (l.close c).opened = l.opened := by
  unfold close
  split
  · split <;> rfl
  · rfl

theorem opened_mark_of_not_opener {c : Char} (h : isOpener c = false) (l : Lexer) :
    (l.mark c).opened = l.opened := by
  unfold mark beginLiteral
  rw [h, if_neg Bool.false_ne_true]
  repeat' split
  all_goals first | exact opened_close c l | rfl

theorem openerShows_code {l : Lexer} (h : OpenerShows l) (c : Char) : OpenerShows (l.code c) := by
  have hleads := leads_head_code l c
  cases hopener : isOpener c with
  | true =>
    have hplain : Text.isWordChar c = false ∧ c ≠ '/' ∧ Text.isBlank c = false := by
      simp only [isOpener, Bool.or_eq_true, beq_iff_eq] at hopener
      rcases hopener with (rfl | rfl) | rfl <;> decide
    obtain ⟨hword, hslash, hblank⟩ := hplain
    have hcode : l.code c = (l.endWord.mark c).token [c] := by
      rw [code, if_neg (by simp [hword])]
      dsimp only
      rw [if_neg hslash, if_neg (by simp [hblank])]
    rw [hcode]
    intro _
    exact (mem_head_token [c] _).imp_right fun hmem => ⟨c, hopener, hmem⟩
  | false =>
    refine h.of_leads ?_ hleads
    have hmark : (l.endWord.mark c).opened = l.opened := by
      rw [opened_mark_of_not_opener hopener, opened_endWord]
    unfold code
    split
    · rfl
    · dsimp only
      split
      · exact opened_endWord l
      · split
        · exact hmark
        · exact (opened_token _ _).trans hmark

theorem openerShows_stepMode {l : Lexer} (h : OpenerShows l) (c : Char) :
    OpenerShows (l.stepMode c) := by
  unfold stepMode
  cases l.mode with
  | code => exact openerShows_code h c
  | slash =>
    dsimp only
    split
    · exact h
    · split
      · exact h
      · refine openerShows_code (h.of_leads ?_ ?_) c
        · exact opened_token ['/'] { l with mode := .code }
        · exact leads_token ['/'] { l with mode := .code }
  | lineComment | blockComment | raw =>
    dsimp only
    split <;> exact h
  | interpreted | rune =>
    dsimp only [quoted, breakLiteral, report]
    repeat' split
    all_goals exact h

/-- In every text an opener shows. -/
theorem openerShows_feed {l : Lexer} (h : OpenerShows l) (cs : List Char) :
    OpenerShows (l.feed cs) := by
  induction cs generalizing l with
  | nil => exact h
  | cons c cs ih =>
    have hmode := openerShows_stepMode h c
    refine ih ?_
    unfold step
    dsimp only
    split <;> exact hmode

/-- Two tokens decide about the package name. -/
theorem packageName_feed_of_two {l : Lexer} (h : 2 ≤ l.head.length) (cs : List Char) :
    (l.feed cs).packageName = l.packageName := by
  refine packageName_eq_of_take ?_
  rw [firstTokens, firstTokens, head_feed h, List.take_append_of_le_length h,
    List.take_append_of_le_length h]

/-- A text in which something was opened has shown its package clause, if it goes on to a text with a
package clause. -/
theorem two_le_head_of_opened {before after : List Char}
    (hopened : (Lexer.feed {} before).opened = true)
    (h : (Lexer.feed {} (before ++ after)).packageName ≠ none) :
    2 ≤ (Lexer.feed {} before).head.length := by
  refine (openerShows_feed (l := {}) nofun before hopened).elim id ?_
  rintro ⟨c, hc, hmem⟩
  by_contra hfew
  -- the opener would stand in the place of the keyword
  have honly : (Lexer.feed {} before).head = [[c]] := by
    match hhead : (Lexer.feed {} before).head with
    | [] => simp [hhead] at hmem
    | [t] =>
      rw [hhead, List.mem_singleton] at hmem
      rw [hmem]
    | _ :: _ :: _ => simp [hhead] at hfew
  obtain ⟨rest, hrest⟩ := leads_head_feed (Lexer.feed {} before) after
  rw [honly] at hrest
  rw [feed_append] at h
  unfold packageName firstTokens at h
  rw [← hrest] at h
  split at h
  · next keyword name more heq =>
    obtain ⟨rfl, -⟩ := List.cons.inj heq
    simp at h
  · exact h rfl

/-- A line end behind a text that leaves nothing open finds nothing open. -/
theorem finish_newline {l : Lexer} (hbalanced : l.balanced = true) (h : l.diagnostics = []) :
    (l.step '\n').finish = [] := by
  simp only [balanced, Bool.and_eq_true, Bool.or_eq_true, beq_iff_eq, List.isEmpty_iff] at hbalanced
  obtain ⟨hstack, hmode | hmode⟩ := hbalanced
  · have halike := Alike.endWord l
    have hstep : (l.step '\n').finish = l.endWord.finish := by
      rw [step_newline hmode]
      rfl
    rw [hstep, halike.finish_eq, finish, h, hstack, hmode]
    rfl
  · have hstep : l.step '\n' = { l with mode := .code, line := l.line + 1 } := by
      simp [step, stepMode, hmode]
    rw [hstep, finish, h, hstack]
    rfl

end Lexer

/-! ## The check -/

/-- A valid text shows a package clause, and no fault on its way. -/
theorem of_valid_check {text : List Char} (h : (check text).valid = true) :
    Text.allBlank text = false ∧ (Lexer.feed {} text).finish = [] ∧
      ∃ name, (Lexer.feed {} text).packageName = some name ∧
        check text = { package := some (String.ofList name), diagnostics := [] } := by
  have hblank : Text.allBlank text = false := by
    refine Bool.eq_false_iff.2 fun hblank => ?_
    rw [check, if_pos hblank] at h
    exact Bool.noConfusion h
  unfold check at h ⊢
  rw [hblank, if_neg Bool.false_ne_true] at h ⊢
  dsimp only at h ⊢
  cases hname : (Lexer.feed {} text).packageName with
  | none =>
    rw [hname] at h
    exact Bool.noConfusion h
  | some name =>
    rw [hname] at h
    have hfinish : (Lexer.feed {} text).finish = [] := List.isEmpty_iff.1 h
    exact ⟨rfl, hfinish, name, rfl, by rw [hfinish]⟩

theorem diagnostics_of_finish {l : Lexer} (h : l.finish = []) : l.diagnostics = [] := by
  rw [Lexer.finish, List.append_assoc] at h
  exact (List.append_eq_nil_iff.1 h).1

/-- A beginning of a text without faults shows none. -/
theorem diagnostics_beginning {before after : List Char}
    (h : (check (before ++ after)).valid = true) : (Lexer.feed {} before).diagnostics = [] := by
  obtain ⟨-, hfinish, -⟩ := of_valid_check h
  have hleads := Lexer.prefix_feed (Lexer.feed {} before) after
  rw [← Lexer.feed_append, diagnostics_of_finish hfinish] at hleads
  exact List.prefix_nil.1 hleads

/-- A beginning of a valid text that leaves nothing open, although something was opened in it, is
valid itself and has the same package clause. -/
theorem check_beginning {before after : List Char} (h : (check (before ++ after)).valid = true)
    (hopened : (Lexer.feed {} before).opened = true)
    (hbalanced : (Lexer.feed {} before).balanced = true) :
    (check (before ++ ['\n'])).valid = true ∧
      (check (before ++ ['\n'])).package = (check (before ++ after)).package := by
  obtain ⟨-, hfinish, name, hname, hcheck⟩ := of_valid_check h
  have hsome : Text.allBlank (before ++ ['\n']) = false := by
    refine Bool.eq_false_iff.2 fun hblank => ?_
    have hbefore : Text.allBlank before = true := by
      rw [Text.allBlank, List.all_append, Bool.and_eq_true] at hblank
      exact hblank.1
    rw [(Lexer.abreast_blankLines hbefore).opened] at hopened
    exact Bool.noConfusion hopened
  have htwo := Lexer.two_le_head_of_opened hopened (hname ▸ Option.some_ne_none name)
  have hpackage : (Lexer.feed {} (before ++ ['\n'])).packageName = some name := by
    rw [Lexer.feed_append, Lexer.packageName_feed_of_two htwo, ← hname, Lexer.feed_append,
      Lexer.packageName_feed_of_two htwo]
  have hclean : (Lexer.feed {} (before ++ ['\n'])).finish = [] := by
    rw [Lexer.feed_append]
    exact Lexer.finish_newline hbalanced (diagnostics_beginning h)
  have hline : check (before ++ ['\n']) =
      { package := some (String.ofList name), diagnostics := [] } := by
    rw [check, hsome, if_neg Bool.false_ne_true]
    dsimp only
    rw [hpackage, hclean]
  rw [hline, hcheck]
  exact ⟨rfl, rfl⟩

end Recast.Go
