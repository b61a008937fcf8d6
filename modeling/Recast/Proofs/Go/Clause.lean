/-
  Proofs/Go/Clause.lean --- the line with the package clause.

  The package clause of a valid text begins on the line that holds its first token.  If that line
  is the one that is replaced, the text has another package name, all of its other lines, and no
  fault but those that what follows the line shows on its own; if it is not, the name stays
  (`renamed_retarget_iff`).
-/
import Recast.Proofs.Go.Beginning
import Recast.Proofs.Go.Skeleton

set_option autoImplicit false

namespace Recast.Go

namespace Lexer

/-! ## Tokens -/

theorem firstTokens_ne_nil {l : Lexer} : l.firstTokens ≠ [] ↔ l.head ≠ [] ∨ l.word ≠ [] := by
  unfold firstTokens
  cases l.head <;> cases l.word <;> simp

theorem head_ne_nil_of_leads {l m : Lexer} (h : l.head <+: m.head) (hl : l.head ≠ []) :
    m.head ≠ [] := fun hnil => hl (List.prefix_nil.1 (hnil ▸ h))

/-- The end of a word is a token. -/
theorem head_endWord_ne_nil {l : Lexer} (h : l.firstTokens ≠ []) : l.endWord.head ≠ [] := by
  by_cases hhead : l.head = []
  · have hword : l.word ≠ [] := (firstTokens_ne_nil.1 h).resolve_left (not_not.2 hhead)
    rw [endWord, if_neg (by simpa using hword), token, if_pos (by simp [hhead])]
    simp
  · exact head_ne_nil_of_leads (leads_endWord l) hhead

theorem firstTokens_code_ne_nil {l : Lexer} (h : l.firstTokens ≠ []) (c : Char) :
    (l.code c).firstTokens ≠ [] := by
  cases hword : Text.isWordChar c with
  | true =>
    rw [mode_code_of_word hword, firstTokens_ne_nil]
    exact .inr (by simp)
  | false =>
    -- What is not part of a word ends it first.
    have hagain : l.endWord.endWord = l.endWord := by
      rw [endWord.eq_def l.endWord, word_endWord]
      rfl
    have hcode : l.code c = l.endWord.code c := by
      rw [code, code, hword, hagain]
      rfl
    rw [firstTokens_ne_nil, hcode]
    exact .inl (head_ne_nil_of_leads (leads_head_code _ c) (head_endWord_ne_nil h))

theorem firstTokens_stepMode_ne_nil {l : Lexer} (h : l.firstTokens ≠ []) (c : Char) :
    (l.stepMode c).firstTokens ≠ [] := by
  unfold stepMode
  cases l.mode with
  | code => exact firstTokens_code_ne_nil h c
  | slash =>
    dsimp only
    split
    · exact h
    · split
      · exact h
      · refine firstTokens_code_ne_nil (firstTokens_ne_nil.2 ?_) c
        rw [word_token]
        exact (firstTokens_ne_nil.1 h).imp_left
          (head_ne_nil_of_leads (leads_token ['/'] { l with mode := .code }))
  | lineComment | blockComment | raw =>
    dsimp only
    split <;> exact h
  | interpreted | rune =>
    dsimp only [quoted, breakLiteral, report]
    repeat' split
    all_goals exact h

/-- A text that has begun with a token goes on having one. -/
theorem firstTokens_feed_ne_nil {l : Lexer} (h : l.firstTokens ≠ []) (cs : List Char) :
    (l.feed cs).firstTokens ≠ [] := by
  induction cs generalizing l with
  | nil => exact h
  | cons c cs ih =>
    refine ih ?_
    have hmode := firstTokens_stepMode_ne_nil h c
    unfold step
    dsimp only
    split <;> exact hmode

theorem atLineStart_ended {l : Lexer} (hl : l.AtLineStart) {line : List Char}
    (h : Text.Ended line) : (l.feed line).AtLineStart := by
  obtain ⟨body, rfl, -⟩ := h
  rw [feed_append]
  exact atLineStart_newline (steady_feed hl.steady body)

theorem atLineStart_flatten {l : Lexer} (hl : l.AtLineStart) {lines : List (List Char)}
    (h : ∀ x ∈ lines, Text.Ended x) : (l.feed lines.flatten).AtLineStart := by
  induction lines generalizing l with
  | nil => exact hl
  | cons first rest ih =>
    rw [List.flatten_cons, feed_append]
    exact ih (atLineStart_ended hl (h first (.head _))) fun x hx => h x (.tail _ hx)

end Lexer

/-! ## The first line with a token -/

/-- A line that looks like a package clause has a token. -/
theorem firstTokens_of_isClauseAt {l : Lexer} (hl : l.AtLineStart) {line : List Char}
    (h : isClauseAt l line = true) : (l.feed line).firstTokens ≠ [] := by
  have hmode := hl.mode_of_balanced (balanced_of_isClauseAt h)
  simp only [isClauseAt, Bool.and_eq_true] at h
  obtain ⟨rest, hrest⟩ : ∃ rest, "package".toList ++ rest = Text.trimStart line := by
    have hclause := h.2
    unfold isPackageClause Text.stripStart? at hclause
    split at hclause
    · next hstrip =>
      split at hstrip
      · next hprefix => exact List.isPrefixOf_iff_prefix.1 hprefix
      · cases hstrip
    · exact Bool.noConfusion hclause
  have hblanks : ∀ c ∈ line.takeWhile Text.isBlank, Lexer.isInert c = true := fun c hc =>
    Lexer.isInert_of_isBlank (List.mem_takeWhile_imp hc)
  obtain ⟨hcode, -⟩ :=
    Lexer.Leads.of_isInert l.kinds hblanks l [] hmode (List.append_nil _).symm
  rw [← Text.trimStart_append_blanks line, ← hrest, Lexer.feed_append, Lexer.feed_append]
  refine Lexer.firstTokens_feed_ne_nil (Lexer.firstTokens_ne_nil.2 (.inr ?_)) rest
  rw [Lexer.feed_word hcode (List.all_eq_true.1 (by decide))]
  exact List.append_ne_nil_of_right_ne_nil _ (by decide)

/-- No line is replaced as long as there is no token. -/
theorem retargetLines_append (package : List Char) {before : List (List Char)}
    (hended : ∀ x ∈ before, Text.Ended x) (rest : List (List Char)) {l : Lexer} (hl : l.AtLineStart)
    (hnone : (l.feed before.flatten).firstTokens = []) :
    retargetLines package l (before ++ rest) =
      before.flatten ++ retargetLines package (l.feed before.flatten) rest := by
  induction before generalizing l with
  | nil => rfl
  | cons first before ih =>
    rw [List.flatten_cons, Lexer.feed_append] at hnone ⊢
    have hfirst : isClauseAt l first = false := by
      refine Bool.eq_false_iff.2 fun hclause => ?_
      exact Lexer.firstTokens_feed_ne_nil (firstTokens_of_isClauseAt hl hclause) _ hnone
    rw [List.cons_append, retargetLines_cons, hfirst, if_neg Bool.false_ne_true,
      ih (fun x hx => hended x (.tail _ hx)) (Lexer.atLineStart_ended hl (hended _ (.head _))) hnone,
      List.append_assoc]

/-- The lines of a text, cut at the first one with a token. -/
structure ClauseLine (text : List Char) (before : List (List Char)) (line : List Char)
    (after : List (List Char)) : Prop where
  lines : Text.linesWithEnds text = before ++ line :: after
  before_eq : (Lexer.feed {} before.flatten).firstTokens = []
  line_ne : (Lexer.feed {} (before.flatten ++ line)).firstTokens ≠ []

namespace ClauseLine

variable {text : List Char} {before after : List (List Char)} {line : List Char}

theorem text_eq (h : ClauseLine text before line after) :
    text = before.flatten ++ (line ++ after.flatten) := by
  rw [← Text.flatten_linesWithEnds text, h.lines, List.flatten_append, List.flatten_cons]

/-- A text with a token has a first line with one. -/
theorem exists_of_ne_nil (h : (Lexer.feed {} text).firstTokens ≠ []) :
    ∃ before line after, ClauseLine text before line after := by
  suffices hsplit : ∀ (l : Lexer) (lines : List (List Char)), l.firstTokens = [] →
      (l.feed lines.flatten).firstTokens ≠ [] → ∃ before line after,
        lines = before ++ line :: after ∧ (l.feed before.flatten).firstTokens = [] ∧
          (l.feed (before.flatten ++ line)).firstTokens ≠ [] by
    obtain ⟨before, line, after, hlines, hnone, hsome⟩ := hsplit {} (Text.linesWithEnds text) rfl
      (by rwa [Text.flatten_linesWithEnds])
    exact ⟨before, line, after, hlines, hnone, hsome⟩
  intro l lines
  induction lines generalizing l with
  | nil => exact fun hnone hsome => absurd hnone hsome
  | cons first rest ih =>
    intro hnone hsome
    by_cases hfirst : (l.feed first).firstTokens = []
    · rw [List.flatten_cons, Lexer.feed_append] at hsome
      obtain ⟨before, line, after, rfl, hbefore, hline⟩ := ih (l.feed first) hfirst hsome
      refine ⟨first :: before, line, after, rfl, ?_, ?_⟩
      · rwa [List.flatten_cons, Lexer.feed_append]
      · rwa [List.flatten_cons, List.append_assoc, Lexer.feed_append]
    · exact ⟨[], first, rest, rfl, hnone, hfirst⟩

/-- There is only one such line. -/
theorem unique (h : ClauseLine text before line after) {before' after' : List (List Char)}
    {line' : List Char} (h' : ClauseLine text before' line' after') :
    before = before' ∧ line = line' ∧ after = after' := by
  have hnot {before after : List (List Char)} {line : List Char} {more : List (List Char)}
      (h : ClauseLine text before line after)
      (hmore : (Lexer.feed {} (before ++ line :: more).flatten).firstTokens = []) : False := by
    rw [List.flatten_append, List.flatten_cons, ← List.append_assoc, Lexer.feed_append] at hmore
    exact Lexer.firstTokens_feed_ne_nil h.line_ne _ hmore
  have hlines := h.lines.symm.trans h'.lines
  rcases List.append_eq_append_iff.1 hlines with ⟨more, rfl, hmore⟩ | ⟨more, rfl, hmore⟩
  · cases more with
    | nil =>
      obtain ⟨rfl, rfl⟩ := List.cons.inj hmore
      exact ⟨(List.append_nil _).symm, rfl, rfl⟩
    | cons first more =>
      obtain ⟨rfl, -⟩ := List.cons.inj hmore
      exact (hnot h h'.before_eq).elim
  · cases more with
    | nil =>
      obtain ⟨rfl, rfl⟩ := List.cons.inj hmore
      exact ⟨List.append_nil _, rfl, rfl⟩
    | cons first more =>
      obtain ⟨rfl, -⟩ := List.cons.inj hmore
      exact (hnot h' h.before_eq).elim

theorem atLineStart (h : ClauseLine text before line after) :
    (Lexer.feed {} before.flatten).AtLineStart :=
  Lexer.atLineStart_flatten atLineStart_start (Text.ended_of_linesWithEnds h.lines).1

theorem retarget_eq (h : ClauseLine text before line after) (package : List Char) :
    retarget package text = before.flatten ++
      retargetLines package (Lexer.feed {} before.flatten) (line :: after) := by
  rw [retarget, h.lines, retargetLines_append package (Text.ended_of_linesWithEnds h.lines).1 _
    atLineStart_start h.before_eq]

end ClauseLine

/-! ## A replaced clause -/

/-- A text with another package name: it is valid, and all of its lines but the one with the package
clause are those of the other one. -/
structure Renamed (text : List Char) (package : String) (renamed : List Char) : Prop where
  valid : (check renamed).valid = true
  package : (check renamed).package = some package
  lines : ∃ before line after other, ClauseLine text before line after ∧
    Text.linesWithEnds renamed = before ++ other :: after

section Replaced

variable {l : Lexer} {name line cs : List Char}

/-- Behind a clause that was put in nothing is open. -/
theorem within_packageClause (hl : l.AtLineStart) (hclause : isClauseAt l line = true)
    (hsilent : l.diagnostics = []) (hname : IsWord name)
    (hline : Text.Ended line ∨ '\n' ∉ line) :
    Lexer.Within [] [] {} (l.feed (packageClause name line)) := by
  have hbalanced := balanced_of_isClauseAt hclause
  have hmode := hl.mode_of_balanced hbalanced
  have hkinds : l.kinds = [] := by
    simp only [Lexer.balanced, Bool.and_eq_true, List.isEmpty_iff] at hbalanced
    rw [Lexer.kinds, hbalanced.1, List.map_nil]
  rcases hline with ⟨body, rfl, -⟩ | hline
  · obtain ⟨head, word, ht⟩ := (Lexer.Alike.token "package".toList l).trans (.token name _)
    rw [packageClause_line, Lexer.feed_clauseLine hmode hl.word hname, ht]
    exact ⟨hmode, hkinds, rfl, hsilent⟩
  · obtain ⟨head, word, ht⟩ := Lexer.Alike.token "package".toList l
    rw [packageClause_last name hline, Lexer.feed_clause hmode hl.word hname, ht]
    exact ⟨hmode, hkinds, rfl, hsilent⟩

theorem packageName_of_take (h : l.firstTokens.take 2 = ["package".toList, name])
    (hname : Lexer.isIdentifier name = true) : l.packageName = some name := by
  rw [Lexer.packageName_eq, h]
  simp only [hname, and_self, if_true]

/-- A clause that was put in as the first one names the package. -/
theorem packageName_packageClause (hl : l.AtLineStart) (hclause : isClauseAt l line = true)
    (hhead : l.head = []) (hname : IsWord name) (hidentifier : Lexer.isIdentifier name = true)
    (hline : Text.Ended line ∨ '\n' ∉ line ∧ cs = []) :
    (l.feed (packageClause name line ++ cs)).packageName = some name := by
  have hmode := hl.mode_of_balanced (balanced_of_isClauseAt hclause)
  refine packageName_of_take ?_ hidentifier
  rcases hline with ⟨body, rfl, -⟩ | ⟨hline, rfl⟩
  · rw [packageClause_line, Lexer.firstTokens_clauseLine hmode hl.word hname, hhead]
    rfl
  · rw [packageClause_last name hline, List.append_nil,
      Lexer.firstTokens_clause hmode hl.word hname, hhead]
    rfl

theorem linesWithEnds_packageClause (hname : IsWord name) {after : List (List Char)}
    (hline : Text.Ended line ∧ Text.linesWithEnds after.flatten = after ∨
      '\n' ∉ line ∧ after = []) :
    Text.linesWithEnds (packageClause name line ++ after.flatten) =
      packageClause name line :: after := by
  have hclause := not_newline_clause hname.not_newline
  rcases hline with ⟨⟨body, rfl, -⟩, hafter⟩ | ⟨hline, rfl⟩
  · rw [packageClause_line, List.append_assoc, List.singleton_append,
      Text.linesWithEnds_append _ hclause, hafter]
  · rw [packageClause_last name hline, List.flatten_nil, List.append_nil,
      Text.linesWithEnds_of_not_mem (by simp) hclause]

end Replaced

namespace ClauseLine

variable {text : List Char} {before after : List (List Char)} {line : List Char} {p : String}

theorem diagnostics_eq_nil (h : ClauseLine text before line after)
    (valid : (check text).valid = true) : (Lexer.feed {} before.flatten).diagnostics = [] := by
  rw [h.text_eq] at valid
  exact diagnostics_beginning valid

/-- If the line with the first token is replaced, only what follows it decides. -/
theorem renamed_iff_of_isClauseAt (h : ClauseLine text before line after)
    (valid : (check text).valid = true) (named : Layout.isPackageName p = true)
    (hclause : isClauseAt (Lexer.feed {} before.flatten) line = true) :
    Renamed text p (retarget p.toList text) ↔ (Lexer.feed {} after.flatten).finish = [] := by
  obtain ⟨hword, hidentifier⟩ := isIdentifier_of_isPackageName named
  obtain ⟨hended, hline⟩ := Text.ended_of_linesWithEnds h.lines
  have hhead : (Lexer.feed {} before.flatten).head = [] := by
    by_contra hne
    exact Lexer.firstTokens_ne_nil.2 (.inl hne) h.before_eq
  have hretarget : retarget p.toList text =
      before.flatten ++ (packageClause p.toList line ++ after.flatten) := by
    rw [h.retarget_eq, retargetLines_cons, hclause, if_pos rfl]
  have hlast : Text.Ended line ∨ '\n' ∉ line ∧ after.flatten = [] :=
    hline.imp And.left fun hlast => ⟨hlast.1, by rw [hlast.2, List.flatten_nil]⟩
  have hpackage := packageName_packageClause h.atLineStart hclause hhead hword hidentifier hlast
  have hwithin := within_packageClause h.atLineStart hclause (h.diagnostics_eq_nil valid) hword
    (hline.imp And.left And.left)
  have hback : Lexer.Within [] [] _ {} :=
    ⟨hwithin.mode.symm, by rw [hwithin.kinds]; rfl, hwithin.diagnostics, rfl⟩
  have hblank : Text.allBlank (retarget p.toList text) = false := by
    have hclauseBlank : Text.allBlank (packageClause p.toList line ++ after.flatten) = false := rfl
    rw [hretarget, Text.allBlank, List.all_append]
    exact Bool.and_eq_false_imp.2 fun _ => hclauseBlank
  have hcheck : check (retarget p.toList text) = {
      package := some p
      diagnostics := ((Lexer.feed {} before.flatten).feed (packageClause p.toList line)
        |>.feed after.flatten).finish } := by
    rw [check, hblank, if_neg Bool.false_ne_true, hretarget, Lexer.feed_append, Lexer.feed_append]
    dsimp only
    rw [← Lexer.feed_append, hpackage]
    dsimp only
    rw [String.ofList_toList]
  constructor
  · intro hrenamed
    have hvalid := hrenamed.valid
    rw [hcheck, CheckResult.valid, List.isEmpty_iff] at hvalid
    exact hback.finish_feed hvalid
  · intro hafter
    refine ⟨?_, by rw [hcheck], before, line, after, packageClause p.toList line, h, ?_⟩
    · rw [hcheck, CheckResult.valid, List.isEmpty_iff]
      exact hwithin.finish_feed hafter
    · rw [hretarget, Text.linesWithEnds_flatten_append hended, linesWithEnds_packageClause hword hline]

/-- If the line with the first token is not replaced, nothing may be. -/
theorem renamed_iff_of_not_isClauseAt (h : ClauseLine text before line after)
    (valid : (check text).valid = true)
    (hclause : isClauseAt (Lexer.feed {} before.flatten) line = false) :
    Renamed text p (retarget p.toList text) ↔
      (check text).package = some p ∧ retarget p.toList text = text := by
  obtain ⟨hended, hline⟩ := Text.ended_of_linesWithEnds h.lines
  constructor
  · intro hrenamed
    obtain ⟨before', line', after', other, h', hlines⟩ := hrenamed.lines
    obtain ⟨rfl, rfl, rfl⟩ := h.unique h'
    have hsame : retarget p.toList text = text := by
      rw [h.retarget_eq, retargetLines_cons, hclause, if_neg Bool.false_ne_true] at hlines ⊢
      rw [Text.linesWithEnds_flatten_append hended, List.append_cancel_left_eq] at hlines
      refine Eq.trans ?_ h.text_eq.symm
      congr 2
      rcases hline with ⟨⟨body, rfl, hbody⟩, -⟩ | ⟨-, rfl⟩
      · rw [List.append_assoc, List.singleton_append, Text.linesWithEnds_append _ hbody] at hlines
        have hrest := congrArg List.flatten (List.cons.inj hlines).2
        rwa [Text.flatten_linesWithEnds] at hrest
      · rfl
    have hpackage := hrenamed.package
    rw [hsame] at hpackage
    exact ⟨hpackage, hsame⟩
  · rintro ⟨hpackage, hsame⟩
    rw [hsame]
    exact ⟨valid, hpackage, before, line, after, line, h, h.lines⟩

/-- A line that leaves nothing open does not matter to what follows it. -/
theorem finish_after (h : ClauseLine text before line after) (valid : (check text).valid = true)
    (hbalanced : (Lexer.feed {} (before.flatten ++ line)).balanced = true) :
    (Lexer.feed {} after.flatten).finish = [] := by
  rcases (Text.ended_of_linesWithEnds h.lines).2 with ⟨hended, -⟩ | ⟨-, rfl⟩
  · obtain ⟨-, hfinish, -⟩ := of_valid_check valid
    rw [h.text_eq, ← List.append_assoc] at hfinish valid
    have hsilent := diagnostics_beginning valid
    have hstart : (Lexer.feed {} (before.flatten ++ line)).AtLineStart := by
      rw [Lexer.feed_append]
      exact Lexer.atLineStart_ended h.atLineStart hended
    rw [Lexer.feed_append] at hfinish
    generalize Lexer.feed {} (before.flatten ++ line) = l at *
    have hmode := hstart.mode_of_balanced hbalanced
    simp only [Lexer.balanced, Bool.and_eq_true, List.isEmpty_iff] at hbalanced
    have hwithin : Lexer.Within [] [] l {} :=
      ⟨hmode.symm, by rw [Lexer.kinds, Lexer.kinds, hbalanced.1]; rfl, hsilent, rfl⟩
    exact hwithin.finish_feed hfinish
  · rfl

end ClauseLine

/-- A valid text that is given another package name is valid, has that name and keeps its other lines
exactly if the line with its package clause is the one that is replaced and what follows that line
shows no fault on its own, or if there was nothing to do.  So it is enough that the line is replaced
and leaves nothing open. -/
theorem renamed_retarget_iff {text : List Char} {p : String} (valid : (check text).valid = true)
    (named : Layout.isPackageName p = true) :
    (Renamed text p (retarget p.toList text) ↔
      (∃ before line after, ClauseLine text before line after ∧
        isClauseAt (Lexer.feed {} before.flatten) line = true ∧
          (Lexer.feed {} after.flatten).finish = []) ∨
        (check text).package = some p ∧ retarget p.toList text = text) ∧
    ∀ before line after, ClauseLine text before line after →
      isClauseAt (Lexer.feed {} before.flatten) line = true →
        (Lexer.feed {} (before.flatten ++ line)).balanced = true →
          Renamed text p (retarget p.toList text) := by
  obtain ⟨before, line, after, h⟩ : ∃ before line after, ClauseLine text before line after := by
    obtain ⟨-, -, name, hname, -⟩ := of_valid_check valid
    refine ClauseLine.exists_of_ne_nil fun hnil => ?_
    rw [Lexer.packageName, hnil] at hname
    cases hname
  refine ⟨?_, fun before' line' after' h' hclause hbalanced =>
    (h'.renamed_iff_of_isClauseAt valid named hclause).2 (h'.finish_after valid hbalanced)⟩
  cases hclause : isClauseAt (Lexer.feed {} before.flatten) line with
  | true =>
    have hiff := h.renamed_iff_of_isClauseAt valid named hclause
    constructor
    · exact fun hrenamed => .inl ⟨before, line, after, h, hclause, hiff.1 hrenamed⟩
    · rintro (⟨before', line', after', h', -, hafter⟩ | ⟨hpackage, hsame⟩)
      · obtain ⟨rfl, rfl, rfl⟩ := h.unique h'
        exact hiff.2 hafter
      · rw [hsame]
        exact ⟨valid, hpackage, before, line, after, line, h, h.lines⟩
  | false =>
    have hiff := h.renamed_iff_of_not_isClauseAt (p := p) valid hclause
    constructor
    · exact fun hrenamed => .inr (hiff.1 hrenamed)
    · rintro (⟨before', line', after', h', hclause', -⟩ | hsame)
      · obtain ⟨rfl, rfl, rfl⟩ := h.unique h'
        exact Bool.noConfusion (hclause.symm.trans hclause')
      · exact hiff.2 hsame

/-- A clause behind a comment and in front of one. -/
theorem renamed_retarget_comments :
    let text := "// Package main.\npackage main // entry\n\nvar a = 1\n".toList
    (check text).valid = true ∧ Layout.isPackageName "tax" = true ∧
      Renamed text "tax" (retarget "tax".toList text) ∧
      retarget "tax".toList text = "// Package main.\npackage tax\n\nvar a = 1\n".toList := by
  intro text
  have hvalid : (check text).valid = true := by decide +kernel
  have hline : ClauseLine text ["// Package main.\n".toList] "package main // entry\n".toList
      ["\n".toList, "var a = 1\n".toList] :=
    ⟨by decide +kernel, by decide +kernel, by decide +kernel⟩
  exact ⟨hvalid, by decide, (renamed_retarget_iff hvalid (by decide)).2 _ _ _ hline (by decide +kernel)
    (by decide +kernel), by decide +kernel⟩

/-- A clause behind a comment on its own line keeps its name, and code behind a clause on its line is
lost. -/
theorem retarget_fails_renamed :
    let commented := "/* c */ package main\n".toList
    let joined := "package main; func F() \x7b\n\x7d\n".toList
    (check commented).valid = true ∧ (check joined).valid = true ∧
      Layout.isPackageName "tax" = true ∧
      (check (retarget "tax".toList commented)).package = some "main" ∧
      (check (retarget "tax".toList joined)).valid = false := by
  decide +kernel

end Recast.Go
