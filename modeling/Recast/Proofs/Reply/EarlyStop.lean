/-
  Proofs/Reply/EarlyStop.lean --- answers that are left before their end.

  An answer in pieces is read as a whole, or left behind a closing brace of its code that leaves no
  delimiter open (`readChunks_cases`).  What has been read then is a beginning of the code of the whole
  answer, and as good as that (`ofChunks_leads`).
-/
import Mathlib.Data.List.Basic
import Recast.Proofs.Go.Beginning
import Recast.Proofs.Reply.Chunks

set_option autoImplicit false

namespace Recast.Reply

open Text (allBlank isBlank linesWithEnds trimEnd)

/-! ## Beginnings of code -/

section Beginning

variable {code : List Char} {c : Char}

theorem trimEnd_leads (cs : List Char) : trimEnd cs <+: cs := by
  obtain ⟨behind, heq, -⟩ := exists_trimEnd_append cs
  exact ⟨behind, heq.symm⟩

/-- Only blanks behind a text that ends with no blank are trimmed. -/
theorem exists_trimEnd (hlast : code.getLast? = some c) (hc : isBlank c = false)
    (more : List Char) : ∃ rest, trimEnd (code ++ more) = code ++ rest := by
  obtain ⟨behind, heq, hbehind⟩ := exists_trimEnd_append (code ++ more)
  rcases List.append_eq_append_iff.1 heq with ⟨rest, hrest, -⟩ | ⟨cut, hcut, hmore⟩
  · exact ⟨rest, hrest⟩
  · rcases List.eq_nil_or_concat' cut with rfl | ⟨cut, d, rfl⟩
    · exact ⟨[], by rw [List.append_nil]; simpa using hcut.symm⟩
    · rw [hcut, ← List.append_assoc, List.getLast?_concat, Option.some.injEq] at hlast
      have hd := List.all_eq_true.1 hbehind d (by simp [hmore])
      rw [hlast, hc] at hd
      exact Bool.noConfusion hd

theorem trimEnd_of_last (hlast : code.getLast? = some c) (hc : isBlank c = false) :
    trimEnd code = code := by
  obtain ⟨rest, hrest⟩ := exists_trimEnd hlast hc []
  rw [List.append_nil] at hrest
  refine (trimEnd_leads code).eq_of_length_le ?_
  rw [hrest]
  exact (List.prefix_append code rest).length_le

/-- A first line that is not blank does not become blank when the text goes on. -/
theorem not_blank_firstLine_append (h : allBlank (firstLine code) = false) (more : List Char) :
    allBlank (firstLine (code ++ more)) = false := by
  obtain ⟨d, hd, hblank⟩ := List.all_eq_false.1 h
  have hleads : firstLine code <+: firstLine (code ++ more) := by
    unfold firstLine
    rw [List.takeWhile_append]
    split
    · next hwhole =>
      rw [(List.takeWhile_prefix _).eq_of_length hwhole]
      exact List.prefix_append _ _
    · exact List.prefix_refl _
  exact List.all_eq_false.2 ⟨d, hleads.subset hd, hblank⟩

/-- Code that begins and ends with no blank is kept when it goes on. -/
theorem tidy_append (hlast : code.getLast? = some c) (hc : isBlank c = false)
    (hfirst : allBlank (firstLine code) = false) (more : List Char) :
    tidy code = code ++ ['\n'] ∧ ∃ rest, tidy (code ++ more) = code ++ (rest ++ ['\n']) := by
  have hne : code ≠ [] := by
    rintro rfl
    cases hlast
  obtain ⟨rest, hrest⟩ := exists_trimEnd hlast hc more
  refine ⟨?_, rest, ?_⟩
  · rw [tidy_of_not_blank hfirst, trimEnd_of_last hlast hc]
    split
    · exact absurd rfl hne
    · rfl
  · rw [tidy_of_not_blank (not_blank_firstLine_append hfirst more), hrest, ← List.append_assoc]
    split
    · next hnil => exact absurd (List.append_eq_nil_iff.1 hnil).1 hne
    · rfl

/-- What tidying leaves of code is a beginning of what it leaves when the code goes on. -/
theorem tidy_beginning (hlast : code.getLast? = some c) (hc : isBlank c = false)
    (more : List Char) :
    ∃ blanks kept rest, code = blanks ++ kept ∧ allBlank blanks = true ∧
      tidy code = kept ++ ['\n'] ∧ tidy (code ++ more) = kept ++ (rest ++ ['\n']) := by
  induction code using Text.lineInduction with
  | nil => cases hlast
  | last body hne hbody =>
    have hfirst : allBlank (firstLine body) = false := by
      rw [firstLine_of_not_mem hbody]
      exact List.all_eq_false.2 ⟨c, List.mem_of_getLast? hlast, by simp [hc]⟩
    obtain ⟨hwhole, rest, hrest⟩ := tidy_append hlast hc hfirst more
    exact ⟨[], body, rest, rfl, rfl, hwhole, hrest⟩
  | line body cs hbody ih =>
    cases hblank : allBlank body with
    | true =>
      have hcs : cs.getLast? = some c := by
        rcases List.eq_nil_or_concat' cs with rfl | ⟨cs, d, rfl⟩
        · rw [List.getLast?_concat, Option.some.injEq] at hlast
          rw [← hlast] at hc
          exact absurd hc (by decide)
        · rw [← List.cons_append, ← List.append_assoc, List.getLast?_concat] at hlast
          rw [List.getLast?_concat, hlast]
      obtain ⟨blanks, kept, rest, rfl, hblanks, hcode, hmore⟩ := ih hcs
      refine ⟨body ++ '\n' :: blanks, kept, rest, by simp, ?_, ?_, ?_⟩
      · rw [allBlank_append, hblank]
        exact hblanks
      · rw [tidy_line hbody hblank, hcode]
      · rw [List.append_assoc, List.cons_append, tidy_line hbody hblank, hmore]
    | false =>
      have hfirst : allBlank (firstLine (body ++ '\n' :: cs)) = false := by
        rw [firstLine_append cs hbody, hblank]
      obtain ⟨hwhole, rest, hrest⟩ := tidy_append hlast hc hfirst more
      exact ⟨[], _, rest, rfl, rfl, hwhole, hrest⟩

end Beginning

/-! ## The state of the tracker -/

namespace Tracker

/-- What the tracker knows fits what it has read: the lexer has read the code, and something is held
back only where a fence may begin. -/
structure Fits (t : Tracker) : Prop where
  lexer : t.lexer = Go.Lexer.feed {} t.code.reverse
  held : t.pending = [] ∨ (t.atLineStart && !t.lexer.inRawString) = true

/-- The state with a character given to the code, behind what was held back. -/
def give (t : Tracker) (c : Char) : Tracker :=
  { t.passed (t.pending.reverse ++ [c]) with pending := [], atLineStart := c == '\n' }

variable {t : Tracker}

theorem fits_seeking (seen : List Char) : (seeking seen).Fits := ⟨rfl, .inl rfl⟩

theorem Fits.give (h : t.Fits) (c : Char) : (t.give c).Fits := by
  refine ⟨?_, .inl rfl⟩
  change t.lexer.feed (t.pending.reverse ++ [c]) =
    Go.Lexer.feed {} ((t.pending.reverse ++ [c]).reverse ++ t.code).reverse
  rw [h.lexer, ← Go.Lexer.feed_append]
  simp

/-- A character of the code is held back, with which it may close the code, or given to the code. -/
theorem step_cases (h : t.Fits) (hphase : t.phase = .inCode) (c : Char) :
    (t.continuesFence c = true ∧ (t.atLineStart && !t.lexer.inRawString) = true ∧
      ∃ phase, phase ≠ .seekingFence ∧
        t.step c = { t with phase, pending := c :: t.pending }) ∨
    t.step c = t.give c := by
  rw [step_of_inCode hphase, inCode]
  cases hstart : (t.atLineStart && !t.lexer.inRawString) with
  | true =>
    rw [if_pos rfl]
    cases hfence : t.continuesFence c with
    | true =>
      rw [if_pos rfl]
      dsimp only
      split
      · exact .inl ⟨rfl, rfl, .closed, Phase.noConfusion, rfl⟩
      · exact .inl ⟨rfl, rfl, .inCode, Phase.noConfusion, by rw [← hphase]⟩
    | false =>
      rw [if_neg Bool.false_ne_true, release, foldl_emit]
      refine .inr ?_
      simp [Tracker.give, passed, emit]
  | false =>
    rw [if_neg Bool.false_ne_true]
    have hnone : t.pending = [] := h.held.resolve_right (by rw [hstart]; exact Bool.false_ne_true)
    refine .inr ?_
    simp [Tracker.give, passed, emit, hnone]

theorem Fits.step (h : t.Fits) (c : Char) : (t.step c).Fits := by
  cases hphase : t.phase with
  | seekingFence =>
    rw [Tracker.step, hphase]
    dsimp only
    unfold seek
    dsimp only
    split
    · split
      · refine ⟨h.lexer, h.held.imp_right fun hstart => ?_⟩
        rw [Bool.and_eq_true] at hstart
        exact hstart.2
      · exact ⟨h.lexer, h.held⟩
    · exact ⟨h.lexer, h.held⟩
  | closed =>
    have hsame : t.step c = t := by rw [Tracker.step, hphase]
    rwa [hsame]
  | inCode =>
    rcases step_cases h hphase c with ⟨-, hstart, phase, -, hstep⟩ | hstep
    · rw [hstep]
      exact ⟨h.lexer, .inr hstart⟩
    · rw [hstep]
      exact h.give c

theorem Fits.run (h : t.Fits) (cs : List Char) : (t.run cs).Fits := by
  induction cs generalizing t with
  | nil => exact h
  | cons c cs ih => exact ih (h.step c)

/-- A brace is never held back. -/
theorem step_brace (h : t.Fits) (hphase : t.phase = .inCode) : t.step '}' = t.give '}' := by
  refine (step_cases h hphase '}').resolve_left ?_
  rintro ⟨hfence, -⟩
  simp [continuesFence] at hfence

/-- Nor does it close the code. -/
theorem phase_step_brace (h : t.Fits) (hphase : t.phase ≠ .closed) :
    (t.step '}').phase ≠ .closed := by
  cases hp : t.phase with
  | seekingFence =>
    rw [step, hp]
    simp [seek, hp]
  | inCode =>
    rw [step_brace h hp]
    change t.phase ≠ .closed
    exact hphase
  | closed => exact absurd hp hphase

/-- The code of an answer that goes on goes on. -/
theorem finish_run (h : t.Fits) (hphase : t.phase = .inCode) (cs : List Char) :
    ∃ more, (t.run cs).finish = tidy (t.code.reverse ++ more) := by
  induction cs generalizing t with
  | nil => exact ⟨t.pending.reverse, by rw [run_nil, finish, hphase]⟩
  | cons c cs ih =>
    rw [run_cons]
    rcases step_cases h hphase c with ⟨-, -, phase, hne, hstep⟩ | hstep
    · cases phase with
      | seekingFence => exact absurd rfl hne
      | inCode =>
        obtain ⟨more, hmore⟩ := ih (h.step c) (by rw [hstep])
        exact ⟨more, by rw [hmore, hstep]⟩
      | closed =>
        have hclosed : (t.step c).phase = .closed := by rw [hstep]
        refine ⟨[], ?_⟩
        rw [run_of_closed hclosed, finish, hclosed, List.append_nil, hstep]
    · obtain ⟨more, hmore⟩ := ih (h.step c) (by rw [hstep]; exact hphase)
      refine ⟨t.pending.reverse ++ [c] ++ more, ?_⟩
      rw [hmore, hstep]
      simp [Tracker.give, passed]

end Tracker

/-! ## The code so far -/

/-- The code of an answer as far as it has arrived, if it has begun and is not closed. -/
def codeSoFar? (text : List Char) : Option (List Char) :=
  (codeLines? text).bind fun lines =>
    if closingLine? {} lines = none then some lines.flatten else none

/-- The state of the tracker after some text. -/
def stateAfter (text : List Char) : Tracker := (Tracker.seeking []).run text

theorem fits_stateAfter (text : List Char) : (stateAfter text).Fits :=
  (Tracker.fits_seeking []).run text

/-- The code so far is what the tracker has given to the code or holds back. -/
theorem codeSoFar?_eq_some_iff {text code : List Char} :
    codeSoFar? text = some code ↔ (stateAfter text).phase = .inCode ∧
      code = (stateAfter text).code.reverse ++ (stateAfter text).pending.reverse := by
  obtain ⟨hprose, hfound⟩ := run_prose text []
  unfold codeSoFar? codeLines? stateAfter
  cases hopening : openingLine? text with
  | none =>
    rw [Option.map_none, Option.bind_none, (hprose hopening).1]
    exact ⟨nofun, fun h => nomatch h.1⟩
  | some n =>
    obtain ⟨⟨seen, hrun⟩, hlines⟩ := hfound n hopening
    have htext : ((linesWithEnds text).take (n + 1)).flatten ++
        ((linesWithEnds text).drop (n + 1)).flatten = text := by
      rw [← List.flatten_append, List.take_append_drop, Text.flatten_linesWithEnds]
    have hstate : (Tracker.seeking []).run text =
        (Tracker.atLine seen [] {}).run ((linesWithEnds text).drop (n + 1)).flatten := by
      rw [← hrun, ← Tracker.run_append, htext]
    rw [Option.map_some, Option.bind_some, hstate]
    generalize (linesWithEnds text).drop (n + 1) = lines at hlines
    obtain ⟨hopen, hclosed⟩ := run_code lines.flatten seen [] {}
    rw [hlines] at hopen hclosed
    cases hclosing : closingLine? {} lines with
    | none =>
      obtain ⟨hphase, hcode⟩ := hopen hclosing
      rw [if_pos rfl, hphase, hcode, Option.some.injEq]
      exact ⟨fun h => ⟨rfl, h.symm⟩, fun h => h.2.symm⟩
    | some m =>
      obtain ⟨hcloses, after, hafter⟩ := hclosed m hclosing
      have hphase : ((Tracker.atLine seen [] {}).run lines.flatten).phase = .closed := by
        rw [← hafter, Tracker.run_append, Tracker.run_of_closed hcloses.closed, hcloses.closed]
      rw [if_neg (Option.some_ne_none m), hphase]
      exact ⟨nofun, fun h => nomatch h.1⟩

/-- Behind a brace the tracker has given the code so far and the brace. -/
theorem stateAfter_brace {text code : List Char} (h : codeSoFar? text = some code) :
    (stateAfter (text ++ ['}'])).phase = .inCode ∧ (stateAfter (text ++ ['}'])).pending = [] ∧
      (stateAfter (text ++ ['}'])).code.reverse = code ++ ['}'] ∧
      (stateAfter (text ++ ['}'])).lexer = Go.Lexer.feed {} (code ++ ['}']) := by
  obtain ⟨hphase, rfl⟩ := codeSoFar?_eq_some_iff.1 h
  have hgive : stateAfter (text ++ ['}']) = (stateAfter text).give '}' := by
    rw [stateAfter, Tracker.run_append, Tracker.run_cons, Tracker.run_nil]
    exact Tracker.step_brace (fits_stateAfter text) hphase
  have hcode : ((stateAfter text).give '}').code.reverse =
      (stateAfter text).code.reverse ++ (stateAfter text).pending.reverse ++ ['}'] := by
    simp [Tracker.give, Tracker.passed]
  have hfits := ((fits_stateAfter text).give '}').lexer
  rw [hcode] at hfits
  rw [hgive]
  exact ⟨hphase, rfl, hcode, hfits⟩

/-! ## Where an answer is left -/

namespace Tracker

variable {stop : EarlyStop} {n : Nat} {t : Tracker}

/-- A piece is read to its end, or left behind a character that completes a declaration. -/
theorem feed_cases (stop : EarlyStop) (n : Nat) (t : Tracker) (cs : List Char) :
    t.feed stop n cs = (t.run cs, (t.run cs).phase == .closed) ∨
    ∃ before c after, cs = before ++ c :: after ∧
      completes stop n (t.run before) ((t.run before).step c) c = true ∧
      t.feed stop n cs = ((t.run before).step c, true) := by
  induction cs generalizing t with
  | nil => exact .inl rfl
  | cons c cs ih =>
    by_cases hclosed : t.phase = .closed
    · refine .inl ?_
      rw [feed, if_pos hclosed, run_of_closed hclosed, hclosed]
      rfl
    rw [feed, if_neg hclosed]
    dsimp only
    by_cases hnext : (t.step c).phase = .closed
    · refine .inl ?_
      rw [run_cons, run_of_closed hnext, hnext, if_pos (by simp)]
      rfl
    cases hcompletes : completes stop n t (t.step c) c with
    | true => exact .inr ⟨[], c, cs, rfl, hcompletes, if_pos (by simp)⟩
    | false =>
      rw [if_neg (by simp [hnext]), run_cons]
      rcases ih (t := t.step c) with hwhole | ⟨before, d, after, rfl, hleft, hfeed⟩
      · exact .inl hwhole
      · exact .inr ⟨c :: before, d, after, rfl, hleft, hfeed⟩

/-- A piece that is not left is read on. -/
theorem feed_append {cs : List Char} (h : (t.feed stop n cs).2 = false) (ds : List Char) :
    t.feed stop n (cs ++ ds) = (t.run cs).feed stop n ds := by
  induction cs generalizing t with
  | nil => rfl
  | cons c cs ih =>
    rw [feed] at h
    rw [List.cons_append, feed, run_cons]
    split at h
    · exact Bool.noConfusion h
    · next hopen =>
      dsimp only at h ⊢
      split at h
      · exact Bool.noConfusion h
      · next hgoes =>
        rw [if_neg hopen, if_neg hgoes]
        exact ih h

/-- A piece that is not left has been read to its end. -/
theorem of_feed_false {cs : List Char} (h : (t.feed stop n cs).2 = false) :
    t.feed stop n cs = (t.run cs, false) ∧ (t.run cs).phase ≠ .closed := by
  have hread := feed_append h []
  rw [List.append_nil, feed] at hread
  rw [hread] at h ⊢
  exact ⟨Prod.ext rfl h, beq_eq_false_iff_ne.1 h⟩

/-- A character that completes a declaration is a brace in code that leaves nothing open. -/
theorem completes_iff {before after : Tracker} {c : Char} :
    completes stop n before after c = true ↔
      (before.phase = .inCode ∧ after.phase = .inCode ∧ c = '}') ∧
        (stop.enabled = true ∧ stop.minChunks ≤ n) ∧
          after.lexer.opened = true ∧ after.lexer.balanced = true := by
  simp only [completes, Bool.and_eq_true, beq_iff_eq, decide_eq_true_eq, and_assoc]

/-- As long as too few pieces have arrived only the closing fence counts. -/
theorem feed_of_few (h : n < stop.minChunks) (t : Tracker) (cs : List Char) :
    t.feed stop n cs = (t.run cs, (t.run cs).phase == .closed) := by
  refine (feed_cases stop n t cs).resolve_right ?_
  rintro ⟨before, c, after, -, hcompletes, -⟩
  obtain ⟨-, ⟨-, hreached⟩, -⟩ := completes_iff.1 hcompletes
  exact Nat.not_le.2 h hreached

end Tracker

/-- Pieces are read as a whole, or left behind a brace that leaves no delimiter open. -/
theorem readChunks_cases (stop : EarlyStop) (t : Tracker) (n : Nat) (chunks : List String) :
    ∃ k left code, readChunks stop t n (stream chunks) = (k, .ok ⟨String.ofList code, k, left⟩) ∧
      (code = (t.run (joined chunks)).finish ∨
        ∃ before after, joined chunks = before ++ '}' :: after ∧ left = true ∧
          (t.run before).phase = .inCode ∧ code = (t.run (before ++ ['}'])).finish ∧
          (t.run (before ++ ['}'])).lexer.opened = true ∧
          (t.run (before ++ ['}'])).lexer.balanced = true) := by
  induction chunks generalizing t n with
  | nil => exact ⟨n, false, t.finish, rfl, .inl rfl⟩
  | cons chunk chunks ih =>
    rw [stream_cons, readChunks, joined_cons]
    rcases t.feed_cases stop (n + 1) chunk.toList with hwhole | ⟨before, c, after, hchunk, hc, hfeed⟩
    · rw [hwhole]
      cases hclosed : ((t.run chunk.toList).phase == .closed) with
      | true =>
        refine ⟨n + 1, true, _, rfl, .inl ?_⟩
        rw [Tracker.run_append, Tracker.run_of_closed (beq_iff_eq.1 hclosed)]
      | false =>
        obtain ⟨k, left, code, hread, hcode⟩ := ih (t.run chunk.toList) (n + 1)
        refine ⟨k, left, code, hread, ?_⟩
        rcases hcode with hcode | ⟨before, after, hjoined, hleft⟩
        · exact .inl (by rw [hcode, Tracker.run_append])
        · refine .inr ⟨chunk.toList ++ before, after, by rw [hjoined, List.append_assoc], ?_⟩
          rwa [List.append_assoc, Tracker.run_append, Tracker.run_append]
    · obtain ⟨⟨hphase, -, rfl⟩, -, hopened, hbalanced⟩ := Tracker.completes_iff.1 hc
      rw [hfeed]
      refine ⟨n + 1, true, _, rfl, .inr ⟨before, after ++ joined chunks, ?_, rfl, hphase, ?_⟩⟩
      · rw [hchunk, List.append_assoc, List.cons_append]
      · rw [Tracker.run_append]
        exact ⟨rfl, hopened, hbalanced⟩

/-- The code of an answer up to a brace is a beginning of the code of the whole answer: except for
blanks in front of it, what the lexer has read. -/
theorem code_beginning {before code : List Char} (h : codeSoFar? before = some code)
    (after : List Char) :
    ∃ blanks kept rest, code ++ ['}'] = blanks ++ kept ∧ Text.allBlank blanks = true ∧
      (stateAfter (before ++ ['}'])).finish = kept ++ ['\n'] ∧
      codeOf (before ++ '}' :: after) = kept ++ (rest ++ ['\n']) := by
  obtain ⟨hphase, hpending, hcode, -⟩ := stateAfter_brace h
  have hlast : (code ++ ['}']).getLast? = some '}' := List.getLast?_concat
  obtain ⟨more, hmore⟩ :=
    Tracker.finish_run (fits_stateAfter (before ++ ['}'])) hphase after
  obtain ⟨blanks, kept, rest, heq, hblanks, htidy, hwhole⟩ :=
    tidy_beginning hlast (by decide) more
  refine ⟨blanks, kept, rest, heq, hblanks, ?_, ?_⟩
  · rw [Tracker.finish, hphase]
    dsimp only
    rw [hpending, List.reverse_nil, List.append_nil, hcode, htidy]
  · rw [codeOf_eq, List.append_cons, Tracker.run_append, ← stateAfter, hmore, hcode, hwhole]

/-- Leaving an answer early spoils nothing.  Whatever the pieces of an answer are and whenever it may
be left, the code taken out of them is, blanks at its end apart, a beginning of the code of the whole
answer; and if that passes the check, so does the code, with the same package clause. -/
theorem ofChunks_leads (stop : EarlyStop) (chunks : List String) :
    let whole := (ofComplete (String.join chunks)).code
    ∃ n e, ofChunks stop (stream chunks) = (n, .ok e) ∧ trimEnd e.code.toList <+: whole.toList ∧
      ((Go.checkString whole).valid = true → (Go.checkString e.code).valid = true ∧
        (Go.checkString e.code).package = (Go.checkString whole).package) := by
  intro whole
  have hwhole : whole.toList = codeOf (joined chunks) := by
    rw [← toList_join]
    exact String.toList_ofList
  unfold Go.checkString
  rw [hwhole]
  obtain ⟨n, left, code, hread, hcode⟩ := readChunks_cases stop (.seeking []) 0 chunks
  refine ⟨n, _, hread, ?_⟩
  dsimp only
  rw [String.toList_ofList]
  rcases hcode with hcode | ⟨before, after, hjoined, -, hphase, hcode, hopened, hbalanced⟩
  · rw [codeOf_eq, ← hcode]
    exact ⟨trimEnd_leads code, fun hvalid => ⟨hvalid, rfl⟩⟩
  · have hsofar := codeSoFar?_eq_some_iff.2 ⟨hphase, rfl⟩
    obtain ⟨-, -, -, hlexer⟩ := stateAfter_brace hsofar
    obtain ⟨blanks, kept, rest, heq, hblanks, hfinish, hall⟩ :=
      code_beginning hsofar after
    rw [← stateAfter, hlexer, heq, Go.Lexer.feed_append] at hopened hbalanced
    have habreast := (Go.Lexer.abreast_blankLines hblanks).feed kept
    rw [habreast.opened] at hopened
    rw [habreast.balanced] at hbalanced
    rw [hcode, hjoined, ← stateAfter, hfinish, hall]
    refine ⟨?_, fun hvalid => Go.check_beginning hvalid hopened hbalanced⟩
    rw [trimEnd_concat (by decide)]
    exact (trimEnd_leads kept).trans (List.prefix_append _ _)

/-- An answer that is left behind its first declaration. -/
theorem ofChunks_leads_declaration :
    let chunks := ["\x60\x60\x60go\npackage x\n\nfunc A() \x7b", "\x7d\nfunc B() \x7b\x7d\n\x60\x60\x60\n"]
    let code := "package x\n\nfunc A() \x7b\x7d\n"
    (Go.checkString (ofComplete (String.join chunks)).code).valid = true ∧
      ofChunks ⟨true, 2⟩ (stream chunks) = (2, .ok ⟨code, 2, true⟩) ∧
      (Go.checkString code).valid = true ∧ (Go.checkString code).package = some "x" := by
  intro chunks code
  have hwhole : (Go.checkString (ofComplete (String.join chunks)).code).valid = true := by
    decide +kernel
  have hpackage : (Go.checkString (ofComplete (String.join chunks)).code).package = some "x" := by
    decide +kernel
  have hread : ofChunks ⟨true, 2⟩ (stream chunks) = (2, .ok ⟨code, 2, true⟩) := by rfl
  obtain ⟨n, e, hleft, -, hcheck⟩ := ofChunks_leads ⟨true, 2⟩ chunks
  rw [hread] at hleft
  cases hleft
  obtain ⟨hvalid, hsame⟩ := hcheck hwhole
  exact ⟨hwhole, hread, hvalid, hsame.trans hpackage⟩

end Recast.Reply
