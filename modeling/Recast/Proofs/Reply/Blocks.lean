/-
  Proofs/Reply/Blocks.lean --- the braces behind which an answer is left.

  An answer is left behind a brace that leaves no delimiter open (`LeftAt.levels`), and every such brace
  may be the one (`leftAt_of_levels`).  Outside comments these are the braces that close what was opened
  outside of all delimiters, whatever follows them on their line (`leftAt_closesBlock`).
-/
import Recast.Proofs.Reply.EarlyStop

set_option autoImplicit false

namespace Recast.Go.Lexer

/-! ## Closing braces -/

variable {l : Lexer}

/-- A brace behind this state closes a brace that was opened outside of all delimiters. -/
structure ClosesBlock (l : Lexer) : Prop where
  /-- The brace is code. -/
  inCode : l.mode = .code ∨ l.mode = .slash
  kinds : l.kinds = ['{']

/-- A closer that is no fault fits the innermost opener. -/
theorem close_of_silent {c : Char} (h : (l.close c).diagnostics = []) :
    ∃ line rest, l.stack = (openerOf c, line) :: rest ∧ l.close c = { l with stack := rest } := by
  unfold close at h ⊢
  cases hstack : l.stack with
  | nil => simp [hstack, report] at h
  | cons top rest =>
    rw [hstack] at h
    dsimp only at h ⊢
    split at h
    · next hfits => exact ⟨top.2, rest, by rw [← hfits], if_pos hfits⟩
    · simp [report] at h

/-- A brace in code closes something, or is a fault. -/
theorem alike_step_brace (h : l.mode = .code ∨ l.mode = .slash) :
    Alike ({ l with mode := .code }.close '}') (l.step '}') := by
  have hcode (m : Lexer) : Alike (m.close '}') (m.code '}') :=
    alike_code_of_mark m (c := '}') (by decide) (by decide)
  rw [step_of_ne_newline l (by decide)]
  rcases h with h | h
  · rw [stepMode_of_code h, ← h]
    exact hcode l
  · have hslash : l.stepMode '}' = ({ l with mode := .code }.token ['/']).code '}' := by
      rw [stepMode, h]
      rfl
    rw [hslash]
    exact ((Alike.token ['/'] { l with mode := .code }).close '}').trans (hcode _)

/-- Elsewhere it is a part of what it stands in. -/
theorem step_brace_of_not_code (h : ¬(l.mode = .code ∨ l.mode = .slash)) :
    ∃ mode, l.step '}' = { l with mode } ∧ mode ≠ .code ∧
      (mode = .lineComment ↔ l.mode = .lineComment) := by
  rw [step_of_ne_newline l (by decide), stepMode]
  cases hmode : l.mode with
  | code => exact absurd (.inl hmode) h
  | slash => exact absurd (.inr hmode) h
  | lineComment => exact ⟨l.mode, rfl, by rw [hmode]; exact Mode.noConfusion, by rw [hmode]⟩
  | blockComment star =>
    exact ⟨.blockComment false, if_neg (by simp), Mode.noConfusion, Mode.noConfusion, Mode.noConfusion⟩
  | interpreted escaped => exact ⟨.interpreted false, by simp [quoted], Mode.noConfusion, Mode.noConfusion, Mode.noConfusion⟩
  | rune escaped => exact ⟨.rune false, by simp [quoted], Mode.noConfusion, Mode.noConfusion, Mode.noConfusion⟩
  | raw => exact ⟨l.mode, rfl, by rw [hmode]; exact Mode.noConfusion, by rw [hmode]⟩

/-- A brace in code opens nothing. -/
theorem opened_step_brace (l : Lexer) : (l.step '}').opened = l.opened := by
  by_cases hcode : l.mode = .code ∨ l.mode = .slash
  · obtain ⟨head, word, hstep⟩ := alike_step_brace hcode
    rw [hstep]
    exact opened_close '}' _
  · obtain ⟨mode, hstep, -⟩ := step_brace_of_not_code hcode
    rw [hstep]

theorem balanced_iff : l.balanced = true ↔ l.kinds = [] ∧ (l.mode = .code ∨ l.mode = .lineComment) := by
  simp [balanced, kinds]

/-- A brace behind which nothing is open closes a block, or stands in a comment outside of all
delimiters. -/
theorem balanced_step_brace_iff (h : (l.step '}').diagnostics = []) :
    (l.step '}').balanced = true ↔ l.ClosesBlock ∨ (l.mode = .lineComment ∧ l.kinds = []) := by
  rw [balanced_iff]
  by_cases hcode : l.mode = .code ∨ l.mode = .slash
  · have hcomment : l.mode ≠ .lineComment := by
      rintro heq
      rcases hcode with hmode | hmode <;> rw [heq] at hmode <;> cases hmode
    have hno : ¬(l.mode = .lineComment ∧ l.kinds = []) := fun h => hcomment h.1
    have hcloses : l.ClosesBlock ↔ l.kinds = ['{'] := ⟨(·.kinds), fun h => ⟨hcode, h⟩⟩
    have halike := alike_step_brace hcode
    rw [halike.diagnostics_eq] at h
    obtain ⟨line, rest, hstack, hclose⟩ := close_of_silent h
    rw [hclose] at halike
    obtain ⟨head, word, hstep⟩ := halike
    have hkinds : l.kinds = '{' :: rest.map Prod.fst := congrArg (List.map Prod.fst) hstack
    rw [hcloses, or_iff_left hno, hstep, hkinds]
    simp [kinds, withTokens]
  · obtain ⟨mode, hstep, hmode, hcomment⟩ := step_brace_of_not_code hcode
    have hcloses : ¬l.ClosesBlock := fun h => hcode h.inCode
    rw [hstep, or_iff_right hcloses, and_comm]
    dsimp only
    rw [or_iff_right hmode, hcomment]
    rfl

/-- Openers are open only if one was opened. -/
def Opens (l : Lexer) : Prop := l.opened = false → l.stack = []

theorem opens_mark {l : Lexer} (h : Opens l) (c : Char) : Opens (l.mark c) := by
  unfold mark
  split
  · exact h
  split
  · exact h
  split
  · exact h
  split
  · exact nofun
  split
  · intro hopened
    rw [opened_close] at hopened
    rw [close, h hopened]
    exact h hopened
  · exact h

theorem opens_code {l : Lexer} (h : Opens l) (c : Char) : Opens (l.code c) := by
  have halike {l m : Lexer} (h : Opens l) (hlm : Alike l m) : Opens m := by
    obtain ⟨head, word, rfl⟩ := hlm
    exact h
  have hend := halike h (.endWord l)
  have hmark := opens_mark hend c
  unfold code
  split
  · exact h
  · dsimp only
    split
    · exact hend
    · split
      · exact hmark
      · exact halike hmark (.token [c] _)

theorem opens_step {l : Lexer} (h : Opens l) (c : Char) : Opens (l.step c) := by
  have hmode : Opens (l.stepMode c) := by
    unfold stepMode
    cases l.mode with
    | code => exact opens_code h c
    | slash =>
      dsimp only
      split
      · exact h
      · split
        · exact h
        · refine opens_code ?_ c
          obtain ⟨head, word, htoken⟩ := Alike.token ['/'] { l with mode := .code }
          rw [htoken]
          exact h
    | lineComment | blockComment | raw =>
      dsimp only
      split <;> exact h
    | interpreted | rune =>
      dsimp only [quoted, breakLiteral, report]
      repeat' split
      all_goals exact h
  unfold step
  dsimp only
  split <;> exact hmode

theorem opens_feed {l : Lexer} (h : Opens l) (cs : List Char) : Opens (l.feed cs) := by
  induction cs generalizing l with
  | nil => exact h
  | cons c cs ih => exact ih (opens_step h c)

/-- Something was opened before a brace that closes a block. -/
theorem ClosesBlock.opened {code : List Char} (h : ClosesBlock (Lexer.feed {} code)) :
    (Lexer.feed {} code).opened = true := by
  by_contra hopened
  have hstack := opens_feed (l := {}) (fun _ => rfl) code (Bool.not_eq_true _ ▸ hopened)
  have hkinds := h.kinds
  rw [Lexer.kinds, hstack] at hkinds
  cases hkinds

end Recast.Go.Lexer

namespace Recast.Reply

open Go (Lexer)
open Text (isBlank)

/-! ## Answers left behind a brace -/

/-- Whether pieces are left before the reader has seen that the answer ends there. -/
def isLeft (stop : EarlyStop) (chunks : List String) : Bool :=
  (ofChunks stop (stream chunks)).2.toOption.any Extraction.stoppedEarly

/-- An answer in pieces is left behind a brace, which stands between the two texts: had the answer
broken off in front of the brace, it would not have been left, and behind it, it would. -/
inductive LeftAt (stop : EarlyStop) : List String → List Char → List Char → Prop
  | intro {pieces : List String} {head tail : List Char} {rest : List String}
      (hopen : isLeft stop (pieces ++ [String.ofList head]) = false)
      (hleft : isLeft stop (pieces ++ [String.ofList (head ++ ['}'])]) = true) :
      LeftAt stop (pieces ++ String.ofList (head ++ '}' :: tail) :: rest)
        (joined pieces ++ head) (tail ++ joined rest)

/-- Whether a line holds nothing but blanks, semicolons and comments.  `comment` tells that it begins
in a comment between stars. -/
def isIdle (comment : Bool) : List Char → Bool
  | [] => true
  | '*' :: '/' :: rest => if comment then isIdle false rest else false
  | '/' :: '/' :: rest => if comment then isIdle true ('/' :: rest) else true
  | '/' :: '*' :: rest => if comment then isIdle true ('*' :: rest) else isIdle true rest
  | c :: rest => (comment || isBlank c || c == ';') && isIdle comment rest

/-- A brace between the code and what follows it in the answer closes a block and is the last thing on
its line that is no comment. -/
structure EndsDeclaration (code after : List Char) : Prop where
  closes : (Lexer.feed {} code).ClosesBlock
  idle : isIdle false (firstLine after) = true

/-- The code leaves nothing open with a brace behind it. -/
def Levels (code : List Char) : Prop :=
  (Lexer.feed {} (code ++ ['}'])).opened = true ∧ (Lexer.feed {} (code ++ ['}'])).balanced = true

/-- Reading pieces ends in them, or goes on from the state behind them. -/
theorem readChunks_append (stop : EarlyStop) (t : Tracker) (n : Nat) (pieces : List String) :
    (∃ k code, ∀ rest, readChunks stop t n (stream pieces ++ rest) = (k, .ok ⟨code, k, true⟩)) ∨
    ∀ rest, readChunks stop t n (stream pieces ++ rest) =
      readChunks stop (t.run (joined pieces)) (n + pieces.length) rest := by
  induction pieces generalizing t n with
  | nil => exact .inr fun _ => rfl
  | cons piece pieces ih =>
    cases hfeed : t.feed stop (n + 1) piece.toList with
    | mk after left =>
      cases left with
      | true =>
        refine .inl ⟨n + 1, String.ofList after.finish, fun rest => ?_⟩
        rw [stream_cons, List.cons_append, readChunks, hfeed]
      | false =>
        have hcons (rest : List Chunk) : readChunks stop t n (stream (piece :: pieces) ++ rest) =
            readChunks stop after (n + 1) (stream pieces ++ rest) := by
          rw [stream_cons, List.cons_append, readChunks, hfeed]
        have hafter : after = t.run piece.toList := by
          have hread := (Tracker.of_feed_false (by rw [hfeed])).1
          rw [hfeed] at hread
          exact congrArg Prod.fst hread
        rw [joined_cons, Tracker.run_append, List.length_cons, Nat.add_comm pieces.length,
          ← Nat.add_assoc, ← hafter]
        rcases ih after (n + 1) with ⟨k, code, hread⟩ | hread
        · exact .inl ⟨k, code, fun rest => (hcons rest).trans (hread rest)⟩
        · exact .inr fun rest => (hcons rest).trans (hread rest)

theorem isLeft_concat_iff {stop : EarlyStop} {pieces : List String} {piece : List Char}
    (h : ∀ rest, readChunks stop (.seeking []) 0 (stream pieces ++ rest) =
      readChunks stop (stateAfter (joined pieces)) pieces.length rest) :
    isLeft stop (pieces ++ [String.ofList piece]) =
      ((stateAfter (joined pieces)).feed stop (pieces.length + 1) piece).2 := by
  have hread : ofChunks stop (stream (pieces ++ [String.ofList piece])) =
      readChunks stop (stateAfter (joined pieces)) pieces.length [.ok (String.ofList piece)] := by
    rw [stream, List.map_append]
    exact h _
  rw [isLeft, hread, readChunks, String.toList_ofList]
  cases (stateAfter (joined pieces)).feed stop (pieces.length + 1) piece with
  | mk after left => cases left <;> rfl

/-- The tracker is done behind a brace only if the brace leaves nothing open. -/
theorem levels_of_feed {stop : EarlyStop} {n : Nat} {text : List Char}
    (hphase : (stateAfter text).phase ≠ .closed)
    (h : ((stateAfter text).feed stop n ['}']).2 = true) :
    ∃ code, codeSoFar? text = some code ∧ Levels code := by
  rcases Tracker.feed_cases stop n (stateAfter text) ['}'] with
    hwhole | ⟨before, c, after, hcs, hcompletes, -⟩
  · rw [hwhole] at h
    exact absurd (beq_iff_eq.1 h) (Tracker.phase_step_brace (fits_stateAfter text) hphase)
  · obtain ⟨rfl, rfl, rfl⟩ : before = [] ∧ c = '}' ∧ after = [] := by
      cases before with
      | nil => simpa [eq_comm] using hcs
      | cons d before => simp at hcs
    obtain ⟨⟨hcode, -, -⟩, -, hopened, hbalanced⟩ := Tracker.completes_iff.1 hcompletes
    have hsofar := codeSoFar?_eq_some_iff.2 ⟨hcode, rfl⟩
    obtain ⟨-, -, -, hlexer⟩ := stateAfter_brace hsofar
    rw [stateAfter, Tracker.run_append] at hlexer
    refine ⟨_, hsofar, ?_, ?_⟩
    · rw [← hlexer]
      exact hopened
    · rw [← hlexer]
      exact hbalanced

/-- An answer is left behind a brace in code that leaves nothing open. -/
theorem LeftAt.levels {stop : EarlyStop} {chunks : List String} {before after : List Char}
    (h : LeftAt stop chunks before after) :
    joined chunks = before ++ '}' :: after ∧ ∃ code, codeSoFar? before = some code ∧ Levels code := by
  obtain @⟨pieces, head, tail, rest, hopen, hleft⟩ := h
  refine ⟨by simp [joined], ?_⟩
  rcases readChunks_append stop (.seeking []) 0 pieces with ⟨k, code, hread⟩ | hread
  · have hearly : isLeft stop (pieces ++ [String.ofList head]) = true := by
      have hchunks := hread [.ok (String.ofList head)]
      rw [isLeft, stream, List.map_append]
      exact congrArg (fun r => r.2.toOption.any Extraction.stoppedEarly) hchunks
    rw [hopen] at hearly
    exact Bool.noConfusion hearly
  · rw [Nat.zero_add] at hread
    rw [isLeft_concat_iff hread] at hopen hleft
    have hstate : (stateAfter (joined pieces)).run head = stateAfter (joined pieces ++ head) := by
      rw [stateAfter, stateAfter, Tracker.run_append]
    rw [Tracker.feed_append hopen, hstate] at hleft
    have hphase := (Tracker.of_feed_false hopen).2
    rw [hstate] at hphase
    exact levels_of_feed hphase hleft

/-- Behind every brace in code that leaves nothing open an answer may be left: it comes in two pieces,
the second of which begins with the brace. -/
theorem leftAt_of_levels {before code : List Char} (hcode : codeSoFar? before = some code)
    (hlevels : Levels code) (after : List Char) :
    LeftAt ⟨true, 2⟩ [String.ofList before, String.ofList ('}' :: after)] before after := by
  obtain ⟨hphase, -⟩ := codeSoFar?_eq_some_iff.1 hcode
  obtain ⟨hnext, -, -, hlexer⟩ := stateAfter_brace hcode
  have hjoined : joined [String.ofList before] = before := by simp [joined]
  have hread (rest : List Chunk) :
      readChunks ⟨true, 2⟩ (.seeking []) 0 (stream [String.ofList before] ++ rest) =
        readChunks ⟨true, 2⟩ (stateAfter (joined [String.ofList before])) 1 rest := by
    have hopen : ((stateAfter before).phase == .closed) = false := by
      rw [hphase]
      rfl
    rw [stream_cons, List.cons_append, readChunks, Tracker.feed_of_few (by decide),
      String.toList_ofList, ← stateAfter, hopen, hjoined]
    rfl
  have hcompletes : Tracker.completes ⟨true, 2⟩ 2 (stateAfter before) ((stateAfter before).step '}')
      '}' = true := by
    rw [stateAfter, Tracker.run_append, Tracker.run_cons, Tracker.run_nil, ← stateAfter]
      at hnext hlexer
    refine Tracker.completes_iff.2 ⟨⟨hphase, hnext, rfl⟩, ⟨rfl, Nat.le_refl 2⟩, ?_⟩
    rw [hlexer]
    exact hlevels
  have hopen : isLeft ⟨true, 2⟩ ([String.ofList before] ++ [String.ofList []]) = false := by
    rw [isLeft_concat_iff hread, hjoined, Tracker.feed, hphase]
    rfl
  have hleft : isLeft ⟨true, 2⟩ ([String.ofList before] ++ [String.ofList ([] ++ ['}'])]) = true := by
    rw [isLeft_concat_iff hread, hjoined, List.nil_append, Tracker.feed, if_neg (by rw [hphase]; exact Phase.noConfusion)]
    dsimp only
    rw [if_pos (by simp [hcompletes])]
  have hat : LeftAt ⟨true, 2⟩ [String.ofList before, String.ofList ('}' :: after)] _ _ :=
    .intro hopen hleft
  rwa [hjoined, List.append_nil, joined_nil, List.append_nil] at hat

/-! ## Blocks -/

/-- Code with a brace behind it, from an answer whose code passes the check, shows no fault. -/
theorem silent_of_valid {before after code : List Char}
    (h : (Go.check (codeOf (before ++ '}' :: after))).valid = true)
    (hcode : codeSoFar? before = some code) :
    ((Lexer.feed {} code).step '}').diagnostics = [] := by
  obtain ⟨blanks, kept, rest, heq, hblanks, -, hall⟩ := code_beginning hcode after
  have hstep : (Lexer.feed {} code).step '}' = Lexer.feed {} (blanks ++ kept) := by
    rw [← heq, Lexer.feed_append, Lexer.feed_cons, Lexer.feed_nil]
  have hfaults := ((Lexer.abreast_blankLines hblanks).feed kept).faults
  rw [hall] at h
  rw [Go.diagnostics_beginning h, ← Lexer.feed_append] at hfaults
  rw [hstep]
  exact List.eq_nil_of_length_eq_zero hfaults

theorem levels_iff {before after code : List Char}
    (h : (Go.check (codeOf (before ++ '}' :: after))).valid = true)
    (hcode : codeSoFar? before = some code) :
    Levels code ↔ (Lexer.feed {} code).ClosesBlock ∨
      ((Lexer.feed {} code).opened = true ∧ (Lexer.feed {} code).mode = .lineComment ∧
        (Lexer.feed {} code).kinds = []) := by
  have hbalanced := Lexer.balanced_step_brace_iff (silent_of_valid h hcode)
  rw [Levels, Lexer.feed_append, Lexer.feed_cons, Lexer.feed_nil, Lexer.opened_step_brace, hbalanced]
  constructor
  · rintro ⟨hopened, hblock | hcomment⟩
    · exact .inl hblock
    · exact .inr ⟨hopened, hcomment⟩
  · rintro (hblock | ⟨hopened, hcomment⟩)
    · exact ⟨hblock.opened, .inl hblock⟩
    · exact ⟨hopened, .inr hcomment⟩

/-- Outside comments to the line end, an answer whose code passes the check is left only behind a
brace in code that closes a brace opened outside of all delimiters; and every such brace may be the
one, whatever follows it. -/
theorem leftAt_closesBlock {text : String}
    (h : (Go.checkString (ofComplete text).code).valid = true) :
    (∀ stop chunks before after, String.join chunks = text → LeftAt stop chunks before after →
      ∃ code, codeSoFar? before = some code ∧
        ((Lexer.feed {} code).mode ≠ .lineComment → (Lexer.feed {} code).ClosesBlock)) ∧
    ∀ before after code, text.toList = before ++ '}' :: after → codeSoFar? before = some code →
      (Lexer.feed {} code).ClosesBlock →
        ∃ stop chunks, String.join chunks = text ∧ LeftAt stop chunks before after := by
  have hvalid : (Go.check (codeOf text.toList)).valid = true := by
    rwa [Go.checkString, ofComplete, String.toList_ofList] at h
  constructor
  · intro stop chunks before after htext hleft
    obtain ⟨hjoined, code, hcode, hlevels⟩ := hleft.levels
    rw [← htext, toList_join, hjoined] at hvalid
    refine ⟨code, hcode, fun hmode => ?_⟩
    exact ((levels_iff hvalid hcode).1 hlevels).resolve_right fun hcomment => hmode hcomment.2.1
  · intro before after code htext hcode hblock
    rw [htext] at hvalid
    refine ⟨_, _, ?_, leftAt_of_levels hcode ((levels_iff hvalid hcode).2 (.inl hblock)) after⟩
    rw [← String.toList_inj, toList_join, htext]
    simp [joined]

/-- An answer with a function behind another may be left behind the first. -/
theorem leftAt_closesBlock_function :
    let before := "\x60\x60\x60go\npackage x\n\nfunc A() \x7b\n".toList
    let after := "\nfunc B() \x7b\n\x7d\n\x60\x60\x60\n".toList
    let text := String.ofList (before ++ '}' :: after)
    (Go.checkString (ofComplete text).code).valid = true ∧
      ∃ stop chunks, String.join chunks = text ∧ LeftAt stop chunks before after := by
  intro before after text
  have hvalid : (Go.checkString (ofComplete text).code).valid = true := by decide +kernel
  have hcode : codeSoFar? before = some "package x\n\nfunc A() \x7b\n".toList := by decide +kernel
  have hblock : (Lexer.feed {} "package x\n\nfunc A() \x7b\n".toList).ClosesBlock :=
    ⟨.inl (by decide +kernel), by decide +kernel⟩
  exact ⟨hvalid, (leftAt_closesBlock hvalid).2 before after _ String.toList_ofList hcode hblock⟩

/-- The brace may be that of a type in the middle of a declaration: of this answer the code is left
without the value that follows the type. -/
theorem not_endsDeclaration_of_leftAt :
    let before := "\x60\x60\x60go\npackage x\n\nvar a interface\x7b".toList
    let after := " = 1\n\x60\x60\x60\n".toList
    let chunks := [String.ofList before, String.ofList ('}' :: after)]
    (ofComplete (String.join chunks)).code = "package x\n\nvar a interface\x7b\x7d = 1\n" ∧
      (Go.checkString (ofComplete (String.join chunks)).code).valid = true ∧
      ofChunks ⟨true, 2⟩ (stream chunks) =
        (2, .ok ⟨"package x\n\nvar a interface\x7b\x7d\n", 2, true⟩) ∧
      LeftAt ⟨true, 2⟩ chunks before after ∧
        ¬∃ code, codeSoFar? before = some code ∧ EndsDeclaration code after := by
  intro before after chunks
  have hcode : codeSoFar? before = some "package x\n\nvar a interface\x7b".toList := by
    decide +kernel
  have hlevels : Levels "package x\n\nvar a interface\x7b".toList :=
    ⟨by decide +kernel, by decide +kernel⟩
  refine ⟨by decide +kernel, by decide +kernel, by decide +kernel,
    leftAt_of_levels hcode hlevels after, ?_⟩
  rintro ⟨code, -, hends⟩
  have hidle : isIdle false (firstLine after) = false := by decide +kernel
  rw [hends.idle] at hidle
  exact Bool.noConfusion hidle

end Recast.Reply
