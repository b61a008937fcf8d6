/-
  Proofs/Go/Package.lean --- what giving a text another package name does to its check.

  The package name that a text is given does not decide whether the text is valid
  (`diagnostics_check_retarget`), and of two names given one after the other the first leaves no
  trace (`retargetString_retargetString`).  So a text that was valid under one package name can be
  kept and used under any other one without being checked again.
-/
import Recast.Go.Package
import Recast.Layout.Rules
import Recast.Proofs.Go.Lexer
import Recast.Proofs.Text.Lines

set_option autoImplicit false

namespace Recast.Go

namespace Lexer

/-! ## Words and tokens -/

/-- A word outside code has been taken as a token. -/
def Steady (l : Lexer) : Prop := l.mode = .code ∨ l.word = []

@[simp] theorem word_token (t : List Char) (l : Lexer) : (l.token t).word = l.word := by
  unfold token
  split <;> rfl

@[simp] theorem word_endWord (l : Lexer) : l.endWord.word = [] := by
  unfold endWord
  split
  · next h => exact List.isEmpty_iff.1 h
  · exact word_token _ _

@[simp] theorem word_close (c : Char) (l : Lexer) : (l.close c).word = l.word := by
  unfold close
  split
  · split <;> rfl
  · rfl

@[simp] theorem word_mark (c : Char) (l : Lexer) : (l.mark c).word = l.word := by
  unfold mark beginLiteral
  repeat' split
  all_goals first | exact word_close c l | rfl

theorem word_code_of_not_word (l : Lexer) {c : Char} (h : Text.isWordChar c = false) :
    (l.code c).word = [] := by
  unfold code
  rw [if_neg (by simp [h])]
  dsimp only
  split
  · exact word_endWord l
  · split <;> simp

theorem mode_code_of_word {l : Lexer} {c : Char} (h : Text.isWordChar c = true) :
    l.code c = { l with word := l.word ++ [c] } := by
  simp only [code, h, if_true]

theorem steady_code {l : Lexer} (hl : l.mode = .code) (c : Char) : Steady (l.code c) := by
  cases h : Text.isWordChar c with
  | true => exact .inl (by rw [mode_code_of_word h]; exact hl)
  | false => exact .inr (word_code_of_not_word l h)

theorem steady_quoted {l : Lexer} (hword : l.word = []) (quote : Char) (kind : String)
    (again : Bool → Mode) (escaped : Bool) (c : Char) :
    Steady (l.quoted quote kind again escaped c) := by
  unfold quoted
  repeat' split
  all_goals exact .inr hword

theorem Steady.word {l : Lexer} (h : Steady l) (hmode : l.mode ≠ .code) : l.word = [] :=
  h.resolve_left hmode

/-- A slash that begins no comment is a token, and what follows it is code. -/
theorem mode_token_slash (l : Lexer) : ({ l with mode := .code }.token ['/']).mode = .code := by
  obtain ⟨head, word, ht⟩ := Alike.token ['/'] { l with mode := .code }
  rw [ht]
  rfl

theorem steady_stepMode {l : Lexer} (h : Steady l) (c : Char) : Steady (l.stepMode c) := by
  unfold stepMode
  cases hmode : l.mode with
  | code => exact steady_code hmode c
  | slash =>
    have hword := h.word (by simp [hmode])
    dsimp only
    split
    · exact .inr hword
    · split
      · exact .inr hword
      · exact steady_code (mode_token_slash l) c
  | lineComment | blockComment | raw =>
    have hword := h.word (by simp [hmode])
    dsimp only
    split <;> exact .inr hword
  | interpreted | rune => exact steady_quoted (h.word (by simp [hmode])) ..

theorem steady_step {l : Lexer} (h : Steady l) (c : Char) : Steady (l.step c) := by
  have hmode := steady_stepMode h c
  unfold step
  dsimp only
  split <;> exact hmode

theorem steady_feed {l : Lexer} (h : Steady l) (cs : List Char) : Steady (l.feed cs) := by
  induction cs generalizing l with
  | nil => exact h
  | cons c cs ih => exact ih (steady_step h c)

/-- The state at the beginning of a line: no word is being read, and no comment to a line end. -/
structure AtLineStart (l : Lexer) : Prop where
  word : l.word = []
  mode : l.mode ≠ .lineComment

theorem AtLineStart.steady {l : Lexer} (h : AtLineStart l) : Steady l := .inr h.word

/-- A text that can be broken off at the beginning of a line can be broken off in code only. -/
theorem AtLineStart.mode_of_balanced {l : Lexer} (h : AtLineStart l) (hb : l.balanced = true) :
    l.mode = .code := by
  simp only [balanced, Bool.and_eq_true, Bool.or_eq_true, beq_iff_eq] at hb
  exact hb.2.resolve_right h.mode

theorem mode_code_newline {l : Lexer} (hl : l.mode = .code) : (l.code '\n').mode = .code := by
  obtain ⟨head, word, hcode⟩ := alike_code_of_isInert l (c := '\n') (by decide)
  rw [hcode]
  exact hl

/-- A line end leads to the beginning of a line. -/
theorem atLineStart_newline {l : Lexer} (h : Steady l) : AtLineStart (l.step '\n') := by
  have hstart : (l.stepMode '\n').word = [] ∧ (l.stepMode '\n').mode ≠ .lineComment := by
    unfold stepMode
    cases hmode : l.mode with
    | code =>
      refine ⟨word_code_of_not_word l (by decide), ?_⟩
      dsimp only
      rw [mode_code_newline hmode]
      exact Mode.noConfusion
    | slash =>
      dsimp only
      rw [if_neg (by decide), if_neg (by decide), mode_code_newline (mode_token_slash l)]
      exact ⟨word_code_of_not_word _ (by decide), Mode.noConfusion⟩
    | lineComment | blockComment | raw | interpreted | rune =>
      have hword := h.word (by simp [hmode])
      simp [quoted, breakLiteral, report, hword, hmode]
  simp only [step, if_true]
  exact ⟨hstart.1, hstart.2⟩

/-- A word in code is read as it is. -/
theorem feed_word {l : Lexer} (hl : l.mode = .code) {w : List Char}
    (h : ∀ c ∈ w, Text.isWordChar c = true) : l.feed w = { l with word := l.word ++ w } := by
  induction w generalizing l with
  | nil => simp
  | cons c w ih =>
    have hc := h c (.head _)
    have hne : c ≠ '\n' := by
      rintro rfl
      exact absurd hc (by decide)
    rw [feed_cons, step_of_ne_newline l hne, stepMode_of_code hl, mode_code_of_word hc,
      ih (l := { l with word := l.word ++ [c] }) hl (fun d hd => h d (.tail _ hd))]
    simp

/-! ## The first two tokens -/

theorem head_token {l : Lexer} (h : 2 ≤ l.head.length) (t : List Char) :
    (l.token t).head = l.head := by
  rw [token, if_neg (by omega)]

theorem head_endWord {l : Lexer} (h : 2 ≤ l.head.length) : l.endWord.head = l.head := by
  unfold endWord
  split
  · rfl
  · exact head_token (l := { l with word := [] }) h _

@[simp] theorem head_close (c : Char) (l : Lexer) : (l.close c).head = l.head := by
  unfold close
  split
  · split <;> rfl
  · rfl

@[simp] theorem head_mark (c : Char) (l : Lexer) : (l.mark c).head = l.head := by
  unfold mark beginLiteral
  repeat' split
  all_goals first | exact head_close c l | rfl

theorem head_code {l : Lexer} (h : 2 ≤ l.head.length) (c : Char) : (l.code c).head = l.head := by
  have hword := head_endWord h
  have hmark : (l.endWord.mark c).head = l.head := (head_mark c _).trans hword
  unfold code
  split
  · rfl
  · dsimp only
    split
    · exact hword
    · split
      · exact hmark
      · exact (head_token (by rw [hmark]; exact h) _).trans hmark

theorem head_stepMode {l : Lexer} (h : 2 ≤ l.head.length) (c : Char) :
    (l.stepMode c).head = l.head := by
  unfold stepMode
  cases l.mode with
  | code => exact head_code h c
  | slash =>
    have htoken : ({ l with mode := .code }.token ['/']).head = l.head :=
      head_token (l := { l with mode := .code }) h _
    dsimp only
    split
    · rfl
    · split
      · rfl
      · exact (head_code (by rw [htoken]; exact h) c).trans htoken
  | lineComment | blockComment | raw =>
    dsimp only
    split <;> rfl
  | interpreted | rune =>
    dsimp only [quoted, breakLiteral, report]
    repeat' split
    all_goals rfl

/-- Once there are two tokens the first two do not change any more. -/
theorem head_feed {l : Lexer} (h : 2 ≤ l.head.length) (cs : List Char) :
    (l.feed cs).head = l.head := by
  induction cs generalizing l with
  | nil => rfl
  | cons c cs ih =>
    have hstep : (l.step c).head = l.head := by
      have hmode := head_stepMode h c
      unfold step
      dsimp only
      split <;> exact hmode
    rw [feed_cons, ih (by rw [hstep]; exact h), hstep]

theorem packageName_eq (l : Lexer) :
    l.packageName = match l.firstTokens.take 2 with
      | [keyword, name] =>
        if keyword = "package".toList ∧ isIdentifier name = true then some name else none
      | _ => none := by
  unfold packageName
  rcases l.firstTokens with _ | ⟨keyword, _ | ⟨name, rest⟩⟩ <;> rfl

/-- The package name is decided by the first two tokens. -/
theorem packageName_eq_of_take {l m : Lexer} (h : l.firstTokens.take 2 = m.firstTokens.take 2) :
    l.packageName = m.packageName := by
  rw [packageName_eq, packageName_eq, h]

end Lexer

/-! ## Package clauses -/

/-- A text that can stand in a package clause. -/
structure IsWord (name : List Char) : Prop where
  nonempty : name ≠ []
  wordChars : ∀ c ∈ name, Text.isWordChar c = true

theorem IsWord.not_newline {name : List Char} (h : IsWord name) : '\n' ∉ name := by
  intro hmem
  exact absurd (h.wordChars _ hmem) (by decide)

namespace Lexer

/-- An inert blank in code ends the word before it. -/
theorem code_of_isBlank (l : Lexer) {c : Char} (hblank : Text.isBlank c = true)
    (hword : Text.isWordChar c = false) (hinert : isInert c = true) : l.code c = l.endWord := by
  have hslash : c ≠ '/' := by
    rintro rfl
    exact absurd hinert (by decide)
  rw [code, if_neg (by simp [hword])]
  dsimp only
  rw [if_neg hslash, if_pos hblank, mark_of_isInert hinert]

theorem step_space {l : Lexer} (hl : l.mode = .code) : l.step ' ' = l.endWord := by
  rw [step_of_ne_newline l (by decide), stepMode_of_code hl,
    code_of_isBlank l (by decide) (by decide) (by decide)]

theorem step_newline {l : Lexer} (hl : l.mode = .code) :
    l.step '\n' = { l.endWord with line := l.endWord.line + 1 } := by
  rw [step, stepMode_of_code hl, code_of_isBlank l (by decide) (by decide) (by decide)]
  rfl

theorem mode_token (t : List Char) (l : Lexer) : (l.token t).mode = l.mode := by
  obtain ⟨head, word, ht⟩ := Alike.token t l
  rw [ht]
  rfl

/-- The state after the package keyword and a name. -/
theorem feed_clause {l : Lexer} (hl : l.mode = .code) (hword : l.word = []) {name : List Char}
    (h : IsWord name) :
    l.feed ("package ".toList ++ name) = { l.token "package".toList with word := name } := by
  have hkeyword : l.feed "package".toList = { l with word := "package".toList } := by
    rw [feed_word hl (List.all_eq_true.1 (by decide)), hword]
    rfl
  have hend : ({ l with word := "package".toList } : Lexer).endWord = l.token "package".toList := by
    rw [endWord, ← hword]
    rfl
  have hsplit : "package ".toList ++ name = "package".toList ++ ' ' :: name := by simp
  rw [hsplit, feed_append, hkeyword, feed_cons,
    step_space (l := { l with word := "package".toList }) hl, hend,
    feed_word ((mode_token _ _).trans hl) h.wordChars, word_token, hword]
  rfl

/-- The state after a line with the package keyword and a name. -/
theorem feed_clauseLine {l : Lexer} (hl : l.mode = .code) (hword : l.word = []) {name : List Char}
    (h : IsWord name) :
    l.feed ("package ".toList ++ name ++ ['\n']) =
      { (l.token "package".toList).token name with line := l.line + 1 } := by
  have hend : ({ l.token "package".toList with word := name } : Lexer).endWord =
      (l.token "package".toList).token name := by
    have hempty : (l.token "package".toList).word = [] := (word_token _ l).trans hword
    rw [endWord, if_neg (by simp [h.nonempty]), ← hempty]
  have hline : ((l.token "package".toList).token name).line = l.line := by
    obtain ⟨head, word, ht⟩ := (Alike.token "package".toList l).trans (Alike.token name _)
    rw [ht]
    rfl
  rw [feed_append, feed_clause hl hword h, feed_cons, feed_nil,
    step_newline (l := { l.token "package".toList with word := name }) ((mode_token _ l).trans hl),
    hend, hline]

theorem take_head_token (t : List Char) (l : Lexer) :
    (l.token t).head.take 2 = (l.head ++ [t]).take 2 := by
  unfold token
  split
  · rfl
  · rw [List.take_append_of_le_length (by omega)]

theorem take_head_clause (l : Lexer) (name : List Char) :
    ((l.token "package".toList).head ++ [name]).take 2 =
      (l.head ++ ["package".toList, name]).take 2 := by
  have htoken : (l.token "package".toList).head = l.head ++ ["package".toList] ∨
      2 ≤ l.head.length ∧ (l.token "package".toList).head = l.head := by
    unfold token
    split
    · exact .inl rfl
    · exact .inr ⟨by omega, rfl⟩
  rcases htoken with htoken | ⟨hlength, htoken⟩
  · rw [htoken, List.append_assoc]
    rfl
  · rw [htoken, List.take_append_of_le_length hlength, List.take_append_of_le_length hlength]

/-- The first tokens of a text that goes on after a line with a package clause. -/
theorem firstTokens_clauseLine {l : Lexer} (hl : l.mode = .code) (hword : l.word = [])
    {name : List Char} (h : IsWord name) (cs : List Char) :
    (l.feed ("package ".toList ++ name ++ ['\n'] ++ cs)).firstTokens.take 2 =
      (l.head ++ ["package".toList, name]).take 2 := by
  let m : Lexer := { (l.token "package".toList).token name with line := l.line + 1 }
  have htake : m.head.take 2 = (l.head ++ ["package".toList, name]).take 2 :=
    (take_head_token name _).trans (take_head_clause l name)
  have hlength : 2 ≤ m.head.length := by
    have := congrArg List.length htake
    simp only [List.length_take, List.length_append, List.length_cons, List.length_nil] at this
    omega
  rw [feed_append, feed_clauseLine hl hword h, firstTokens, head_feed (l := m) hlength,
    List.take_append_of_le_length hlength, htake]

/-- The first tokens of a text that ends with a package clause. -/
theorem firstTokens_clause {l : Lexer} (hl : l.mode = .code) (hword : l.word = [])
    {name : List Char} (h : IsWord name) :
    (l.feed ("package ".toList ++ name)).firstTokens.take 2 =
      (l.head ++ ["package".toList, name]).take 2 := by
  rw [feed_clause hl hword h, firstTokens, if_neg (by simp [h.nonempty])]
  exact take_head_clause l name

/-- Two states that a text is judged from alike. -/
structure SameVerdict (l m : Lexer) : Prop where
  alike : Alike l m
  package : l.packageName.isSome = m.packageName.isSome

/-- Of two identifiers in a package clause either both or none give a package name. -/
theorem isSome_packageName_of_take {l m : Lexer} {head : List (List Char)} {p q : List Char}
    (hp : isIdentifier p = true) (hq : isIdentifier q = true)
    (hl : l.firstTokens.take 2 = (head ++ ["package".toList, p]).take 2)
    (hm : m.firstTokens.take 2 = (head ++ ["package".toList, q]).take 2) :
    l.packageName.isSome = m.packageName.isSome := by
  unfold packageName
  generalize l.firstTokens = xs at hl
  generalize m.firstTokens = ys at hm
  rcases head with _ | ⟨a, _ | ⟨b, head⟩⟩ <;>
    rcases xs with _ | ⟨x, _ | ⟨x', xs⟩⟩ <;> rcases ys with _ | ⟨y, _ | ⟨y', ys⟩⟩ <;>
      simp_all

end Lexer

/-! ## Giving another package name -/

/-- Whether the line behind a text is the one that is given the package name. -/
def isClauseAt (l : Lexer) (line : List Char) : Bool :=
  l.balanced && !l.opened && isPackageClause line

theorem retargetLines_nil (package : List Char) (l : Lexer) : retargetLines package l [] = [] := rfl

theorem retargetLines_cons (package : List Char) (l : Lexer) (line : List Char)
    (rest : List (List Char)) :
    retargetLines package l (line :: rest) =
      if isClauseAt l line then packageClause package line ++ rest.flatten
      else line ++ retargetLines package (l.feed line) rest := rfl

theorem balanced_of_isClauseAt {l : Lexer} {line : List Char} (h : isClauseAt l line = true) :
    l.balanced = true := by
  simp only [isClauseAt, Bool.and_eq_true] at h
  exact h.1.1

/-- A clause that was put in looks like one itself. -/
theorem isClauseAt_packageClause {l : Lexer} {line : List Char} (h : isClauseAt l line = true)
    (package : List Char) (other : List Char) : isClauseAt l (packageClause package other) = true := by
  simp only [isClauseAt, Bool.and_eq_true] at h ⊢
  exact ⟨h.1, rfl⟩

theorem packageClause_line (package body : List Char) :
    packageClause package (body ++ ['\n']) = "package ".toList ++ package ++ ['\n'] := by
  have hlast : (body ++ ['\n']).getLast? = some '\n' := List.getLast?_concat
  unfold packageClause
  rw [hlast, if_pos rfl]

theorem packageClause_last (package : List Char) {body : List Char} (h : '\n' ∉ body) :
    packageClause package body = "package ".toList ++ package := by
  have hlast : body.getLast? ≠ some '\n' := fun hl => h (List.mem_of_getLast? hl)
  unfold packageClause
  rw [if_neg hlast]
  exact List.append_nil _

theorem not_newline_clause {package : List Char} (h : '\n' ∉ package) :
    '\n' ∉ "package ".toList ++ package := by
  intro hmem
  rcases List.mem_append.1 hmem with hmem | hmem
  · exact absurd hmem (by decide)
  · exact h hmem

/-- Of two package names given one after the other only the second one is left. -/
theorem retargetLines_retargetLines {p : List Char} (hp : '\n' ∉ p) (q text : List Char)
    (l : Lexer) :
    retargetLines q l (Text.linesWithEnds (retargetLines p l (Text.linesWithEnds text))) =
      retargetLines q l (Text.linesWithEnds text) := by
  have hclause := not_newline_clause hp
  induction text using Text.lineInduction generalizing l with
  | nil => rfl
  | last body hne hbody =>
    rw [Text.linesWithEnds_of_not_mem hne hbody, retargetLines_cons, retargetLines_cons]
    split
    · next h =>
      have hagain := isClauseAt_packageClause h p body
      rw [packageClause_last p hbody] at hagain ⊢
      rw [List.flatten_nil, List.append_nil, Text.linesWithEnds_of_not_mem (by simp) hclause,
        retargetLines_cons, if_pos hagain, packageClause_last q hclause, packageClause_last q hbody,
        List.flatten_nil, List.append_nil]
    · next h =>
      rw [retargetLines_nil, List.append_nil, Text.linesWithEnds_of_not_mem hne hbody,
        retargetLines_cons, if_neg h, retargetLines_nil, List.append_nil]
  | line body cs hbody ih =>
    rw [Text.linesWithEnds_append cs hbody, retargetLines_cons, retargetLines_cons]
    split
    · next h =>
      have hagain := isClauseAt_packageClause h p (body ++ ['\n'])
      rw [packageClause_line] at hagain ⊢
      rw [packageClause_line, Text.flatten_linesWithEnds]
      have hcut := Text.linesWithEnds_append cs hclause
      rw [List.append_assoc _ ['\n'] cs]
      rw [List.singleton_append, hcut, retargetLines_cons, if_pos hagain, packageClause_line,
        Text.flatten_linesWithEnds]
    · next h =>
      rw [List.append_assoc, List.singleton_append, Text.linesWithEnds_append _ hbody,
        retargetLines_cons, if_neg h, ih]

/-- A text is judged alike under any two names. -/
theorem sameVerdict_retargetLines {p q : List Char} (hp : IsWord p) (hq : IsWord q)
    (hp' : Lexer.isIdentifier p = true) (hq' : Lexer.isIdentifier q = true) (text : List Char)
    {l : Lexer} (hl : l.AtLineStart) :
    Lexer.SameVerdict (l.feed (retargetLines p l (Text.linesWithEnds text)))
      (l.feed (retargetLines q l (Text.linesWithEnds text))) := by
  induction text using Text.lineInduction generalizing l with
  | nil => exact ⟨.refl _, rfl⟩
  | last body hne hbody =>
    rw [Text.linesWithEnds_of_not_mem hne hbody, retargetLines_cons, retargetLines_cons]
    split
    · next h =>
      have hmode : l.mode = .code := hl.mode_of_balanced (balanced_of_isClauseAt h)
      rw [packageClause_last p hbody, packageClause_last q hbody, List.flatten_nil,
        List.append_nil, List.append_nil]
      refine ⟨?_, Lexer.isSome_packageName_of_take hp' hq'
        (Lexer.firstTokens_clause hmode hl.word hp) (Lexer.firstTokens_clause hmode hl.word hq)⟩
      rw [Lexer.feed_clause hmode hl.word hp, Lexer.feed_clause hmode hl.word hq]
      exact ⟨_, q, rfl⟩
    · exact ⟨.refl _, rfl⟩
  | line body cs hbody ih =>
    rw [Text.linesWithEnds_append cs hbody, retargetLines_cons, retargetLines_cons]
    split
    · next h =>
      have hmode : l.mode = .code := hl.mode_of_balanced (balanced_of_isClauseAt h)
      rw [packageClause_line, packageClause_line, Text.flatten_linesWithEnds]
      refine ⟨?_, Lexer.isSome_packageName_of_take hp' hq'
        (Lexer.firstTokens_clauseLine hmode hl.word hp cs)
        (Lexer.firstTokens_clauseLine hmode hl.word hq cs)⟩
      rw [Lexer.feed_append l _ cs, Lexer.feed_append l _ cs,
        Lexer.feed_clauseLine hmode hl.word hp, Lexer.feed_clauseLine hmode hl.word hq]
      refine Lexer.Alike.feed ?_ cs
      obtain ⟨head, word, ht⟩ :=
        (Lexer.Alike.token p (l.token "package".toList)).symm.trans (Lexer.Alike.token q _)
      exact ⟨head, word, by rw [ht]; rfl⟩
    · next h =>
      rw [Lexer.feed_append l (body ++ ['\n']), Lexer.feed_append l (body ++ ['\n'])]
      refine ih ?_
      rw [Lexer.feed_append]
      exact Lexer.atLineStart_newline (Lexer.steady_feed hl.steady body)

/-! ## The check -/

/-- A text under two names holds something else than blanks under both or none. -/
theorem allBlank_retargetLines (p q text : List Char) (l : Lexer) :
    Text.allBlank (retargetLines p l (Text.linesWithEnds text)) =
      Text.allBlank (retargetLines q l (Text.linesWithEnds text)) := by
  generalize Text.linesWithEnds text = lines
  have hclause (package line : List Char) (rest : List (List Char)) :
      Text.allBlank (packageClause package line ++ rest.flatten) = false := rfl
  induction lines generalizing l with
  | nil => rfl
  | cons line rest ih =>
    rw [retargetLines_cons, retargetLines_cons]
    split
    · rw [hclause, hclause]
    · have happend (cs ds : List Char) :
          Text.allBlank (cs ++ ds) = (Text.allBlank cs && Text.allBlank ds) := List.all_append
      rw [happend, happend, ih]

theorem atLineStart_start : Lexer.AtLineStart {} := ⟨rfl, Mode.noConfusion⟩

/-- The faults of a text do not depend on which identifier it is given as its package name. -/
theorem diagnostics_check_retarget {p q : List Char} (hp : IsWord p) (hq : IsWord q)
    (hp' : Lexer.isIdentifier p = true) (hq' : Lexer.isIdentifier q = true) (text : List Char) :
    (check (retarget p text)).diagnostics = (check (retarget q text)).diagnostics := by
  have hblank := allBlank_retargetLines p q text {}
  obtain ⟨halike, hname⟩ := sameVerdict_retargetLines hp hq hp' hq' text atLineStart_start
  unfold retarget check
  rw [hblank]
  split
  · rfl
  · generalize Lexer.feed {} (retargetLines p {} (Text.linesWithEnds text)) = a at halike hname
    generalize Lexer.feed {} (retargetLines q {} (Text.linesWithEnds text)) = b at halike hname
    dsimp only
    rw [halike.finish_eq]
    cases ha : a.packageName <;> cases hb : b.packageName <;> simp_all

/-! ## Names of packages -/

theorem isLetter_of_isPackageStart {c : Char} (h : Layout.isPackageStart c = true) :
    (Text.isLetter c || c == '_') = true := by
  simp only [Layout.isPackageStart, Bool.or_eq_true, Bool.and_eq_true, decide_eq_true_eq] at h
  rcases h with ⟨hlow, hhigh⟩ | h
  · have hascii : c.toNat < 0x80 := by
      have : c.toNat ≤ 'z'.toNat := hhigh
      simp at this
      omega
    simp [Text.isLetter, Text.isAsciiLetter, hascii, hlow, hhigh]
  · rw [h, Bool.or_true]

theorem isWordChar_of_isPackageStart {c : Char} (h : Layout.isPackageStart c = true) :
    Text.isWordChar c = true := by
  have hletter := isLetter_of_isPackageStart h
  simp only [Text.isWordChar, Bool.or_eq_true] at hletter ⊢
  exact hletter.symm.imp_right Text.isAlphanumeric_of_isLetter

theorem isWordChar_of_isAsciiDigit {c : Char} (h : Text.isAsciiDigit c = true) :
    Text.isWordChar c = true := by
  have hascii : c.toNat < 0x80 := by
    simp only [Text.isAsciiDigit, Bool.and_eq_true, decide_eq_true_eq] at h
    have : c.toNat ≤ '9'.toNat := h.2
    simp at this
    omega
  simp [Text.isWordChar, Text.isAlphanumeric, hascii, h]

/-- A name that is fit for a package is a word and an identifier. -/
theorem isWord_of_isIdentifier {name : List Char} (h : Lexer.isIdentifier name = true) :
    IsWord name := by
  cases name with
  | nil => exact Bool.noConfusion h
  | cons c cs =>
    simp only [Lexer.isIdentifier, Bool.and_eq_true, Bool.or_eq_true, beq_iff_eq,
      List.all_eq_true] at h
    refine ⟨List.cons_ne_nil c cs, fun d hd => ?_⟩
    rcases List.mem_cons.1 hd with rfl | hd
    · rw [Text.isWordChar, Bool.or_eq_true, beq_iff_eq]
      exact h.1.symm.imp_right Text.isAlphanumeric_of_isLetter
    · exact h.2 d hd

theorem isIdentifier_of_isPackageName {name : String} (h : Layout.isPackageName name = true) :
    IsWord name.toList ∧ Lexer.isIdentifier name.toList = true := by
  unfold Layout.isPackageName at h
  split at h
  · exact Bool.noConfusion h
  · next c cs heq =>
    simp only [Bool.and_eq_true, List.all_eq_true, Bool.or_eq_true] at h
    obtain ⟨hstart, hrest⟩ := h
    have hword : ∀ d ∈ cs, Text.isWordChar d = true := fun d hd =>
      (hrest d hd).elim isWordChar_of_isPackageStart isWordChar_of_isAsciiDigit
    rw [heq]
    refine ⟨⟨List.cons_ne_nil c cs, ?_⟩, ?_⟩
    · intro d hd
      rcases List.mem_cons.1 hd with rfl | hd
      · exact isWordChar_of_isPackageStart hstart
      · exact hword d hd
    · simp only [Lexer.isIdentifier, isLetter_of_isPackageStart hstart, Bool.true_and,
        List.all_eq_true]
      exact hword

/-- Of two package names given one after the other only the second one is left. -/
theorem retargetString_retargetString {p : String} (hp : '\n' ∉ p.toList) (text q : String) :
    retargetString (retargetString text p) q = retargetString text q := by
  unfold retargetString retarget
  rw [String.toList_ofList, retargetLines_retargetLines hp]

/-- Whether a text is valid does not depend on which name its package is given. -/
theorem valid_checkString_retargetString {p q : String} (hp : Layout.isPackageName p = true)
    (hq : Layout.isPackageName q = true) (text : String) :
    (checkString (retargetString text p)).valid = (checkString (retargetString text q)).valid := by
  obtain ⟨hp, hp'⟩ := isIdentifier_of_isPackageName hp
  obtain ⟨hq, hq'⟩ := isIdentifier_of_isPackageName hq
  unfold checkString retargetString CheckResult.valid
  rw [String.toList_ofList, String.toList_ofList,
    diagnostics_check_retarget hp hq hp' hq' text.toList]

end Recast.Go
